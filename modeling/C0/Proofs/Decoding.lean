import C0.Instruction.Encoding
import C0.Proofs.Listing.Instructions

namespace C0

/-- The number that so many bytes at the low end of a word stand for, in two's complement if they
have a sign. -/
def lowNumber (isSigned : Bool) (bytes : Nat) (word : UInt64) : Int :=
  if isSigned then Int.bmod word.toNat (2 ^ (8 * bytes)) else word.toNat % 2 ^ (8 * bytes)

theorem toInt_toInt32 (word : UInt64) :
    word.toUInt32.toInt32.toInt = Int.bmod word.toNat (2 ^ 32) := by
  change word.toUInt32.toBitVec.toInt = _
  rw [BitVec.toInt_eq_toNat_bmod, UInt32.toNat_toBitVec, UInt64.toNat_toUInt32]
  exact Int.emod_bmod word.toNat (2 ^ 32)

/-- The number that the operand stands for. -/
def Operand.value : Operand → Int
  | unsigned value => value.toNat
  | signed value => value.toInt
  | word value => value.toNat

namespace Instruction

/-- The low bytes of a word are the bits of the instruction's operand, in two's complement. The
bytes beyond them are left open, all of them if there is no operand. -/
def CarriedBy (instruction : Instruction) (word : UInt64) : Prop :=
  ∀ operand, instruction.operand? = some operand →
    (word.toNat : Int) % 2 ^ (8 * operand.width) = operand.value % 2 ^ (8 * operand.width)

/-- The instruction with an operand out of the low bytes of a word. -/
def withLow (word : UInt64) : Instruction → Instruction
  | plain op => plain op
  | push _ => push word
  | indexed op _ => indexed op word.toUInt32
  | branch test _ => branch test word.toUInt32.toInt32

theorem withLow_of_carriedBy {instruction : Instruction} {word : UInt64}
    (carried : instruction.CarriedBy word) : instruction.withLow word = instruction := by
  cases instruction with
  | plain op => rfl
  | push operand =>
    have same := carried (.word operand) rfl
    have bounds := And.intro word.toNat_lt operand.toNat_lt
    simp only [Operand.width, Operand.value] at same
    exact congrArg push (UInt64.toNat_inj.mp (by omega))
  | indexed op operand =>
    have same := carried (.unsigned operand) rfl
    have bound := operand.toNat_lt
    simp only [Operand.width, Operand.value] at same
    refine congrArg (indexed op) (UInt32.toNat_inj.mp ?_)
    rw [UInt64.toNat_toUInt32]
    omega
  | branch test offset =>
    have same : (word.toNat : Int) % (2 ^ 32 : Nat) = offset.toInt % (2 ^ 32 : Nat) :=
      carried (.signed offset) rfl
    refine congrArg (branch test) (Int32.toInt_inj.mp ?_)
    calc word.toUInt32.toInt32.toInt
        = Int.bmod word.toNat (2 ^ 32) := toInt_toInt32 word
      _ = Int.bmod (word.toNat % (2 ^ 32 : Nat)) (2 ^ 32) := (Int.emod_bmod _ _).symm
      _ = Int.bmod offset.toInt (2 ^ 32) := by rw [same, Int.emod_bmod]
      _ = offset.toInt := offset.toInt_bmod

/-- The operand out of the low bytes of a word is the number that they stand for, as many bytes as
the operand takes, with a sign if the instruction is a branch. -/
theorem value_withLow (instruction : Instruction) (word : UInt64) :
    (instruction.withLow word).operand?.map Operand.value =
      if instruction.operandWidth = 0 then none
      else some (lowNumber instruction.isBranch instruction.operandWidth word) := by
  cases instruction with
  | plain op => rfl
  | push operand =>
    have bound := word.toNat_lt
    have whole : lowNumber false 8 word = word.toNat := by
      simp only [lowNumber, Bool.false_eq_true, if_false]
      omega
    exact congrArg some whole.symm
  | indexed op operand =>
    have low : lowNumber false 4 word = word.toUInt32.toNat := by
      rw [UInt64.toNat_toUInt32]
      exact (Int.natCast_emod _ _).symm
    exact congrArg some low.symm
  | branch test offset =>
    have low : lowNumber true 4 word = word.toUInt32.toInt32.toInt := by
      simp only [toInt_toInt32, lowNumber, if_true, Nat.reduceMul]
    exact congrArg some low.symm

@[simp] theorem opcode_cleared (instruction : Instruction) :
    instruction.cleared.opcode = instruction.opcode := by
  cases instruction <;> rfl

theorem nodup_opcodes : (table.map opcode).Nodup := by
  decide +kernel

/-- Instructions with the same opcode differ at most in their operands. -/
theorem opcode_eq_iff {first second : Instruction} :
    first.opcode = second.opcode ↔ first.cleared = second.cleared := by
  constructor
  · intro same
    refine List.inj_on_of_nodup_map nodup_opcodes first.cleared_mem_table
      second.cleared_mem_table ?_
    simpa only [opcode_cleared] using same
  · intro same
    rw [← opcode_cleared, same, opcode_cleared]

/-- The opcode alone tells the instruction, and the word its operand. -/
theorem decode?_opcode (instruction : Instruction) (word : UInt64) :
    decode? instruction.opcode word = some (instruction.withLow word) := by
  cases instruction with
  | plain op => cases op <;> rfl
  | push operand => rfl
  | indexed op operand => cases op <;> rfl
  | branch test offset => cases test <;> rfl

theorem opcode_of_decode? {opcode : UInt8} {word : UInt64} {instruction : Instruction}
    (decoded : decode? opcode word = some instruction) : instruction.opcode = opcode := by
  unfold decode? at decoded
  split at decoded
  case h_12 =>
    obtain ⟨op, found, rfl⟩ := Option.map_eq_some_iff.mp decoded
    have fits := List.find?_some found
    exact eq_of_beq fits
  all_goals
    cases decoded
    rfl

/-- A decoded instruction has the operand that the word carries. -/
theorem withLow_of_decode? {opcode : UInt8} {word : UInt64} {instruction : Instruction}
    (decoded : decode? opcode word = some instruction) :
    instruction.withLow word = instruction := by
  have again := decode?_opcode instruction word
  rw [opcode_of_decode? decoded, decoded] at again
  exact (Option.some.inj again).symm

theorem decode?_eq_none_iff {opcode : UInt8} {word : UInt64} :
    decode? opcode word = none ↔ ∀ instruction : Instruction, instruction.opcode ≠ opcode := by
  constructor
  · rintro unknown instruction rfl
    rw [decode?_opcode] at unknown
    cases unknown
  · intro unknown
    rw [Option.eq_none_iff_forall_ne_some]
    exact fun instruction decoded => unknown instruction (opcode_of_decode? decoded)

theorem isBranch_iff (instruction : Instruction) :
    instruction.isBranch = true ↔ ∃ offset, instruction.operand? = some (.signed offset) := by
  cases instruction <;> simp [isBranch, operand?]

/-- Decoding undoes encoding, and encoding undoes decoding. An instruction comes back from its
opcode and any word that has its operand in the low bytes. What is decoded has the given opcode, and
for its operand the low bytes of the word, with a sign if it is a branch. Nothing is decoded exactly
if no instruction has the opcode. Different instructions have different opcodes, operands apart, and
branches are the instructions with a signed operand, which takes four bytes. -/
theorem decode?_inverse :
    (∀ (instruction : Instruction) (word : UInt64), instruction.CarriedBy word →
      decode? instruction.opcode word = some instruction) ∧
    (∀ (opcode : UInt8) (word : UInt64) (instruction : Instruction),
      decode? opcode word = some instruction → instruction.opcode = opcode ∧
        instruction.operand?.map Operand.value =
          if instruction.operandWidth = 0 then none
          else some (lowNumber instruction.isBranch instruction.operandWidth word)) ∧
    (∀ (opcode : UInt8) (word : UInt64), decode? opcode word = none ↔
      ∀ instruction : Instruction, instruction.opcode ≠ opcode) ∧
    (∀ first second : Instruction,
      first.opcode = second.opcode ↔ first.cleared = second.cleared) ∧
    ∀ instruction : Instruction, instruction.isBranch = true ↔
      ∃ offset, instruction.operand? = some (.signed offset) ∧ instruction.operandWidth = 4 := by
  refine ⟨fun instruction word carried => ?_, fun opcode word instruction decoded => ?_,
    fun opcode word => decode?_eq_none_iff, fun first second => opcode_eq_iff,
    fun instruction => ?_⟩
  · rw [decode?_opcode, withLow_of_carriedBy carried]
  · refine ⟨opcode_of_decode? decoded, ?_⟩
    rw [← value_withLow instruction word, withLow_of_decode? decoded]
  · rw [isBranch_iff]
    refine exists_congr fun offset => ⟨fun has => ⟨has, ?_⟩, And.left⟩
    rw [operandWidth, has]
    rfl

/-- A branch of -4 in the low bytes of a word that has other bits too. -/
theorem decode?_inverse_branch :
    (branch .onTrue (-4)).CarriedBy 0x89abcdeffffffffc ∧
      decode? 0x43 0x89abcdeffffffffc = some (branch .onTrue (-4)) := by
  have carried : (branch .onTrue (-4)).CarriedBy 0x89abcdeffffffffc := by
    intro operand has
    cases has
    decide
  exact ⟨carried, decode?_inverse.1 _ _ carried⟩

end Instruction

end C0
