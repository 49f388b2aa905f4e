import C0.Instruction.Encoding
import C0.Proofs.Spelling
import Mathlib.Data.List.Nodup

namespace C0

/-- Where two texts begin with characters of a class and go on with others, they begin with the same
characters and go on with the same. -/
theorem append_inj_of_stops {p : Char → Bool} {run run' rest rest' : List Char}
    (all : ∀ c ∈ run, p c = true) (all' : ∀ c ∈ run', p c = true) (stops : Stops p rest)
    (stops' : Stops p rest') (same : run ++ rest = run' ++ rest') : run = run' ∧ rest = rest' := by
  have front := congrArg (List.takeWhile p) same
  have back := congrArg (List.dropWhile p) same
  rw [takeWhile_of_stops all stops, takeWhile_of_stops all' stops'] at front
  rw [dropWhile_of_stops all stops, dropWhile_of_stops all' stops'] at back
  exact ⟨front, back⟩

theorem isDigit_toString {n : Nat} : ∀ c ∈ (toString n).toList, c.isDigit = true := by
  intro c member
  rw [Nat.toString_eq_ofList_toDigits, String.toList_ofList] at member
  exact Nat.isDigit_of_mem_toDigits (by decide) (by decide) member

theorem toString_nat_plain (n : Nat) : '\n' ∉ (toString n).toList :=
  fun member => absurd (isDigit_toString _ member) (by decide)

theorem toString_nat_inj {m n : Nat} (same : toString m = toString n) : m = n := by
  rw [Nat.toString_eq_ofList_toDigits, Nat.toString_eq_ofList_toDigits] at same
  have digits := congrArg (Nat.ofDigitChars 10 · 0) (String.ofList_injective same)
  simpa using digits

theorem toString_int_inj {i j : Int} (same : toString i = toString j) : i = j := by
  have negative (n : Nat) : toString (Int.negSucc n) = "-" ++ toString (n + 1) := rfl
  have mixed (m n : Nat) : toString m ≠ "-" ++ toString (n + 1) := by
    intro same
    have sign : '-' ∈ (toString m).toList := by simp [same]
    exact absurd (isDigit_toString '-' sign) (by decide)
  cases i with
  | ofNat m =>
    cases j with
    | ofNat n => exact congrArg Int.ofNat (toString_nat_inj same)
    | negSucc n => exact absurd same (mixed m n)
  | negSucc m =>
    cases j with
    | ofNat n => exact absurd same.symm (mixed n m)
    | negSucc n =>
      rw [negative, negative, String.append_right_inj] at same
      rw [Nat.succ.inj (toString_nat_inj same)]

/-- A text that begins with no digit goes on with none of a number before it. -/
theorem stops_of_head {gap : String} {c : Char} (first : gap.toList.head? = some c)
    (other : c.isDigit = false) (rest : String) : Stops Char.isDigit (gap ++ rest).toList := by
  intro d here
  rw [String.toList_append, List.head?_append, first] at here
  cases here
  exact other

/-- A number can be told from what comes after it if that does not go on with a digit. -/
theorem number_append_inj {m n : Nat} {rest rest' : String} (stops : Stops Char.isDigit rest.toList)
    (stops' : Stops Char.isDigit rest'.toList) (same : toString m ++ rest = toString n ++ rest') :
    m = n ∧ rest = rest' := by
  have texts := congrArg String.toList same
  rw [String.toList_append, String.toList_append] at texts
  obtain ⟨digits, after⟩ := append_inj_of_stops isDigit_toString isDigit_toString stops stops' texts
  exact ⟨toString_nat_inj (String.toList_inj.mp digits), String.toList_inj.mp after⟩

namespace Operand

theorem render_plain (operand : Operand) :
    ∀ c ∈ operand.render.toList, c.isDigit = true ∨ c = '-' := by
  have signed (i : Int) : ∀ c ∈ (toString i).toList, c.isDigit = true ∨ c = '-' := by
    intro c member
    change c ∈ i.repr.toList at member
    rw [Int.repr_eq_if] at member
    split at member
    · exact .inl (isDigit_toString c member)
    · rw [String.toList_append, List.mem_append] at member
      rcases member with sign | digit
      · exact .inr (by simpa using sign)
      · exact .inl (isDigit_toString c digit)
  cases operand with
  | unsigned value => exact fun c member => .inl (isDigit_toString c member)
  | signed value => exact signed _
  | word value => exact signed _

end Operand

/-- All instructions with an unsigned operand. -/
def Indexed.all : List Indexed :=
  [popn, loca, arga, globa, stackalloc, call, callname]

/-- All branches. -/
def Branch.all : List Branch :=
  [always, onFalse, onTrue]

namespace Instruction

/-- The instruction with 0 for its operand. -/
def cleared : Instruction → Instruction
  | plain op => plain op
  | push _ => push 0
  | indexed op _ => indexed op 0
  | branch test _ => branch test 0

/-- All instructions, those with an operand with 0 for it. -/
def table : List Instruction :=
  Op.all.map plain ++ push 0 :: Indexed.all.map (indexed · 0) ++ Branch.all.map (branch · 0)

theorem cleared_mem_table (instruction : Instruction) : instruction.cleared ∈ table := by
  simp only [table, List.mem_append, List.mem_cons, List.mem_map]
  cases instruction with
  | plain op => exact .inl (.inl ⟨op, by cases op <;> decide, rfl⟩)
  | push word => exact .inl (.inr (.inl rfl))
  | indexed op operand => exact .inl (.inr (.inr ⟨op, by cases op <;> decide, rfl⟩))
  | branch test offset => exact .inr ⟨test, by cases test <;> decide, rfl⟩

theorem mnemonic_cleared (instruction : Instruction) :
    instruction.cleared.mnemonic = instruction.mnemonic := by
  cases instruction <;> rfl

theorem nodup_mnemonics : (table.map mnemonic).Nodup := by
  decide +kernel

/-- Instructions with the same name differ at most in their operands. -/
theorem cleared_eq_of_mnemonic {first second : Instruction}
    (same : first.mnemonic = second.mnemonic) : first.cleared = second.cleared := by
  refine List.inj_on_of_nodup_map nodup_mnemonics first.cleared_mem_table
    second.cleared_mem_table ?_
  simpa only [mnemonic_cleared] using same

theorem mnemonic_plain (instruction : Instruction) :
    ' ' ∉ instruction.mnemonic.toList ∧ '\n' ∉ instruction.mnemonic.toList := by
  have plain : ∀ known ∈ table,
      ' ' ∉ known.mnemonic.toList ∧ '\n' ∉ known.mnemonic.toList := by
    decide +kernel
  rw [← mnemonic_cleared]
  exact plain _ instruction.cleared_mem_table

/-- How the operand stands behind the name. -/
def operandText (instruction : Instruction) : List Char :=
  match instruction.operand? with
  | some operand => ' ' :: operand.render.toList
  | none => []

theorem toList_render (instruction : Instruction) :
    instruction.render.toList = instruction.mnemonic.toList ++ instruction.operandText := by
  unfold render operandText
  cases instruction.operand? with
  | none => simp
  | some operand =>
    change (instruction.mnemonic ++ " " ++ operand.render).toList = _
    simp

theorem operandText_inj {first second : Instruction} (same : first.cleared = second.cleared)
    (operands : first.operandText = second.operandText) : first = second := by
  cases first with
  | plain op =>
    cases second with
    | plain op' => exact same
    | _ => cases same
  | push word =>
    cases second with
    | push word' =>
      have values := toString_int_inj (String.toList_inj.mp (List.cons.inj operands).2)
      have words := congrArg Int64.toUInt64 (Int64.toInt_inj.mp values)
      exact congrArg push (by simpa using words)
    | _ => cases same
  | indexed op operand =>
    cases second with
    | indexed op' operand' =>
      have values := toString_nat_inj (String.toList_inj.mp (List.cons.inj operands).2)
      rw [(indexed.inj same).1, UInt32.toNat_inj.mp values]
    | _ => cases same
  | branch test offset =>
    cases second with
    | branch test' offset' =>
      have values := toString_int_inj (String.toList_inj.mp (List.cons.inj operands).2)
      rw [(branch.inj same).1, Int32.toInt_inj.mp values]
    | _ => cases same

/-- Different instructions are listed differently. -/
theorem render_injective : Function.Injective render := by
  intro first second same
  have texts := congrArg String.toList same
  rw [toList_render, toList_render] at texts
  have stops (instruction : Instruction) : Stops (· != ' ') instruction.operandText := by
    unfold operandText
    cases instruction.operand? <;> simp [Stops]
  have noBlank (instruction : Instruction) (c : Char)
      (member : c ∈ instruction.mnemonic.toList) : (c != ' ') = true :=
    bne_iff_ne.mpr fun blank => instruction.mnemonic_plain.1 (blank ▸ member)
  obtain ⟨names, operands⟩ := append_inj_of_stops (noBlank first) (noBlank second) (stops first)
    (stops second) texts
  exact operandText_inj (cleared_eq_of_mnemonic (String.toList_inj.mp names)) operands

theorem render_plain (instruction : Instruction) : '\n' ∉ instruction.render.toList := by
  rw [toList_render, List.mem_append]
  rintro (name | operand)
  · exact instruction.mnemonic_plain.2 name
  · unfold operandText at operand
    split at operand
    · rename_i value _
      rw [List.mem_cons] at operand
      rcases operand with blank | digit
      · cases blank
      · rcases value.render_plain _ digit with bad | bad <;> cases bad
    · cases operand

end Instruction

end C0
