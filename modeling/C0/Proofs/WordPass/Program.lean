import C0.Proofs.WordPass.Statement

namespace C0

section

variable {source : String} {depth code made : Nat}

namespace SinglePass

/-- A function begins without code, and what the one at hand costs is put aside. -/
theorem openFunction_pays {signature : Signature} :
    Establishes (Paid source depth code (made + signature.params.length)) (openFunction signature)
      fun outer b => outer.target.params.length ≤ source.utf8ByteSize ∧
        Paid source depth (outer.target.nextPosition + code) made b := by
  rintro b _ _ paid ⟨⟩
  have written := paid.written
  have counted := paid.counted
  have bytes := paid.weight_le
  refine ⟨paid.params, { paid with written := ?_, counted := ?_, params := ?_ }⟩
  · change 0 + _ ≤ 2 * b.weight
    omega
  · change _ + 0 + _ + _ ≤ b.weight
    dsimp only
    omega
  · change signature.params.length ≤ _
    omega

/-- The function that was put aside is at hand again. -/
theorem closeFunction_pays {outer : Desk} {closing : Span}
    (params : outer.target.params.length ≤ source.utf8ByteSize) :
    Establishes (Paid source depth (outer.target.nextPosition + code) made)
      (closeFunction outer closing) fun _ => Paid source depth code made := by
  refine Establishes.get.bind fun found => ?_
  split
  · exact .alarm
  · split
    · rintro b _ _ ⟨rfl, paid⟩ ⟨⟩
      have written := paid.written
      refine { paid with written := ?_, params := params }
      change _ ≤ 2 * b.weight
      dsimp only
      omega
    · exact .fail

end SinglePass

namespace WordPass

open SinglePass

/-- The name of a parameter pays for the parameter. -/
theorem param_exact (before : Signature) :
    Exact source (Paid source depth code (made + before.params.length)) (param .words before)
      (param .exact before)
      (Sum.elim (fun after => Paid source depth code (made + after.params.length))
        fun after => Paid source depth code (made + after.params.length)) := by
  have short (b : Bench) (paid : Paid source depth code (made + before.params.length) b) :
      before.params.length ≤ source.utf8ByteSize := by
    have counted := paid.counted
    have bytes := paid.weight_le
    omega
  refine .knowing short fun short => ?_
  have const : Establishes (Paid source depth code (made + before.params.length))
      (eat (.keyword .constWord))
      fun _ => Paid source depth code (made + before.params.length) :=
    (eat_pays 0 (Nat.zero_le _)).after fun const _ paid => by cases const <;> exact paid
  refine .self_bind const fun const => .self_bind expectIdentifier_pays fun word => ?_
  obtain ⟨name, span⟩ := word
  refine .self_bind (expect_pays 1 (by decide)) fun _ => ?_
  refine .self_bind expectValueType_pays fun ty => .param?_bind short ?_
  have added : Establishes
      (Paid source depth (code + 2 + 2 * 1 + 2) (made + before.params.length + 1 + 1 + 1))
      (orFail (before.addParam ⟨name, const.isSome, ty⟩ span))
      fun after => Paid source depth code (made + after.params.length) := by
    refine .orFail fun after b done paid => ?_
    unfold Signature.addParam at done
    split at done
    · cases done
    · cases done
      exact paid.less (by omega) (by simp only [List.length_append, List.length_singleton]; omega)
  refine .self_bind added fun after => .self_bind (eat_pays 0 (Nat.zero_le _)) fun comma => ?_
  cases comma <;> exact .pure fun _ => id

/-- Each parameter is paid for by its name. -/
theorem params_exact (before : Signature) :
    Exact source (Paid source depth code (made + before.params.length)) (params .words before)
      (params .exact before) fun after => Paid source depth code (made + after.params.length) := by
  refine .self_bind (expect_pays 0 (Nat.zero_le _)) fun _ => ?_
  refine .self_bind (check_pays _) fun isEmpty => ?_
  have listed : Exact source (Paid source depth code (made + before.params.length))
      (if isEmpty then pure before else repeatUntil (param .words) before)
      (if isEmpty then pure before else repeatUntil (param .exact) before)
      fun after => Paid source depth code (made + after.params.length) := by
    split
    · exact .pure fun _ => id
    · exact .repeatUntil param_exact before
  refine listed.bind fun after => .self_bind (expect_pays 0 (Nat.zero_le _)) fun _ => ?_
  exact .pure fun _ => id

/-- A head pays for the entry of its function and for its parameters. -/
theorem functionHead_exact : Exact source (Paid source depth code made) (functionHead .words)
    (functionHead .exact) fun signature =>
      Paid source depth code (made + signature.params.length) := by
  refine .self_bind (expect_pays 2 (by decide)) fun _ => ?_
  refine .self_bind expectIdentifier_pays fun word => ?_
  obtain ⟨name, span⟩ := word
  refine .get_bind fun found _ => .refuse_bind (Exact.before ?_ fun _ holds => holds.2)
  refine (register_exact (by omega)).bind fun address => ?_
  have listed : Exact source (Paid source depth (code + 2 * 2 + 2) (made + 2 + 1 - 1))
      (params .words ⟨name, address, [], .void⟩) (params .exact ⟨name, address, [], .void⟩)
      fun signature => Paid source depth code (made + signature.params.length) :=
    (params_exact _).before fun _ paid => paid.less (by omega) (by rw [List.length_nil]; omega)
  refine listed.bind fun signature => .self_bind (expect_pays 0 (Nat.zero_le _)) fun _ => ?_
  refine .self_bind expectType_pays fun returned => ?_
  exact .pure fun _ paid => paid.less (by omega) (by dsimp only; omega)

section

variable {words steps : Routines} (inner : ExactRoutines source words steps)

include inner

theorem function_exact : Exact source (Paid source depth code made) (function .words words)
    (function .exact steps) fun _ => Paid source depth code made := by
  refine functionHead_exact.bind fun signature => ?_
  refine .self_bind openFunction_pays fun outer => .given fun params => ?_
  refine (inner.block (Nat.le_add_left 1 _)).bind fun closing => .self ?_
  exact closeFunction_pays params

theorem itemOrEnd_exact (_ : Unit) :
    Exact source (Paid source depth code made) (itemOrEnd words ()) (itemOrEnd steps ())
      (Sum.elim (fun _ => Paid source depth code made) fun _ => Paid source depth code made) := by
  refine peek_bind fun token => ?_
  obtain ⟨kind, span⟩ := token
  cases kind with
  | keyword word =>
    cases word with
    | fnWord => exact .map inner.function
    | letWord | constWord => exact .map inner.declaration
    | _ => exact .self .fail
  | eof => exact .pure fun _ => id
  | _ => exact .self .fail

end

/-- The address of the entry function fits too. -/
theorem finish_exact {eof : Span} : Exact source (Paid source depth code made) (finish .words eof)
    (finish .exact eof) fun _ _ => True := by
  refine .get_bind fun found paid => Exact.before ?_ fun _ holds => holds.2
  cases found.routines.find? (·.name == mainName) with
  | none => exact .self .fail
  | some main =>
    have written {code' : List Instruction} : Establishes (Paid source depth code made)
        (write code') fun _ b => b.directory.size ≤ source.utf8ByteSize := by
      refine .onDesk fun b _ _ paid _ => ?_
      have counted := paid.counted
      have bytes := paid.weight_le
      dsimp only
      omega
    have placed : Establishes (fun b => b.directory.size ≤ source.utf8ByteSize)
        (modifyGet fun b => b.register (.routine entryName))
        fun address _ => address ≤ source.utf8ByteSize ∧ True := by
      refine .modifyGet fun b entries => ?_
      have address := b.directory.register_lt (.routine entryName)
      have size := b.directory.size_register (.routine entryName)
      exact ⟨by unfold Bench.register; dsimp only; omega, trivial⟩
    have registered : Exact source (fun b => b.directory.size ≤ source.utf8ByteSize)
        (register .words (.routine entryName)) (register .exact (.routine entryName))
        fun _ _ => True :=
      .self_bind placed fun address => .given fun address_le => .keep fun small => by omega
    refine .self_bind written fun _ => registered.bind fun address => .self ?_
    exact fun _ _ _ _ _ => trivial

/-- The routines of a pass that keeps its numbers in words do what those do that keep them as they
are. The induction is on the calls that may be active. -/
theorem routines_exact (source : String) (limit active : Nat) :
    ExactRoutines source (routines .words limit active) (routines .exact limit active) := by
  induction active with
  | zero => constructor <;> intros <;> exact .self .alarm
  | succ active inner =>
    exact {
      function := function_exact inner
      block := block_exact inner
      statement := statement_exact inner
      declaration := declaration_exact inner
      conditional := conditional_exact inner
      iteration := iteration_exact inner
      loopJump := fun enough => .self (loopJump_pays enough)
      giveBack := giveBack_exact inner
      expression := expression_exact inner
      operand := operand_exact inner
      primary := primary_exact inner
      assignment := assignment_exact inner
      call := call_exact inner
      arguments := arguments_exact inner
      libraryCall := libraryCall_exact inner }

theorem program_exact (limit active : Nat) : Exact source (Paid source depth code made)
    (routines .words limit active).program (routines .exact limit active).program
      fun _ _ => True := by
  cases active with
  | zero => exact .self .alarm
  | succ active =>
    refine (Exact.repeatUntil (itemOrEnd_exact (routines_exact source limit active)) ()).bind
      fun _ => ?_
    exact .self_bind (expect_pays 0 (Nat.zero_le _)) fun eof => finish_exact

end WordPass

/-- Before the first token nothing is made and nothing is owed. -/
theorem paid_ofSource (source : String) : Paid source 0 0 0 (.ofSource source) where
  cursor := .free
  taken := rfl
  deep := rfl
  written := Nat.le_refl _
  counted := Nat.le_refl _
  params := Nat.zero_le _
  jumps := by simp [Bench.ofSource]

/-- Below two to the 30 bytes, a pass that keeps its numbers in words comes to what one comes to
that keeps them as they are. -/
theorem passOver_words {source : String} (small : source.utf8ByteSize < 2 ^ 30) (active : Nat)
    (options : Options) :
    passOver .words active source options = passOver .exact active source options := by
  rw [passOver, passOver, (WordPass.program_exact options.maxNestingDepth active).same small _
    (paid_ofSource source)]

end

end C0
