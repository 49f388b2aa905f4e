import C0.Proofs.ControlFlow
import C0.Proofs.Reading.Weight
import C0.Proofs.Stack

namespace C0

namespace Setting

variable {setting : Setting}

theorem advance?_test {ty : Ty} (valued : ty ≠ .void) (offset : Int32) (stack : List Cell)
    (constants : List Constant) :
    setting.advance? (ty.cells ++ stack, constants) (.branch .onTrue offset) =
      some (stack, constants) := by
  refine advance?_eq rfl ?_
  cases ty with
  | void => exact absurd rfl valued
  | _ => rfl

theorem advance?_branchTo (target site : Nat) (stack : List Cell) (constants : List Constant) :
    setting.advance? (stack, constants) (branchTo target site) = some (stack, constants) :=
  rfl

theorem flow?_evaluate {e : Expr} (typed : e.Typed setting) (small : setting.Small)
    (rest : List Constant) :
    setting.flow? (evaluateCode e) ([], e.constants ++ rest) = some ([], rest) := by
  rw [evaluateCode, flow?_append, typed.flow small, Option.bind_some]
  cases same : e.ty <;> rfl

theorem slotType?_returned {value : Expr} (typed : (Stmt.giveBack (some value)).Typed setting) :
    setting.slotType? (.argument 0) = some value.ty := by
  obtain ⟨_, same, valued⟩ := typed
  have room : setting.signature.returnSlots = 1 := by
    rw [Signature.returnSlots, ← same]
    cases found : value.ty with
    | void => exact absurd found valued
    | _ => rfl
  simp [slotType?, Signature.argumentTypes, room, same]

/-- A value that is returned is stored in the first argument slot. -/
theorem flow?_return {value : Option Expr} (typed : (Stmt.giveBack value).Typed setting)
    (small : setting.Small) (rest : List Constant) :
    setting.flow? (returnCode value) ([], (Stmt.giveBack value).constants ++ rest) =
      some ([], rest) := by
  have returns (stack : List Cell) (fits : stack = [] ∨
      setting.signature.returnType = .void ∧ stack = [.address (.argument 0)]) :
      setting.advance? (stack, rest) (.plain .ret) = some ([], rest) :=
    advance?_eq rfl (by simp [Instruction.effect?, fits])
  cases value with
  | none =>
    simp only [Stmt.Typed] at typed
    have reached := returns [.address (.argument 0)] (.inr ⟨typed, rfl⟩)
    simp only [returnCode, flow?_cons, Stmt.constants, List.nil_append]
    exact congrArg (Option.bind · _) reached
  | some value =>
    have slot := slotType?_returned typed
    obtain ⟨typed, _, valued⟩ := typed
    have stored := flow?_store small slot valued (typed.flow small) [] rest
    have split : returnCode (some value) = storeCode (.argument 0) value.code ++ [.plain .ret] := by
      simp only [returnCode, storeCode, List.cons_append, List.append_assoc, List.nil_append]
      rfl
    rw [split, flow?_append, Stmt.constants, stored, Option.bind_some, flow?_cons,
      returns [] (.inl rfl)]
    rfl

end Setting

/-- The code of a statement starts and ends with an empty stack. -/
theorem Stmt.Typed.flow {setting : Setting} {stmt : Stmt} (typed : stmt.Typed setting)
    (small : setting.Small) {onJump : Jump → Nat → Instruction}
    (jumps : ∀ jump site, ∃ offset, onJump jump site = .branch .always offset) (base : Nat)
    (rest : List Constant) :
    setting.flow? (stmt.assembled onJump base) ([], stmt.constants ++ rest) = some ([], rest) := by
  induction stmt generalizing onJump base rest with
  | skip | empty => rfl
  | seq first second ihFirst ihSecond =>
    simp only [Stmt.assembled, Stmt.constants, List.append_assoc, Setting.flow?_append,
      ihFirst typed.1 jumps, ihSecond typed.2 jumps, Option.bind_some]
  | declare symbol value =>
    cases value with
    | none => rfl
    | some value =>
      obtain ⟨slot, valued, typed, same⟩ := typed
      rw [← same] at slot valued
      exact Setting.flow?_store small slot valued (typed.flow small) [] rest
  | evaluate e => exact Setting.flow?_evaluate typed small rest
  | block body ih => exact ih typed jumps base rest
  | conditional test yes no ihYes ihNo =>
    obtain ⟨typed, valued, typedYes, typedNo⟩ := typed
    simp only [Stmt.assembled, Stmt.constants, List.append_assoc, Setting.flow?_append,
      Setting.flow?_cons, typed.flow small, Option.bind_some, Setting.advance?_test valued,
      Setting.advance?_branchTo, ihYes typedYes jumps, ihNo typedNo jumps]
  | iteration test body ih =>
    obtain ⟨typed, valued, typedBody⟩ := typed
    simp only [Stmt.assembled, Stmt.constants, List.append_assoc, Setting.flow?_append,
      Setting.flow?_cons, Setting.flow?_nil, typed.flow small, Option.bind_some,
      Setting.advance?_test valued, Setting.advance?_branchTo, ih typedBody (loopBranch_always _ _)]
  | leave =>
    obtain ⟨offset, jump⟩ := jumps .leave base
    simp only [Stmt.assembled, jump]
    rfl
  | again =>
    obtain ⟨offset, jump⟩ := jumps .again base
    simp only [Stmt.assembled, jump]
    rfl
  | giveBack value => exact Setting.flow?_return typed small rest

theorem take_of_holds {code piece : List Instruction} {base : Nat}
    (holds : Holds code base piece) :
    code.take (base + piece.length) = code.take base ++ piece := by
  induction piece generalizing base with
  | nil => simp
  | cons first rest ih =>
    obtain ⟨here, holds⟩ := holds_cons.mp holds
    have split := ih holds
    rw [List.take_add_one, here] at split
    rw [List.length_cons, Nat.add_comm rest.length, ← Nat.add_assoc, split]
    simp

namespace Setting

variable {setting : Setting} {constants rest rest' : List Constant}
  {code piece : List Instruction} {stack stack' : List Cell} {p target : Nat}

/-- The stack at a position of some code and the literals that are still to come there, when the
code before it is gone through without regard to branches. -/
def At (setting : Setting) (constants : List Constant) (code : List Instruction) (p : Nat)
    (stack : List Cell) (rest : List Constant) : Prop :=
  setting.flow? (code.take p) ([], constants) = some (stack, rest)

/-- The stack is empty at a position. -/
def EmptyAt (setting : Setting) (constants : List Constant) (code : List Instruction) (p : Nat) :
    Prop :=
  ∃ rest, setting.At constants code p [] rest

theorem At.through (reached : setting.At constants code p stack rest) (holds : Holds code p piece)
    (flow : setting.flow? piece (stack, rest) = some (stack', rest')) :
    setting.At constants code (p + piece.length) stack' rest' := by
  unfold At at reached ⊢
  rw [take_of_holds holds, flow?_append, reached, Option.bind_some, flow]

theorem At.step {instruction : Instruction} (reached : setting.At constants code p stack rest)
    (here : code[p]? = some instruction)
    (advance : setting.advance? (stack, rest) instruction = some (stack', rest')) :
    setting.At constants code (p + 1) stack' rest' := by
  have one : Holds code p [instruction] := by simpa using here
  exact reached.through one (by simp [advance])

/-- A branch that stands at a position has an empty stack after it and where it leads. -/
def Lands (setting : Setting) (constants : List Constant) (code : List Instruction) (p : Nat)
    (instruction : Instruction) : Prop :=
  ∀ test offset, instruction = .branch test offset → setting.EmptyAt constants code (p + 1) ∧
    ∃ target ≤ code.length, (p : Int) + 1 + offset.toInt = target ∧
      setting.EmptyAt constants code target

theorem lands_straight (base : Nat) (straight : piece.all Instruction.isStraight = true) :
    Everywhere (setting.Lands constants code) base piece := by
  rintro i instruction here test offset rfl
  have := List.all_eq_true.mp straight _ (List.mem_of_getElem? here)
  simp [Instruction.isStraight] at this

theorem lands_test (next : setting.EmptyAt constants code (p + 1))
    (further : setting.EmptyAt constants code (p + 2)) (inside : p + 2 ≤ code.length) :
    setting.Lands constants code p (.branch .onTrue 1) := by
  rintro test offset ⟨⟩
  have one : (1 : Int32).toInt = 1 := rfl
  exact ⟨next, p + 2, inside, by rw [one]; omega, further⟩

theorem lands_branchTo (next : setting.EmptyAt constants code (p + 1))
    (further : setting.EmptyAt constants code target) (before : p < code.length)
    (inside : target ≤ code.length) (short : code.length < 2 ^ 31) :
    setting.Lands constants code p (branchTo target p) := by
  rintro test offset ⟨⟩
  have exact : (Int32.ofInt ((target : Int) - p - 1)).toInt = (target : Int) - p - 1 :=
    Int32.toInt_ofInt_of_le (by omega) (by omega)
  exact ⟨next, target, inside, by rw [exact]; omega, further⟩

/-- The stack is empty where the parts of a conditional begin, and at its end. -/
structure ChoiceAt (setting : Setting) (constants : List Constant) (code : List Instruction)
    (test : Expr) (yes no : Stmt) (base : Nat) (rest : List Constant) : Prop where
  atSkip : setting.At constants code (base + test.code.length + 1) []
    (yes.constants ++ (no.constants ++ rest))
  atYes : setting.At constants code (base + test.code.length + 1 + 1) []
    (yes.constants ++ (no.constants ++ rest))
  atSkipNo : setting.At constants code (base + test.code.length + 1 + 1 + yes.size) []
    (no.constants ++ rest)
  atNo : setting.At constants code (base + test.code.length + 1 + 1 + yes.size + 1) []
    (no.constants ++ rest)
  atEnd : setting.At constants code (base + test.code.length + 1 + 1 + yes.size + 1 + no.size) []
    rest

/-- The stack is empty where the parts of a loop begin, and at its end. -/
structure LoopAt (setting : Setting) (constants : List Constant) (code : List Instruction)
    (test : Expr) (body : Stmt) (base : Nat) (rest : List Constant) : Prop where
  atTest : setting.At constants code (base + 1) [] (test.constants ++ (body.constants ++ rest))
  atLeave : setting.At constants code (base + 1 + test.code.length + 1) [] (body.constants ++ rest)
  atBody : setting.At constants code (base + 1 + test.code.length + 1 + 1) []
    (body.constants ++ rest)
  atEnd : setting.At constants code (base + 1 + test.code.length + 1 + 1 + body.size + 1) [] rest

end Setting

/-- A conditional is gone through part by part. -/
theorem Stmt.Typed.choiceAt {setting : Setting} {constants rest : List Constant}
    {code : List Instruction} {test : Expr} {yes no : Stmt} {base : Nat}
    (typed : (Stmt.conditional test yes no).Typed setting) (small : setting.Small)
    {onJump : Jump → Nat → Instruction}
    (jumps : ∀ jump site, ∃ offset, onJump jump site = .branch .always offset)
    (holds : Holds code base ((Stmt.conditional test yes no).assembled onJump base))
    (reached : setting.At constants code base []
      ((Stmt.conditional test yes no).constants ++ rest)) :
    setting.ChoiceAt constants code test yes no base rest := by
  obtain ⟨typed, valued, typedYes, typedNo⟩ := typed
  simp only [Stmt.assembled, holds_append, holds_cons, Stmt.assembled_length, Stmt.constants,
    List.append_assoc] at holds reached
  obtain ⟨ofTest, branch, skipYes, ofYes, skipNo, ofNo⟩ := holds
  have atChoice := reached.through ofTest (typed.flow small _ _)
  have atSkip := atChoice.step branch (Setting.advance?_test valued _ _ _)
  have atYes := atSkip.step skipYes (Setting.advance?_branchTo _ _ _ _)
  have atSkipNo := atYes.through ofYes (Stmt.Typed.flow typedYes small jumps _ _)
  rw [Stmt.assembled_length] at atSkipNo
  have atNo := atSkipNo.step skipNo (Setting.advance?_branchTo _ _ _ _)
  have atEnd := atNo.through ofNo (Stmt.Typed.flow typedNo small jumps _ _)
  rw [Stmt.assembled_length] at atEnd
  exact ⟨atSkip, atYes, atSkipNo, atNo, atEnd⟩

/-- A loop is gone through part by part, once. -/
theorem Stmt.Typed.loopAt {setting : Setting} {constants rest : List Constant}
    {code : List Instruction} {test : Expr} {body : Stmt} {base : Nat}
    (typed : (Stmt.iteration test body).Typed setting) (small : setting.Small)
    {onJump : Jump → Nat → Instruction}
    (holds : Holds code base ((Stmt.iteration test body).assembled onJump base))
    (reached : setting.At constants code base [] ((Stmt.iteration test body).constants ++ rest)) :
    setting.LoopAt constants code test body base rest := by
  obtain ⟨typed, valued, typedBody⟩ := typed
  simp only [Stmt.assembled, holds_append, holds_cons, Stmt.assembled_length, Stmt.constants,
    List.append_assoc] at holds reached
  obtain ⟨enter, ofTest, branch, leave, ofBody, back, _⟩ := holds
  have atTest := reached.step enter (Setting.advance?_branchTo _ _ _ _)
  have atChoice := atTest.through ofTest (typed.flow small _ _)
  have atLeave := atChoice.step branch (Setting.advance?_test valued _ _ _)
  have atBody := atLeave.step leave (Setting.advance?_branchTo _ _ _ _)
  have atBack := atBody.through ofBody
    (Stmt.Typed.flow typedBody small (loopBranch_always _ _) _ _)
  rw [Stmt.assembled_length] at atBack
  exact ⟨atTest, atLeave, atBody, atBack.step back (Setting.advance?_branchTo _ _ _ _)⟩

/-- All branches in the code of a statement have an empty stack after them and where they lead, if
the jumps to the loop around the statement lead to an empty stack. -/
theorem Stmt.Typed.lands {setting : Setting} {constants : List Constant} {code : List Instruction}
    {stmt : Stmt} (typed : stmt.Typed setting) (small : setting.Small)
    (short : code.length < 2 ^ 31) {onJump : Jump → Nat → Instruction}
    (jumps : ∀ jump site, ∃ offset, onJump jump site = .branch .always offset) {base : Nat}
    {rest : List Constant} (holds : Holds code base (stmt.assembled onJump base))
    (room : base + stmt.size ≤ code.length)
    (reached : setting.At constants code base [] (stmt.constants ++ rest))
    (targets : ∀ jump, ∀ site ∈ stmt.sites jump base, ∃ target ≤ code.length,
      onJump jump site = branchTo target site ∧ setting.EmptyAt constants code target) :
    Everywhere (setting.Lands constants code) base (stmt.assembled onJump base) := by
  induction stmt generalizing onJump base rest with
  | skip | empty => exact everywhere_nil
  | seq first second ihFirst ihSecond =>
    simp only [Stmt.assembled, holds_append, everywhere_append, Stmt.assembled_length, Stmt.size,
      Stmt.constants, List.append_assoc, Stmt.sites, List.mem_append] at *
    have middle := reached.through holds.1 (Stmt.Typed.flow typed.1 small jumps base _)
    rw [Stmt.assembled_length] at middle
    exact ⟨ihFirst typed.1 jumps holds.1 (by omega) reached fun jump site member =>
        targets jump site (.inl member),
      ihSecond typed.2 jumps holds.2 (by omega) middle fun jump site member =>
        targets jump site (.inr member)⟩
  | declare symbol value => exact Setting.lands_straight base (declareCode_straight symbol value)
  | evaluate e => exact Setting.lands_straight base (evaluateCode_straight e)
  | block body ih => exact ih typed jumps holds room reached targets
  | conditional test yes no ihYes ihNo =>
    have parts := Stmt.Typed.choiceAt typed small jumps holds reached
    obtain ⟨_, _, typedYes, typedNo⟩ := typed
    simp only [Stmt.assembled, holds_append, holds_cons, everywhere_append, everywhere_cons,
      Stmt.assembled_length, Stmt.size, Stmt.sites, List.mem_append] at *
    obtain ⟨_, _, _, ofYes, _, ofNo⟩ := holds
    refine ⟨Setting.lands_straight _ test.code_straight,
      Setting.lands_test ⟨_, parts.atSkip⟩ ⟨_, parts.atYes⟩ (by omega),
      Setting.lands_branchTo ⟨_, parts.atYes⟩ ⟨_, parts.atNo⟩ (by omega) (by omega) short, ?_,
      Setting.lands_branchTo ⟨_, parts.atNo⟩ ⟨_, parts.atEnd⟩ (by omega) (by omega) short, ?_⟩
    · exact ihYes typedYes jumps ofYes (by omega) parts.atYes fun jump site member =>
        targets jump site (.inl member)
    · exact ihNo typedNo jumps ofNo (by omega) parts.atNo fun jump site member =>
        targets jump site (.inr member)
  | iteration test body ih =>
    have parts := Stmt.Typed.loopAt typed small holds reached
    simp only [Stmt.assembled, holds_append, holds_cons, everywhere_append, everywhere_cons,
      Stmt.assembled_length, Stmt.size] at *
    obtain ⟨_, _, _, _, ofBody, _⟩ := holds
    refine ⟨Setting.lands_branchTo ⟨_, parts.atTest⟩ ⟨_, parts.atTest⟩ (by omega) (by omega) short,
      Setting.lands_straight _ test.code_straight,
      Setting.lands_test ⟨_, parts.atLeave⟩ ⟨_, parts.atBody⟩ (by omega),
      Setting.lands_branchTo ⟨_, parts.atBody⟩ ⟨_, parts.atEnd⟩ (by omega) (by omega) short, ?_,
      Setting.lands_branchTo ⟨_, parts.atEnd⟩ ⟨_, parts.atTest⟩ (by omega) (by omega) short,
      everywhere_nil⟩
    -- The jumps of the body lead to the end of this loop or to its test.
    refine ih typed.2.2 (loopBranch_always _ _) ofBody (by omega) parts.atBody
      fun jump site member => ?_
    cases jump with
    | leave => exact ⟨_, by omega, rfl, _, parts.atEnd⟩
    | again => exact ⟨_, by omega, rfl, _, parts.atTest⟩
  | leave =>
    obtain ⟨target, inside, jump, empty⟩ := targets .leave base (by simp [Stmt.sites])
    simp only [Stmt.assembled, holds_cons, everywhere_cons, jump] at holds ⊢
    have next := reached.step holds.1 (Setting.advance?_branchTo _ _ _ _)
    exact ⟨Setting.lands_branchTo ⟨_, next⟩ empty room inside short, everywhere_nil⟩
  | again =>
    obtain ⟨target, inside, jump, empty⟩ := targets .again base (by simp [Stmt.sites])
    simp only [Stmt.assembled, holds_cons, everywhere_cons, jump] at holds ⊢
    have next := reached.step holds.1 (Setting.advance?_branchTo _ _ _ _)
    exact ⟨Setting.lands_branchTo ⟨_, next⟩ empty room inside short, everywhere_nil⟩
  | giveBack value =>
    simp only [Stmt.assembled, returnCode_eq, everywhere_append, everywhere_cons]
    refine ⟨Setting.lands_straight base (returnedCode_straight value), ?_, everywhere_nil⟩
    rintro test offset ⟨⟩

/-- Stacks for all positions of some code, with which every instruction finds what it needs and
leaves the stack of each position where the code can go on. A push pushes the literal whose turn it
is. -/
structure StackSafe (setting : Setting) (constants : List Constant) (code : List Instruction)
    (stackAt : Nat → List Cell) : Prop where
  start : stackAt 0 = []
  steps : ∀ (p : Nat) (instruction : Instruction), code[p]? = some instruction → ∃ after,
    instruction.effect? setting constants[(code.take p).countP Instruction.isPush]? (stackAt p) =
      some after ∧
    ∀ next ∈ instruction.successors p, ∃ q ≤ code.length, next = (q : Int) ∧ stackAt q = after

namespace Setting

variable {setting : Setting} {constants rest : List Constant} {code : List Instruction}
  {stack after : List Cell}

/-- The literals that are still to come are those that were not pushed. -/
theorem flow?_rest (flow : setting.flow? code (stack, constants) = some (after, rest)) :
    rest = constants.drop (code.countP Instruction.isPush) := by
  induction code generalizing stack constants with
  | nil =>
    cases flow
    rfl
  | cons first code ih =>
    obtain ⟨⟨middle, remaining⟩, step, flow⟩ := Option.bind_eq_some_iff.mp flow
    obtain ⟨_, _, same⟩ := Option.map_eq_some_iff.mp step
    obtain ⟨_, rfl⟩ := Prod.mk.inj same
    rw [ih flow, List.countP_cons]
    split <;> simp

/-- The stack before the instruction at a position, when the code before it is gone through without
regard to branches. -/
def stackAt (setting : Setting) (constants : List Constant) (code : List Instruction) (p : Nat) :
    List Cell :=
  ((setting.flow? (code.take p) ([], constants)).map Prod.fst).getD []

theorem At.stackAt_eq {p : Nat} (reached : setting.At constants code p stack rest) :
    setting.stackAt constants code p = stack := by
  rw [stackAt, reached]
  rfl

/-- Code that can be gone through without regard to branches, and whose branches land on empty
stacks, is safe. -/
theorem stackSafe (flow : setting.flow? code ([], constants) = some (after, rest))
    (lands : Everywhere (setting.Lands constants code) 0 code) :
    StackSafe setting constants code (setting.stackAt constants code) := by
  have reached (p : Nat) : ∃ rest,
      setting.At constants code p (setting.stackAt constants code p) rest := by
    rw [← List.take_append_drop p code, flow?_append] at flow
    obtain ⟨⟨stack, rest⟩, here, _⟩ := Option.bind_eq_some_iff.mp flow
    have there : setting.At constants code p stack rest := here
    exact ⟨rest, there.stackAt_eq.symm ▸ there⟩
  choose rests reached using reached
  have unique {p : Nat} (empty : setting.EmptyAt constants code p) :
      setting.stackAt constants code p = [] := by
    obtain ⟨rest, here⟩ := empty
    exact here.stackAt_eq
  refine ⟨unique ⟨constants, rfl⟩, fun p instruction here =>
    ⟨setting.stackAt constants code (p + 1), ?_, ?_⟩⟩
  · have before : setting.flow? (code.take p) ([], constants) =
        some (setting.stackAt constants code p, rests p) := reached p
    have next := reached (p + 1)
    rw [At, List.take_add_one, here, flow?_append, before, Option.bind_some] at next
    obtain ⟨last, step, same⟩ := Option.bind_eq_some_iff.mp next
    obtain ⟨stack, effect, rfl⟩ := Option.map_eq_some_iff.mp step
    obtain ⟨stays, _⟩ := Prod.mk.inj (Option.some.inj same)
    rw [← List.head?_drop, ← flow?_rest before, ← stays]
    exact effect
  · intro next member
    have inside : p < code.length := (List.getElem?_eq_some_iff.mp here).1
    by_cases straight : instruction.isStraight = true
    · rw [instruction.successors_eq _ straight, List.mem_singleton] at member
      exact ⟨p + 1, inside, member, rfl⟩
    · cases instruction with
      | branch test offset =>
        have landing := lands p _ here test offset rfl
        rw [Nat.zero_add] at landing
        obtain ⟨empty, target, bound, leads, there⟩ := landing
        have ends : next = p + 1 + offset.toInt ∨ next = p + 1 := by
          cases test <;> simp [Instruction.successors] at member <;> tauto
        rcases ends with rfl | rfl
        · exact ⟨target, bound, leads, (unique there).trans (unique empty).symm⟩
        · exact ⟨p + 1, inside, rfl, rfl⟩
      | plain op => cases op <;> simp_all [Instruction.isStraight, Instruction.successors]
      | _ => simp [Instruction.isStraight] at straight

end Setting

/-- In a source of less than 2^30 bytes all operands are exact. -/
theorem analyze_small {source : String} {options : Options} {checked : CheckedProgram}
    {definition : Definition} (accepted : analyze source options = .ok checked)
    (short : source.utf8ByteSize < 2 ^ 30) (member : definition ∈ checked.definitions) :
    (checked.setting definition).Small ∧ definition.routine.code.size < 2 ^ 31 ∧
      ∀ jump base, definition.body.sites jump base = [] := by
  obtain ⟨s, t, main, items, ⟨_, rfl⟩, _, rfl⟩ := analyze_reads accepted
  obtain ⟨u, v, before, reads, _⟩ := items.of_mem_definitions rfl member
  have settled := items.settled (.initial _)
  have paid : s.budget < 2 ^ 30 := Nat.lt_of_le_of_lt
    (Nat.le_trans items.budget_le (State.budget_ofSource source)) short
  have paid' : u.budget < 2 ^ 30 := Nat.lt_of_le_of_lt
    (Nat.le_trans before.budget_le (State.budget_ofSource source)) short
  obtain ⟨code, _, params, locals⟩ := reads.spends
  have entries := s.directory.size_register (.routine entryName)
  unfold State.budget at paid paid'
  refine ⟨⟨?_, ?_, ?_, ?_, ?_⟩, by omega, ?_⟩
  · have slots : definition.body.declarations.length = definition.frame.locals := by
      cases reads with
      | function head opening body closing frame =>
        have last := (body.slots (by simp [Definition.scope])).2
        rw [frame, closing.frame, last, opening.frame]
        simp [State.withoutLocals]
    simp only [CheckedProgram.setting, List.length_map, slots]
    have := State.budget u
    unfold State.budget at locals
    omega
  · have slots : definition.signature.returnSlots ≤ 1 := by
      unfold Signature.returnSlots
      cases definition.signature.returnType <;> simp [Ty.slots]
    simp only [CheckedProgram.setting, Signature.argumentTypes, List.length_append,
      List.length_replicate, List.length_map]
    omega
  · have count := settled.count
    simp only [CheckedProgram.setting, Analysis.checkedAt, List.length_map]
    change s.globalSymbols.length < 2 ^ 32
    omega
  · exact Nat.lt_of_le_of_lt entries (by omega)
  · intro signature among
    obtain ⟨other, known, rfl⟩ := List.mem_map.mp among
    have := settled.addressed other known
    omega
  · intro jump base
    cases reads with
    | function head opening body closing frame => exact body.no_sites rfl jump base

theorem openBranch_always (jump : Jump) (site : Nat) :
    ∃ offset, (fun _ _ => openBranch : Jump → Nat → Instruction) jump site =
      .branch .always offset :=
  ⟨0, rfl⟩

/-- The code of a function is safe with the stacks that it leaves when its branches are not
regarded. -/
theorem Definition.stackSafe {source : String} {options : Options} {checked : CheckedProgram}
    {definition : Definition} (accepted : analyze source options = .ok checked)
    (short : source.utf8ByteSize < 2 ^ 30) (member : definition ∈ checked.definitions) :
    StackSafe (checked.setting definition) definition.body.constants
      definition.routine.code.toList ((checked.setting definition).stackAt
        definition.body.constants definition.routine.code.toList) := by
  obtain ⟨small, bounded, outside⟩ := analyze_small accepted short member
  have typed := analyze_typed accepted member
  have flow := typed.flow small openBranch_always 0 []
  have start : (checked.setting definition).At definition.body.constants
      definition.routine.code.toList 0 [] (definition.body.constants ++ []) := by
    rw [List.append_nil]
    rfl
  have size : definition.routine.code.toList.length < 2 ^ 31 := by simpa using bounded
  obtain ⟨room, holds⟩ := definition.holds_body
  have inBody := typed.lands small size openBranch_always holds (by simpa using room) start
    (by simp [outside])
  rw [List.append_nil] at flow
  rcases Routine.ofBody?_code definition.laidOut with ⟨_, code⟩ | ⟨void, code⟩
  · rw [code] at inBody ⊢
    exact Setting.stackSafe flow inBody
  · rw [code] at inBody ⊢
    generalize definition.body.assembled (fun _ _ => openBranch) 0 = body at *
    have returns : (checked.setting definition).flow? (body ++ [.plain .ret])
        ([], definition.body.constants) = some ([], []) := by
      rw [Setting.flow?_append, flow]
      rfl
    refine Setting.stackSafe returns (everywhere_append.mpr ⟨inBody, everywhere_cons.mpr ⟨?_, ?_⟩⟩)
    · rintro test offset ⟨⟩
    · exact everywhere_nil

/-- The functions of a program have code that is safe for the operand stack. -/
theorem Definition.exists_stackSafe {source : String} {options : Options}
    {checked : CheckedProgram} {definition : Definition}
    (accepted : analyze source options = .ok checked) (short : source.utf8ByteSize < 2 ^ 30)
    (member : definition ∈ checked.definitions) :
    ∃ stackAt, StackSafe (checked.setting definition) definition.body.constants
      definition.routine.code.toList stackAt :=
  ⟨_, stackSafe accepted short member⟩

/-- A function with calls in arguments, a cast, a loop that is left, and code after its return. -/
theorem Definition.exists_stackSafe_calls : ∃ checked : CheckedProgram,
    ∃ definition ∈ checked.definitions,
    analyze ("let g: double = 1.5; fn f(x: int, y: double) -> double \x7b g = y; " ++
      "return g * (x as double); \x7d fn main() -> void \x7b let i: int = 3; while i > 0 \x7b " ++
      "if i == 2 \x7b break; putint(i); \x7d putdouble(f(i, f(-i, g))); i = i - 1; \x7d " ++
      "return; f(i, g); \x7d") {} = .ok checked ∧
    definition.routine.code.size = 53 ∧
    ∃ stackAt, StackSafe (checked.setting definition) definition.body.constants
      definition.routine.code.toList stackAt := by
  generalize text : "let g: double = 1.5; fn f(x: int, y: double) -> double \x7b g = y; " ++
      "return g * (x as double); \x7d fn main() -> void \x7b let i: int = 3; while i > 0 \x7b " ++
      "if i == 2 \x7b break; putint(i); \x7d putdouble(f(i, f(-i, g))); i = i - 1; \x7d " ++
      "return; f(i, g); \x7d" = source
  have short : source.utf8ByteSize < 2 ^ 30 := by
    subst text
    decide +kernel
  have sized : (match analyze source {} with
      | .ok checked => checked.definitions.any (·.routine.code.size == 53)
      | .error _ => false) = true := by
    subst text
    decide +kernel
  cases accepted : analyze source {} with
  | error fault => simp [accepted] at sized
  | ok checked =>
    simp only [accepted, List.any_eq_true, beq_iff_eq] at sized
    obtain ⟨definition, member, size⟩ := sized
    exact ⟨checked, definition, member, rfl, size, exists_stackSafe accepted short member⟩

end C0
