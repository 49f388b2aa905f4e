import C0.Proofs.StackSafety

namespace C0

mutual

/-- The slots that an expression gives values to, in the order of the stores. -/
def Expr.targets : Expr → List Place
  | .assign target value => value.targets ++ [target.place]
  | .call _ arguments => Expr.targetsAll arguments
  | .group inner => inner.targets
  | .cast _ _ operand => operand.targets
  | .unary _ _ operand => operand.targets
  | .binary _ _ left right => left.targets ++ right.targets
  | _ => []

/-- The slots that arguments give values to, from the first argument on. -/
def Expr.targetsAll : List Expr → List Place
  | [] => []
  | first :: rest => first.targets ++ Expr.targetsAll rest

end

/-- The slots that a statement gives values to, in the order of the stores. A return gives its value
to the first argument slot. -/
def Stmt.targets : Stmt → List Place
  | seq first rest => first.targets ++ rest.targets
  | declare symbol (some value) => value.targets ++ [symbol.place]
  | evaluate e => e.targets
  | block body => body.targets
  | conditional test yes no => test.targets ++ yes.targets ++ no.targets
  | iteration test body => test.targets ++ body.targets
  | giveBack (some value) => value.targets ++ [.argument 0]
  | _ => []

/-- The slot that an instruction stores to: the one whose address lies under the value. -/
def Instruction.target? : Instruction → List Cell → Option Place
  | .plain .store64, _ :: .address place :: _ => some place
  | _, _ => none

/-- The slots that the stores of some code write to, by the stacks before the instructions. -/
def written (stackAt : Nat → List Cell) : Nat → List Instruction → List Place
  | _, [] => []
  | base, first :: rest => (first.target? (stackAt base)).toList ++ written stackAt (base + 1) rest

section

variable {stackAt : Nat → List Cell}

@[simp] theorem written_append (base : Nat) (first second : List Instruction) :
    written stackAt base (first ++ second) =
      written stackAt base first ++ written stackAt (base + first.length) second := by
  induction first generalizing base with
  | nil => rfl
  | cons head tail ih =>
    simp only [List.cons_append, written, ih, List.append_assoc, List.length_cons, Nat.add_assoc,
      Nat.add_comm 1]

/-- Whether an instruction stores a value. -/
def Instruction.isStore (instruction : Instruction) : Bool :=
  instruction == .plain .store64

theorem Instruction.target?_eq_none {instruction : Instruction} (other : instruction.isStore = false)
    (stack : List Cell) : instruction.target? stack = none := by
  unfold target?
  split
  · simp [isStore] at other
  · rfl

/-- Code without stores writes nothing. -/
theorem written_eq_nil (base : Nat) {code : List Instruction}
    (none : code.all (!·.isStore) = true) : written stackAt base code = [] := by
  induction code generalizing base with
  | nil => rfl
  | cons first rest ih =>
    simp only [List.all_cons, Bool.and_eq_true, Bool.not_eq_true'] at none
    rw [written, Instruction.target?_eq_none none.1, ih _ none.2]
    rfl

/-- A store that finds what it needs has a slot to store to. -/
theorem Instruction.target?_of_effect? {setting : Setting} {constant? : Option Constant}
    {stack after : List Cell}
    (effect : (Instruction.plain .store64).effect? setting constant? stack = some after) :
    ((Instruction.plain .store64).target? stack).isSome = true := by
  simp only [effect?] at effect
  split at effect
  · rfl
  · cases effect

/-- Where each store finds a slot to store to, there is one slot for each store. -/
theorem length_written {base : Nat} {code : List Instruction}
    (paired : Everywhere (fun p instruction => instruction.isStore = true →
      (instruction.target? (stackAt p)).isSome = true) base code) :
    (written stackAt base code).length = code.countP Instruction.isStore := by
  induction code generalizing base with
  | nil => rfl
  | cons first rest ih =>
    rw [everywhere_cons] at paired
    have one : (first.target? (stackAt base)).toList.length = if first.isStore then 1 else 0 := by
      cases store : first.isStore with
      | false => rw [Instruction.target?_eq_none store]; rfl
      | true =>
        obtain ⟨place, found⟩ := Option.isSome_iff_exists.mp (paired.1 store)
        rw [found]
        rfl
    rw [written, List.length_append, ih paired.2, one, List.countP_cons, Nat.add_comm]

theorem written_cons {first : Instruction} (other : first.isStore = false) (base : Nat)
    (rest : List Instruction) :
    written stackAt base (first :: rest) = written stackAt (base + 1) rest := by
  rw [written, Instruction.target?_eq_none other]
  rfl

end

namespace Setting

variable {setting : Setting} {constants rest : List Constant} {code piece : List Instruction}
  {stack : List Cell} {base p : Nat}

theorem written_store (small : setting.Small) {place : Place} {ty : Ty}
    (slot : setting.slotType? place = some ty) (valued : ty ≠ .void) {more : List Constant}
    (reached : setting.At constants code base stack (more ++ rest))
    (holds : Holds code base (storeCode place piece))
    (flow : ∀ stack rest, setting.flow? piece (stack, more ++ rest) =
      some (ty.cells ++ stack, rest)) :
    written (setting.stackAt constants code) base (storeCode place piece) =
      written (setting.stackAt constants code) (base + 1) piece ++ [place] := by
  simp only [storeCode, List.cons_append, holds_cons, holds_append] at holds
  have pushed := reached.step holds.1 (advance?_place small slot _ _)
  have last := (pushed.through holds.2.1 (flow _ _)).stackAt_eq
  have other : place.instruction.isStore = false := by cases place <;> rfl
  have stored : written (setting.stackAt constants code) (base + 1 + piece.length)
      [.plain .store64] = [place] := by
    rw [written, last]
    cases ty with
    | void => exact absurd rfl valued
    | _ => rfl
  rw [storeCode, List.cons_append, written_cons other, written_append, stored]

theorem castCode_stores (source target : Ty) : (castCode source target).all (!·.isStore) = true := by
  cases source <;> cases target <;> rfl

theorem operator_stores (op : Operator) (ty : Ty) :
    ((op.instructions? ty).getD []).all (!·.isStore) = true := by
  cases op <;> cases ty <;> rfl

theorem written_codeAll {values : List Expr} (small : setting.Small)
    (typed : ∀ e ∈ values, e.Typed setting)
    (exact : ∀ e ∈ values, ∀ base stack rest,
      setting.At constants code base stack (e.constants ++ rest) → Holds code base e.code →
      written (setting.stackAt constants code) base e.code = e.targets)
    (reached : setting.At constants code base stack (Expr.constantsAll values ++ rest))
    (holds : Holds code base (Expr.codeAll values)) :
    written (setting.stackAt constants code) base (Expr.codeAll values) =
      Expr.targetsAll values := by
  induction values generalizing base stack with
  | nil => rfl
  | cons first values ih =>
    rw [List.forall_mem_cons] at typed exact
    simp only [Expr.codeAll, holds_append, Expr.constantsAll, List.append_assoc] at holds reached ⊢
    have next := reached.through holds.1 (typed.1.flow small _ _)
    rw [written_append, exact.1 base stack _ reached holds.1, ih typed.2 exact.2 next holds.2,
      Expr.targetsAll]

theorem written_call {callee : Callee} (base : Nat) (piece : List Instruction)
    {stackAt : Nat → List Cell} :
    written stackAt base (.indexed .stackalloc (UInt32.ofNat callee.returnType.slots) ::
      piece ++ [callee.instruction]) = written stackAt (base + 1) piece := by
  have last : callee.instruction.isStore = false := by cases callee <;> rfl
  rw [List.cons_append, written_cons rfl, written_append, written_cons last]
  exact List.append_nil _

end Setting

/-- The code of an expression stores to the slots that the expression gives values to. -/
theorem Expr.Typed.written_eq {setting : Setting} {e : Expr} (typed : e.Typed setting)
    (small : setting.Small) {constants rest : List Constant} {code : List Instruction}
    {stack : List Cell} {base : Nat}
    (reached : setting.At constants code base stack (e.constants ++ rest))
    (holds : Holds code base e.code) :
    written (setting.stackAt constants code) base e.code = e.targets := by
  induction typed generalizing base stack rest with
  | int | double | char | text => rfl
  | @load v slot _ =>
    have quiet : [v.place.instruction, .plain .load64].all (!·.isStore) = true := by
      cases v.place <;> rfl
    exact written_eq_nil base quiet
  | assign slot valued typed same ih =>
    rw [← same] at slot valued
    have stored := Setting.written_store small slot valued reached holds (typed.flow small)
    simp only [Expr.code, storeCode, List.cons_append, holds_cons, holds_append] at holds
    have pushed := reached.step holds.1 (Setting.advance?_place small slot _ _)
    rw [Expr.code, stored, ih pushed holds.2.1, Expr.targets]
  | call found typed _ ih | library found typed _ _ ih =>
    simp only [Expr.code, List.cons_append, holds_cons, holds_append] at holds
    have reserved := reached.step holds.1 (Setting.advance?_reserve _ _ _)
    rw [Expr.code, Setting.written_call, Expr.targets]
    exact Setting.written_codeAll small typed (fun e member _ _ _ => ih e member) reserved holds.2.1
  | group _ ih => exact ih reached holds
  | cast _ _ _ ih =>
    rw [Expr.code, holds_append] at holds
    rw [Expr.code, written_append, ih reached holds.1,
      written_eq_nil _ (Setting.castCode_stores _ _), Expr.targets, List.append_nil]
  | negate _ _ ih =>
    rw [Expr.code, holds_append] at holds
    rw [Expr.code, written_append, ih reached holds.1,
      written_eq_nil _ (Setting.operator_stores _ _), Expr.targets, List.append_nil]
  | binary _ left _ _ _ ihLeft ihRight =>
    simp only [Expr.constants, List.append_assoc] at reached
    simp only [Expr.code, holds_append] at holds
    have next := reached.through holds.1.1 (left.flow small _ _)
    rw [Expr.code, written_append, written_append, ihLeft reached holds.1.1,
      ihRight next holds.1.2, written_eq_nil _ (Setting.operator_stores _ _), Expr.targets,
      List.append_nil]

/-- The code of a return stores a value that is returned to the first argument slot. -/
theorem Setting.written_return {setting : Setting} {value : Option Expr}
    (typed : (Stmt.giveBack value).Typed setting) (small : setting.Small)
    {constants rest : List Constant} {code : List Instruction} {base : Nat}
    (reached : setting.At constants code base [] ((Stmt.giveBack value).constants ++ rest))
    (holds : Holds code base (returnCode value)) :
    written (setting.stackAt constants code) base (returnCode value) =
      (Stmt.giveBack value).targets := by
  cases value with
  | none => rfl
  | some value =>
    have slot := Setting.slotType?_returned typed
    obtain ⟨typed, same, valued⟩ := typed
    have split : returnCode (some value) = storeCode (.argument 0) value.code ++ [.plain .ret] := by
      simp only [returnCode, storeCode, List.cons_append, List.append_assoc, List.nil_append]
      rfl
    rw [split, holds_append] at holds
    have stored := written_store small slot valued reached holds.1 (typed.flow small)
    simp only [storeCode, List.cons_append, holds_cons, holds_append] at holds
    have pushed := reached.step holds.1.1 (advance?_place small slot _ _)
    rw [split, written_append, stored, typed.written_eq small pushed holds.1.2.1,
      written_cons rfl, Stmt.targets]
    exact List.append_nil _

/-- The code of a statement stores to the slots that the statement gives values to. -/
theorem Stmt.Typed.written_eq {setting : Setting} {stmt : Stmt} (typed : stmt.Typed setting)
    (small : setting.Small) {onJump : Jump → Nat → Instruction}
    (jumps : ∀ jump site, ∃ offset, onJump jump site = .branch .always offset)
    {constants rest : List Constant} {code : List Instruction} {base : Nat}
    (reached : setting.At constants code base [] (stmt.constants ++ rest))
    (holds : Holds code base (stmt.assembled onJump base)) :
    written (setting.stackAt constants code) base (stmt.assembled onJump base) = stmt.targets := by
  induction stmt generalizing onJump base rest with
  | skip | empty => rfl
  | seq first second ihFirst ihSecond =>
    simp only [Stmt.assembled, holds_append, Stmt.assembled_length, Stmt.constants,
      List.append_assoc] at holds reached
    have middle := reached.through holds.1 (Stmt.Typed.flow typed.1 small jumps base _)
    rw [Stmt.assembled_length] at middle
    rw [Stmt.assembled, written_append, Stmt.assembled_length,
      ihFirst typed.1 jumps reached holds.1, ihSecond typed.2 jumps middle holds.2, Stmt.targets]
  | declare symbol value =>
    cases value with
    | none => rfl
    | some value =>
      obtain ⟨slot, valued, typed, same⟩ := typed
      rw [← same] at slot valued
      have stored := Setting.written_store small slot valued reached holds (typed.flow small)
      simp only [Stmt.assembled, declareCode, storeCode, List.cons_append, holds_cons,
        holds_append] at holds
      have pushed := reached.step holds.1 (Setting.advance?_place small slot _ _)
      rw [Stmt.assembled, declareCode, stored, typed.written_eq small pushed holds.2.1, Stmt.targets]
  | evaluate e =>
    simp only [Stmt.assembled, evaluateCode, holds_append] at holds
    have quiet : (if e.ty = .void then [] else [.indexed .popn 1] : List Instruction).all
        (!·.isStore) = true := by
      split <;> rfl
    rw [Stmt.assembled, evaluateCode, written_append,
      Expr.Typed.written_eq typed small reached holds.1, written_eq_nil _ quiet, List.append_nil,
      Stmt.targets]
  | block body ih => exact ih typed jumps reached holds
  | conditional test yes no ihYes ihNo =>
    have parts := Stmt.Typed.choiceAt typed small jumps holds reached
    obtain ⟨typed, _, typedYes, typedNo⟩ := typed
    simp only [Stmt.assembled, holds_append, holds_cons, Stmt.assembled_length, Stmt.constants,
      List.append_assoc] at holds reached
    obtain ⟨ofTest, _, _, ofYes, _, ofNo⟩ := holds
    simp only [Stmt.assembled, written_append, Stmt.targets, List.append_assoc]
    rw [typed.written_eq small reached ofTest, written_cons rfl, written_cons rfl, written_append,
      ihYes typedYes jumps parts.atYes ofYes, written_cons rfl, Stmt.assembled_length,
      ihNo typedNo jumps parts.atNo ofNo]
  | iteration test body ih =>
    have parts := Stmt.Typed.loopAt typed small holds reached
    obtain ⟨typed, _, typedBody⟩ := typed
    simp only [Stmt.assembled, holds_append, holds_cons, Stmt.assembled_length] at holds
    obtain ⟨_, ofTest, _, _, ofBody, _⟩ := holds
    simp only [Stmt.assembled, Stmt.targets]
    rw [written_cons rfl, written_append, typed.written_eq small parts.atTest ofTest,
      written_cons rfl, written_cons rfl, written_append,
      ih typedBody (loopBranch_always _ _) parts.atBody ofBody, written_cons rfl]
    simp [written]
  | leave =>
    obtain ⟨offset, jump⟩ := jumps .leave base
    simp only [Stmt.assembled, jump]
    rfl
  | again =>
    obtain ⟨offset, jump⟩ := jumps .again base
    simp only [Stmt.assembled, jump]
    rfl
  | giveBack value => exact Setting.written_return typed small reached holds

end C0
