import C0.Proofs.StackSafety

namespace C0

mutual

/-- The slots that an expression takes the address of, in their order. -/
def Expr.places : Expr → List Place
  | .load source => [source.place]
  | .assign target value => target.place :: value.places
  | .call _ arguments => Expr.placesAll arguments
  | .group inner => inner.places
  | .cast _ _ operand => operand.places
  | .unary _ _ operand => operand.places
  | .binary _ _ left right => left.places ++ right.places
  | _ => []

/-- The slots that arguments take the address of, from the first argument on. -/
def Expr.placesAll : List Expr → List Place
  | [] => []
  | first :: rest => first.places ++ Expr.placesAll rest

end

/-- The slots that a statement takes the address of, in their order. A return takes that of the
first argument slot. -/
def Stmt.places : Stmt → List Place
  | seq first rest => first.places ++ rest.places
  | declare symbol (some value) => symbol.place :: value.places
  | evaluate e => e.places
  | block body => body.places
  | conditional test yes no => test.places ++ yes.places ++ no.places
  | iteration test body => test.places ++ body.places
  | giveBack none => [.argument 0]
  | giveBack (some value) => .argument 0 :: value.places
  | _ => []

/-- The slots whose addresses some code pushes, in their order. -/
def addresses (code : List Instruction) : List Place :=
  code.filterMap Instruction.place?

@[simp] theorem addresses_nil : addresses [] = [] :=
  rfl

@[simp] theorem addresses_append (first second : List Instruction) :
    addresses (first ++ second) = addresses first ++ addresses second :=
  List.filterMap_append

theorem addresses_cons (first : Instruction) (rest : List Instruction) :
    addresses (first :: rest) = first.place?.toList ++ addresses rest := by
  unfold addresses
  rw [List.filterMap_cons]
  cases first.place? <;> rfl

theorem addresses_store {setting : Setting} (small : setting.Small) {place : Place} {ty : Ty}
    (slot : setting.slotType? place = some ty) (code : List Instruction) :
    addresses (storeCode place code) = place :: addresses code := by
  have last : addresses [.plain .store64] = [] := rfl
  simp only [storeCode, List.cons_append, addresses_cons, addresses_append,
    Setting.place?_instruction small slot, last]
  simp

theorem addresses_cast (source target : Ty) : addresses (castCode source target) = [] := by
  cases source <;> cases target <;> rfl

theorem addresses_operator (op : Operator) (ty : Ty) :
    addresses ((op.instructions? ty).getD []) = [] := by
  cases op <;> cases ty <;> rfl

theorem addresses_codeAll {values : List Expr}
    (exact : ∀ e ∈ values, addresses e.code = e.places) :
    addresses (Expr.codeAll values) = Expr.placesAll values := by
  induction values with
  | nil => rfl
  | cons first values ih =>
    rw [List.forall_mem_cons] at exact
    rw [Expr.codeAll, Expr.placesAll, addresses_append, exact.1, ih exact.2]

theorem addresses_call (callee : Callee) (code : List Instruction) :
    addresses (.indexed .stackalloc (UInt32.ofNat callee.returnType.slots) ::
      code ++ [callee.instruction]) = addresses code := by
  have last : addresses [callee.instruction] = [] := by cases callee <;> rfl
  rw [List.cons_append, addresses_cons, addresses_append, last]
  simp [Instruction.place?]

/-- The code of an expression pushes the addresses that the expression takes. -/
theorem Expr.Typed.addresses_eq {setting : Setting} {e : Expr} (typed : e.Typed setting)
    (small : setting.Small) : addresses e.code = e.places := by
  induction typed with
  | int | double | char | text => rfl
  | load slot _ =>
    have last : addresses [.plain .load64] = [] := rfl
    rw [Expr.code, addresses_cons, Setting.place?_instruction small slot, last]
    rfl
  | assign slot _ _ _ ih => rw [Expr.code, addresses_store small slot, ih, Expr.places]
  | call _ _ _ ih | library _ _ _ _ ih =>
    rw [Expr.code, addresses_call, addresses_codeAll ih, Expr.places]
  | group _ ih => rw [Expr.code, ih, Expr.places]
  | cast _ _ _ ih => rw [Expr.code, addresses_append, addresses_cast, ih, Expr.places, List.append_nil]
  | negate _ _ ih =>
    rw [Expr.code, addresses_append, addresses_operator, ih, Expr.places, List.append_nil]
  | binary _ _ _ _ _ ihLeft ihRight =>
    rw [Expr.code, addresses_append, addresses_append, addresses_operator, ihLeft, ihRight,
      Expr.places, List.append_nil]

/-- The code of a statement pushes the addresses that the statement takes. -/
theorem Stmt.Typed.addresses_eq {setting : Setting} {stmt : Stmt} (typed : stmt.Typed setting)
    (small : setting.Small) {onJump : Jump → Nat → Instruction}
    (jumps : ∀ jump site, (onJump jump site).place? = none) (base : Nat) :
    addresses (stmt.assembled onJump base) = stmt.places := by
  induction stmt generalizing onJump base with
  | skip | empty => rfl
  | seq first rest ihFirst ihRest =>
    rw [Stmt.assembled, addresses_append, ihFirst typed.1 jumps, ihRest typed.2 jumps, Stmt.places]
  | declare symbol value =>
    cases value with
    | none => rfl
    | some value =>
      rw [Stmt.assembled, declareCode, addresses_store small typed.1, typed.2.2.1.addresses_eq small,
        Stmt.places]
  | evaluate e =>
    have last : addresses (if e.ty = .void then [] else [.indexed .popn 1]) = [] := by
      split <;> rfl
    rw [Stmt.assembled, evaluateCode, addresses_append, Expr.Typed.addresses_eq typed small, last,
      Stmt.places, List.append_nil]
  | block body ih => exact ih typed jumps base
  | conditional test yes no ihYes ihNo =>
    simp only [Stmt.assembled, Stmt.places, addresses_append, addresses_cons, Instruction.place?,
      branchTo, typed.1.addresses_eq small, ihYes typed.2.2.1 jumps, ihNo typed.2.2.2 jumps,
      Option.toList_none, List.nil_append, List.append_assoc]
  | iteration test body ih =>
    have inLoop (after recheck : Nat) (jump : Jump) (site : Nat) :
        (loopBranch after recheck jump site).place? = none := by
      cases jump <;> rfl
    simp only [Stmt.assembled, Stmt.places, addresses_append, addresses_cons, Instruction.place?,
      branchTo, typed.1.addresses_eq small, ih typed.2.2 (inLoop _ _), addresses_nil,
      Option.toList_none, List.nil_append, List.append_nil]
  | leave | again => simp [Stmt.assembled, Stmt.places, addresses_cons, jumps]
  | giveBack value =>
    cases value with
    | none => rfl
    | some value =>
      have last : addresses [.plain .store64, .plain .ret] = [] := rfl
      rw [Stmt.assembled, returnCode, List.cons_append, addresses_cons, addresses_append, last,
        typed.1.addresses_eq small, Stmt.places, List.append_nil]
      rfl

/-- The code of a function pushes the addresses that its body takes. -/
theorem Definition.addresses_eq {source : String} {options : Options} {checked : CheckedProgram}
    {definition : Definition} (accepted : analyze source options = .ok checked)
    (short : source.utf8ByteSize < 2 ^ 30) (member : definition ∈ checked.definitions) :
    addresses definition.routine.code.toList = definition.body.places := by
  have exact := (analyze_typed accepted member).addresses_eq (analyze_small accepted short member).1
    (fun _ _ => rfl : ∀ jump site, ((fun _ _ => openBranch : Jump → Nat → Instruction) jump
      site).place? = none) 0
  rcases Routine.ofBody?_code definition.laidOut with ⟨_, code⟩ | ⟨_, code⟩
  · rw [code, exact]
  · have last : addresses [.plain .ret] = [] := rfl
    rw [code, addresses_append, exact, last, List.append_nil]

end C0
