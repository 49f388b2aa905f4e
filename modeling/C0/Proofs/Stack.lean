import C0.Proofs.Simulation
import C0.Proofs.Typing

namespace C0

/-- What a slot of the operand stack holds. -/
inductive Cell where
  | int
  | double
  /-- A slot that is reserved for a returned value. -/
  | hole
  | address (place : Place)
  deriving DecidableEq, Repr

/-- The cell of a value of a type. -/
def Ty.cell? : Ty → Option Cell
  | int => some .int
  | double => some .double
  | void => none

/-- The cells that a value of a type takes. -/
def Ty.cells (ty : Ty) : List Cell :=
  ty.cell?.toList

/-- A literal as code pushes it. -/
structure Constant where
  word : UInt64
  ty : Ty
  deriving DecidableEq, Repr

mutual

/-- The literals in an expression, in their order. -/
def Expr.constants : Expr → List Constant
  | .int word => [⟨word, .int⟩]
  | .double bits => [⟨bits, .double⟩]
  | .char value => [⟨UInt64.ofNat value.toNat, .int⟩]
  | .text _ address => [⟨UInt64.ofNat address, .int⟩]
  | .load _ => []
  | .assign _ value => value.constants
  | .call _ arguments => Expr.constantsAll arguments
  | .group inner => inner.constants
  | .cast _ _ operand => operand.constants
  | .unary _ _ operand => operand.constants
  | .binary _ _ left right => left.constants ++ right.constants

/-- The literals in arguments, from the first argument on. -/
def Expr.constantsAll : List Expr → List Constant
  | [] => []
  | first :: rest => first.constants ++ Expr.constantsAll rest

end

/-- The literals in a statement, in their order. -/
def Stmt.constants : Stmt → List Constant
  | seq first rest => first.constants ++ rest.constants
  | declare _ (some value) => value.constants
  | evaluate e => e.constants
  | block body => body.constants
  | conditional test yes no => test.constants ++ yes.constants ++ no.constants
  | iteration test body => test.constants ++ body.constants
  | giveBack (some value) => value.constants
  | _ => []

/-- Takes some cells from the top of a stack and leaves others. -/
def exchange (takes leaves stack : List Cell) : Option (List Cell) :=
  if takes <+: stack then some (leaves ++ stack.drop takes.length) else none

@[simp] theorem exchange_append (takes leaves stack : List Cell) :
    exchange takes leaves (takes ++ stack) = some (leaves ++ stack) := by
  simp [exchange]

/-- The cells that an operation takes, the top one first, and those that it leaves. -/
def Op.cells? : Op → Option (List Cell × List Cell)
  | addI | subI | mulI | divI | cmpI => some ([.int, .int], [.int])
  | addF | subF | mulF | divF => some ([.double, .double], [.double])
  | cmpF => some ([.double, .double], [.int])
  | negI | setLt | setGt | not => some ([.int], [.int])
  | negF => some ([.double], [.double])
  | itof => some ([.int], [.double])
  | ftoi => some ([.double], [.int])
  | _ => none

/-- A stack without the value on its top. -/
def dropValue? : List Cell → Option (List Cell)
  | .int :: stack => some stack
  | .double :: stack => some stack
  | _ => none

/-- The effect of a call: the arguments in their order, above the slots that are reserved for the
returned value, are replaced by that value. -/
def callEffect? (arguments : List Ty) (returnType : Ty) (stack : List Cell) : Option (List Cell) :=
  exchange ((arguments.flatMap Ty.cells).reverse ++ List.replicate returnType.slots .hole)
    returnType.cells stack

/-- The stack after an instruction, if the instruction finds what it needs on the stack. For a push
it must be told which literal is pushed. A return may find the address of the first argument slot
left over in a function that returns nothing. -/
def Instruction.effect? (setting : Setting) (constant? : Option Constant) (stack : List Cell) :
    Instruction → Option (List Cell)
  | .push word =>
    match constant? with
    | some constant => if word = constant.word then constant.ty.cell?.map (· :: stack) else none
    | none => none
  | .plain .load64 =>
    match stack with
    | .address place :: rest => ((setting.slotType? place).bind Ty.cell?).map (· :: rest)
    | _ => none
  | .plain .store64 =>
    match stack with
    | value :: .address place :: rest =>
      if (setting.slotType? place).bind Ty.cell? = some value then some rest else none
    | _ => none
  | .plain .ret =>
    if stack = [] ∨
        setting.signature.returnType = .void ∧ stack = [.address (.argument 0)] then some []
    else none
  | .plain op => op.cells?.bind fun (takes, leaves) => exchange takes leaves stack
  | .indexed .loca slot => some (.address (.frame slot.toNat) :: stack)
  | .indexed .arga offset => some (.address (.argument offset.toNat) :: stack)
  | .indexed .globa slot => some (.address (.static slot.toNat) :: stack)
  | .indexed .stackalloc count => some (List.replicate count.toNat .hole ++ stack)
  | .indexed .popn count => if count = 1 then dropValue? stack else none
  | .indexed .call address => (setting.routineAt? address.toNat).bind fun signature =>
      callEffect? (signature.params.map Param.ty) signature.returnType stack
  | .indexed .callname address => (setting.libraryAt? address.toNat).bind fun function =>
      callEffect? function.argumentTypes function.returnType stack
  | .branch .always _ => some stack
  | .branch .onTrue _ => dropValue? stack
  | .branch .onFalse _ => none

/-- The slot whose address an instruction pushes. -/
def Instruction.place? : Instruction → Option Place
  | .indexed .loca slot => some (.frame slot.toNat)
  | .indexed .arga offset => some (.argument offset.toNat)
  | .indexed .globa slot => some (.static slot.toNat)
  | _ => none

/-- Whether an instruction pushes a literal. -/
def Instruction.isPush : Instruction → Bool
  | .push _ => true
  | _ => false

namespace Setting

/-- The stack and the literals that are still to come, after an instruction. -/
def advance? (setting : Setting) (before : List Cell × List Constant) (instruction : Instruction) :
    Option (List Cell × List Constant) :=
  (instruction.effect? setting before.2.head? before.1).map fun stack =>
    (stack, if instruction.isPush then before.2.tail else before.2)

/-- The stack and the literals that are still to come, after code without regard to branches. -/
def flow? (setting : Setting) (code : List Instruction) (before : List Cell × List Constant) :
    Option (List Cell × List Constant) :=
  code.foldlM setting.advance? before

/-- The operands of the code that can refer to a setting are exact. -/
structure Small (setting : Setting) : Prop where
  locals : setting.locals.length < 2 ^ 32
  arguments : setting.signature.argumentTypes.length < 2 ^ 32
  globals : setting.globals.length < 2 ^ 32
  entries : setting.directory.size < 2 ^ 32
  routines : ∀ signature ∈ setting.routines, signature.address < 2 ^ 32

variable {setting : Setting}

@[simp] theorem flow?_nil (before : List Cell × List Constant) :
    setting.flow? [] before = some before :=
  rfl

@[simp] theorem flow?_cons (first : Instruction) (rest : List Instruction)
    (before : List Cell × List Constant) :
    setting.flow? (first :: rest) before = (setting.advance? before first).bind (setting.flow? rest) :=
  rfl

@[simp] theorem flow?_append (first second : List Instruction)
    (before : List Cell × List Constant) :
    setting.flow? (first ++ second) before = (setting.flow? first before).bind (setting.flow? second) := by
  simp only [flow?, List.foldlM_append]
  rfl

/-- An instruction that is no push leaves the literals. -/
theorem advance?_eq {instruction : Instruction} {stack after : List Cell}
    {constants : List Constant} (other : instruction.isPush = false)
    (effect : instruction.effect? setting constants.head? stack = some after) :
    setting.advance? (stack, constants) instruction = some (after, constants) := by
  simp [advance?, effect, other]

theorem advance?_push {constant : Constant} (valued : constant.ty ≠ .void) (stack : List Cell)
    (rest : List Constant) :
    setting.advance? (stack, constant :: rest) (.push constant.word) =
      some (constant.ty.cells ++ stack, rest) := by
  obtain ⟨word, ty⟩ := constant
  cases ty with
  | void => exact absurd rfl valued
  | _ => simp [advance?, Instruction.effect?, Instruction.isPush, Ty.cells, Ty.cell?]

/-- The address of a slot that is there is exact. -/
theorem place?_instruction (small : setting.Small) {place : Place} {ty : Ty}
    (slot : setting.slotType? place = some ty) : place.instruction.place? = some place := by
  have exact {α : Type} {types : List α} {i : Nat} {a : α} (here : types[i]? = some a)
      (bound : types.length < 2 ^ 32) : (UInt32.ofNat i).toNat = i := by
    have inside := (List.getElem?_eq_some_iff.mp here).1
    exact UInt32.toNat_ofNat_of_lt (Nat.lt_trans inside bound)
  cases place with
  | frame i => simp only [Place.instruction, Instruction.place?, exact slot small.locals]
  | argument i => simp only [Place.instruction, Instruction.place?, exact slot small.arguments]
  | static i => simp only [Place.instruction, Instruction.place?, exact slot small.globals]

theorem advance?_place (small : setting.Small) {place : Place} {ty : Ty}
    (slot : setting.slotType? place = some ty) (stack : List Cell) (constants : List Constant) :
    setting.advance? (stack, constants) place.instruction =
      some (.address place :: stack, constants) := by
  have exact := place?_instruction small slot
  have other : place.instruction.isPush = false := by cases place <;> rfl
  refine advance?_eq other ?_
  cases place <;> exact congrArg (Option.map fun place => .address place :: stack) exact

theorem advance?_load {place : Place} {ty : Ty} (slot : setting.slotType? place = some ty)
    (valued : ty ≠ .void) (stack : List Cell) (constants : List Constant) :
    setting.advance? (.address place :: stack, constants) (.plain .load64) =
      some (ty.cells ++ stack, constants) := by
  refine advance?_eq rfl ?_
  cases ty with
  | void => exact absurd rfl valued
  | _ => simp [Instruction.effect?, slot, Ty.cells, Ty.cell?]

theorem advance?_store {place : Place} {ty : Ty} (slot : setting.slotType? place = some ty)
    (valued : ty ≠ .void) (stack : List Cell) (constants : List Constant) :
    setting.advance? (ty.cells ++ .address place :: stack, constants) (.plain .store64) =
      some (stack, constants) := by
  refine advance?_eq rfl ?_
  cases ty with
  | void => exact absurd rfl valued
  | _ => simp [Instruction.effect?, slot, Ty.cells, Ty.cell?]

/-- A value is stored in a slot of its type. -/
theorem flow?_store (small : setting.Small) {place : Place} {ty : Ty} {code : List Instruction}
    {constants : List Constant} (slot : setting.slotType? place = some ty) (valued : ty ≠ .void)
    (flow : ∀ stack rest, setting.flow? code (stack, constants ++ rest) =
      some (ty.cells ++ stack, rest)) (stack : List Cell) (rest : List Constant) :
    setting.flow? (storeCode place code) (stack, constants ++ rest) = some (stack, rest) := by
  simp only [storeCode, List.cons_append, flow?_cons, flow?_append, flow?_nil,
    advance?_place small slot, Option.bind_some, flow, advance?_store slot valued]

theorem flow?_cast {source target : Ty} (valued : source ≠ .void) (proper : target ≠ .void)
    (stack : List Cell) (rest : List Constant) :
    setting.flow? (castCode source target) (source.cells ++ stack, rest) =
      some (target.cells ++ stack, rest) := by
  cases source <;> cases target <;>
    first | exact absurd rfl valued | exact absurd rfl proper | rfl

theorem flow?_negate {ty : Ty} (valued : ty ≠ .void) (stack : List Cell) (rest : List Constant) :
    setting.flow? ((Operator.negate.instructions? ty).getD []) (ty.cells ++ stack, rest) =
      some ((Operator.negate.resultType ty).cells ++ stack, rest) := by
  cases ty <;> first | exact absurd rfl valued | rfl

theorem flow?_binary {kind : Kind} {op : Operator} (known : Operator.binary? kind = some op)
    {ty : Ty} (valued : ty ≠ .void) (stack : List Cell) (rest : List Constant) :
    setting.flow? ((op.instructions? ty).getD []) (ty.cells ++ (ty.cells ++ stack), rest) =
      some ((op.resultType ty).cells ++ stack, rest) := by
  have between : op ≠ .sentinel ∧ op ≠ .negate := by
    unfold Operator.binary? at known
    split at known <;> cases known <;> simp
  cases op with
  | sentinel => exact absurd rfl between.1
  | negate => exact absurd rfl between.2
  | _ => cases ty <;> first | exact absurd rfl valued | rfl

/-- A call finds its arguments above the slots that were reserved for the returned value. -/
theorem callEffect?_append (arguments : List Ty) (returnType : Ty) (stack : List Cell) :
    callEffect? arguments returnType ((arguments.flatMap Ty.cells).reverse ++
        (List.replicate returnType.slots .hole ++ stack)) =
      some (returnType.cells ++ stack) := by
  rw [callEffect?, ← List.append_assoc, exchange_append]

theorem advance?_reserve (ty : Ty) (stack : List Cell) (constants : List Constant) :
    setting.advance? (stack, constants) (.indexed .stackalloc (UInt32.ofNat ty.slots)) =
      some (List.replicate ty.slots .hole ++ stack, constants) := by
  cases ty <;> rfl

/-- The address of a function that is there is exact. -/
theorem toNat_routine (small : setting.Small) {signature : Signature}
    (found : setting.routineAt? signature.address = some signature) :
    (UInt32.ofNat signature.address).toNat = signature.address :=
  UInt32.toNat_ofNat_of_lt (small.routines signature (List.mem_of_find?_eq_some found))

/-- The address of an entry that is there is exact. -/
theorem toNat_entry (small : setting.Small) {address : Nat} {entry : Entry}
    (found : setting.directory.entries[address]? = some entry) :
    (UInt32.ofNat address).toNat = address ∧ (UInt64.ofNat address).toNat = address := by
  have inside : address < setting.directory.size := (List.getElem?_eq_some_iff.mp found).1
  have bound := Nat.lt_trans inside small.entries
  exact ⟨UInt32.toNat_ofNat_of_lt bound, UInt64.toNat_ofNat_of_lt (Nat.lt_trans bound (by decide))⟩

theorem entry_of_libraryAt? {address : Nat} {function : Library}
    (found : setting.libraryAt? address = some function) :
    setting.directory.entries[address]? = some (.library function) := by
  unfold libraryAt? at found
  split at found
  · cases found
    assumption
  · simp at found

theorem advance?_call (small : setting.Small) {signature : Signature}
    (found : setting.routineAt? signature.address = some signature) (stack : List Cell)
    (constants : List Constant) :
    setting.advance? (((signature.params.map Param.ty).flatMap Ty.cells).reverse ++
        (List.replicate signature.returnType.slots .hole ++ stack), constants)
        (Callee.routine signature).instruction =
      some (signature.returnType.cells ++ stack, constants) := by
  refine advance?_eq rfl ?_
  simp only [Callee.instruction, Instruction.effect?, toNat_routine small found, found,
    Option.bind_some, callEffect?_append]

theorem advance?_library (small : setting.Small) {address : Nat} {function : Library}
    (found : setting.libraryAt? address = some function) (stack : List Cell)
    (constants : List Constant) :
    setting.advance? ((function.argumentTypes.flatMap Ty.cells).reverse ++
        (List.replicate function.returnType.slots .hole ++ stack), constants)
        (Callee.library address function).instruction =
      some (function.returnType.cells ++ stack, constants) := by
  have exact := (toNat_entry small (entry_of_libraryAt? found)).1
  refine advance?_eq rfl ?_
  simp only [Callee.instruction, Instruction.effect?, exact, found, Option.bind_some,
    callEffect?_append]

/-- Arguments are left on the stack in their order. -/
theorem flow?_codeAll {values : List Expr}
    (flows : ∀ e ∈ values, ∀ stack rest, setting.flow? e.code (stack, e.constants ++ rest) =
      some (e.ty.cells ++ stack, rest)) (stack : List Cell) (rest : List Constant) :
    setting.flow? (Expr.codeAll values) (stack, Expr.constantsAll values ++ rest) =
      some (((values.map Expr.ty).flatMap Ty.cells).reverse ++ stack, rest) := by
  induction values generalizing stack with
  | nil => rfl
  | cons first values ih =>
    rw [List.forall_mem_cons] at flows
    have same : first.ty.cells.reverse = first.ty.cells := by cases first.ty <;> rfl
    simp only [Expr.codeAll, Expr.constantsAll, List.append_assoc, flow?_append, flows.1,
      Option.bind_some, ih flows.2, List.map_cons, List.flatMap_cons, List.reverse_append, same]

end Setting

/-- The code of an expression leaves its value, and pushes its literals in their order. -/
theorem Expr.Typed.flow {setting : Setting} {e : Expr} (typed : e.Typed setting)
    (small : setting.Small) (stack : List Cell) (rest : List Constant) :
    setting.flow? e.code (stack, e.constants ++ rest) = some (e.ty.cells ++ stack, rest) := by
  induction typed generalizing stack rest with
  | int | double | char | text =>
    simp only [Expr.code, Expr.constants, Expr.ty, List.singleton_append, Setting.flow?_cons]
    exact congrArg (Option.bind · _) (Setting.advance?_push (by simp) stack rest)
  | load slot valued =>
    simp only [Expr.code, Expr.constants, Expr.ty, List.nil_append, Setting.flow?_cons,
      Setting.flow?_nil, Setting.advance?_place small slot, Option.bind_some,
      Setting.advance?_load slot valued]
  | assign slot valued _ same ih =>
    rw [← same] at slot valued
    simp only [Expr.code, Expr.constants]
    exact Setting.flow?_store small slot valued ih stack rest
  | call found _ types ih =>
    simp only [Expr.code, Expr.constants, Expr.ty, Callee.returnType, List.cons_append,
      Setting.flow?_cons, Setting.flow?_append, Setting.flow?_nil, Setting.advance?_reserve,
      Option.bind_some, Setting.flow?_codeAll ih, types, Setting.advance?_call small found]
  | library found _ types _ ih =>
    simp only [Expr.code, Expr.constants, Expr.ty, Callee.returnType, List.cons_append,
      Setting.flow?_cons, Setting.flow?_append, Setting.flow?_nil, Setting.advance?_reserve,
      Option.bind_some, Setting.flow?_codeAll ih, types, Setting.advance?_library small found]
  | group _ ih => exact ih stack rest
  | cast _ valued proper ih =>
    simp only [Expr.code, Expr.constants, Expr.ty, Setting.flow?_append, ih, Option.bind_some,
      Setting.flow?_cast valued proper]
  | negate _ valued ih =>
    simp only [Expr.code, Expr.constants, Expr.ty, Setting.flow?_append, ih, Option.bind_some,
      Setting.flow?_negate valued]
  | binary known _ _ same valued ihLeft ihRight =>
    simp only [Expr.code, Expr.constants, Expr.ty, Setting.flow?_append, List.append_assoc, ihLeft,
      ihRight, Option.bind_some, ← same, Setting.flow?_binary known valued]

end C0
