import C0.Fault
import C0.Instruction
import C0.Ty

namespace C0

/-- A parameter of a function. -/
structure Param where
  name : String
  isConst : Bool
  ty : Ty
  deriving DecidableEq, Repr

/-- What callers need to know of a function. -/
structure Signature where
  name : String
  /-- The address of the function in the directory. -/
  address : Nat
  params : List Param
  returnType : Ty
  deriving DecidableEq, Repr

namespace Signature

/-- How many slots are reserved for the value that the function returns. -/
def returnSlots (signature : Signature) : Nat :=
  signature.returnType.slots

/-- The parameter of a name and its place among the parameters. -/
def param? (signature : Signature) (name : String) : Option (Nat × Param) :=
  (signature.params.zipIdx.find? (·.1.name == name)).map Prod.swap

/-- Adds a parameter whose name is free. -/
def addParam {σ : Type} (signature : Signature) (param : Param) (site : σ) :
    Except (Fault σ) Signature :=
  match signature.param? param.name with
  | some _ => .error ⟨.duplicateDeclaration, site⟩
  | none => .ok { signature with params := signature.params ++ [param] }

/-- The argument slot of the parameter at a place. The slot of the returned value, if there is one,
stands before the parameters. -/
def paramOffset (signature : Signature) (index : Nat) : Nat :=
  index + signature.returnSlots

end Signature

/-- The local slots that a function has used so far. -/
structure Frame where
  locals : Nat
  deriving DecidableEq, Repr

/-- Takes a new local slot. Slots are not given back. -/
def Frame.allocate (frame : Frame) : Nat × Frame :=
  (frame.locals, ⟨frame.locals + 1⟩)

/-- A function with its code. -/
structure Routine extends Signature, Frame where
  code : Array Instruction
  /-- Whether the body has a return statement. -/
  returned : Bool
  deriving DecidableEq, Repr

namespace Routine

/-- A function without code. -/
def ofSignature (signature : Signature) (frame : Frame) : Routine :=
  { signature, frame with code := #[], returned := false }

/-- The position of the next instruction. -/
def nextPosition (routine : Routine) : Nat :=
  routine.code.size

/-- Adds an instruction. -/
def push (routine : Routine) (instruction : Instruction) : Routine :=
  { routine with code := routine.code.push instruction }

/-- Adds instructions. -/
def append (routine : Routine) (instructions : List Instruction) : Routine :=
  { routine with code := routine.code ++ instructions }

/-- Adds a branch that does not know its target yet, and tells its position. -/
def placeholder (routine : Routine) : Nat × Routine :=
  (routine.nextPosition, routine.push (.branch .always 0))

/-- Lets the branch at a position lead to a target. Offsets count from the next instruction. -/
def patch (routine : Routine) (site target : Nat) : Routine :=
  match routine.code[site]? with
  | some (.branch test _) =>
    let offset := Int32.ofInt ((target : Int) - site - 1)
    { routine with code := routine.code.setIfInBounds site (.branch test offset) }
  | _ => routine

/-- Lets the branches at some positions lead to a target. -/
def patchAll (routine : Routine) (sites : List Nat) (target : Nat) : Routine :=
  sites.foldl (fun routine site => routine.patch site target) routine

/-- The function in listings. -/
def render (routine : Routine) : String :=
  let heading := s!"fn [{routine.address}] {routine.locals} {routine.params.length} -> " ++
    s!"{routine.returnSlots} \x7b\n"
  let body := routine.code.toList.map fun instruction => s!"    {instruction.render}\n"
  heading ++ String.join body ++ "\x7d\n"

end Routine

end C0
