import C0.Program
import C0.Stmt.Layout

namespace C0

/-- A function as it is written and as it is compiled. -/
structure Definition where
  signature : Signature
  frame : Frame
  body : Stmt
  routine : Routine
  /-- The compiled function is the layout of the written one. -/
  laidOut : Routine.ofBody? signature frame body = some routine

/-- The function that a body makes, if the body does not run past its end without a value. -/
def Definition.ofBody? (signature : Signature) (frame : Frame) (body : Stmt) : Option Definition :=
  match laidOut : Routine.ofBody? signature frame body with
  | some routine => some ⟨signature, frame, body, routine, laidOut⟩
  | none => none

/-- A program as it is written, after all checks. -/
structure CheckedProgram where
  directory : Directory
  globals : List GlobalVariable
  /-- The functions in the order of their definition. -/
  definitions : List Definition
  /-- The declarations of globals in their order. -/
  initializers : List Stmt
  main : Signature
  /-- The address of the entry function. -/
  entryAddress : Nat

namespace CheckedProgram

/-- The entry function: it gives the globals their first values and calls `main`. -/
def entry (checked : CheckedProgram) : Routine :=
  let routine := Routine.ofSignature ⟨entryName, checked.entryAddress, [], .void⟩ ⟨0⟩
  ((Stmt.ofList checked.initializers).layOut routine).1.append
    [.indexed .stackalloc (UInt32.ofNat checked.main.returnSlots),
     .indexed .call (UInt32.ofNat checked.main.address)]

/-- The compiled program. -/
def program (checked : CheckedProgram) : Program where
  directory := checked.directory
  globals := checked.globals
  routines := checked.definitions.map Definition.routine ++ [checked.entry]

end CheckedProgram

end C0
