import C0.Routine.Routes
import C0.Stmt

namespace C0

/-- Branches whose target is not known before the loop around them ends. -/
structure Jumps where
  /-- Branches out of the loop. -/
  leaving : List Nat
  /-- Branches back to the test of the loop. -/
  repeating : List Nat

namespace Jumps

/-- No branches. -/
def none : Jumps :=
  ⟨[], []⟩

/-- The branches of two statements. -/
def append (first rest : Jumps) : Jumps :=
  ⟨first.leaving ++ rest.leaving, first.repeating ++ rest.repeating⟩

end Jumps

/-- Adds the code of a statement to a function. Also tells which branches wait for the end of the
loop around the statement.

A test is followed by a branch over the next instruction, which leads past what runs if the test
holds. A conditional is laid out as `test; br_true 1; br no; yes; br end; no:; no; end:` and a loop
as `br test; test:; test; br_true 1; br end; body; br test; end:`. -/
def Stmt.layOut : Stmt → Routine → Routine × Jumps
  | .skip, routine => (routine, .none)
  | .seq first rest, routine =>
    let (routine, before) := first.layOut routine
    let (routine, after) := rest.layOut routine
    (routine, before.append after)
  | .empty, routine => (routine, .none)
  | .declare symbol value, routine => (routine.append (declareCode symbol value), .none)
  | .evaluate expr, routine => (routine.append (evaluateCode expr), .none)
  | .block body, routine => body.layOut routine
  | .conditional test yes no, routine =>
    let routine := (routine.append test.code).push (.branch .onTrue 1)
    let (skipYes, routine) := routine.placeholder
    let (routine, inYes) := yes.layOut routine
    let (skipNo, routine) := routine.placeholder
    let routine := routine.patch skipYes routine.nextPosition
    let (routine, inNo) := no.layOut routine
    (routine.patch skipNo routine.nextPosition, inYes.append inNo)
  | .iteration test body, routine =>
    let (start, routine) := routine.placeholder
    let recheck := routine.nextPosition
    let routine := routine.patch start recheck
    let routine := (routine.append test.code).push (.branch .onTrue 1)
    let (exit, routine) := routine.placeholder
    let (routine, jumps) := body.layOut routine
    let (back, routine) := routine.placeholder
    let routine := routine.patch back recheck
    let after := routine.nextPosition
    let routine := routine.patch exit after
    let routine := routine.patchAll jumps.leaving after
    (routine.patchAll jumps.repeating recheck, .none)
  | .leave, routine =>
    let (site, routine) := routine.placeholder
    (routine, ⟨[site], []⟩)
  | .again, routine =>
    let (site, routine) := routine.placeholder
    (routine, ⟨[], [site]⟩)
  | .giveBack value, routine =>
    ({ routine.append (returnCode value) with returned := true }, .none)

/-- The function that a body makes, if the body does not run past its end without a value. -/
def Routine.ofBody? (signature : Signature) (frame : Frame) (body : Stmt) : Option Routine :=
  (body.layOut (ofSignature signature frame)).1.finish?

end C0
