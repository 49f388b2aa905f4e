import C0.Routine

namespace C0

/-- The positions that can follow an instruction at a position. -/
def Instruction.successors (position : Int) : Instruction → List Int
  | .plain .ret => []
  | .branch .always offset => [position + 1 + offset.toInt]
  | .branch _ offset => [position + 1 + offset.toInt, position + 1]
  | _ => [position + 1]

/-- Walks along all routes from the pending positions and tells whether none of them leaves the
code. A position is followed once. Each step takes a pending position, and a position that is
followed brings at most two, so the steps are bounded by the size of the code. -/
def walkRoutes (code : Array Instruction) : Nat → Array Bool → List Int → Bool
  | _, _, [] => true
  | 0, _, _ :: _ => false
  | steps + 1, visited, position :: pending =>
    match position with
    | .negSucc _ => false
    | .ofNat index =>
      match code[index]? with
      | none => false
      | some instruction =>
        if visited.getD index false then walkRoutes code steps visited pending
        else walkRoutes code steps (visited.setIfInBounds index true)
          (instruction.successors position ++ pending)

/-- Whether every route through the code returns or goes round for ever, so that none runs past
either end. -/
def Routine.allRoutesReturn (routine : Routine) : Bool :=
  let size := routine.code.size
  walkRoutes routine.code (2 * size + 1) (Array.replicate size false) [0]

/-- The function with a body that does not run past its end. A function without value returns at
the end of its body. Any other must have returned before. -/
def Routine.finish? (routine : Routine) : Option Routine :=
  if routine.returned && routine.allRoutesReturn then some routine
  else if routine.returnType = .void then some (routine.push (.plain .ret))
  else none

end C0
