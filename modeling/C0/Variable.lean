import C0.Instruction
import C0.Ty

namespace C0

/-- Where a variable is kept. -/
inductive Place where
  /-- A local slot of the function. -/
  | frame (slot : Nat)
  /-- An argument slot of the function. -/
  | argument (offset : Nat)
  /-- A slot among the globals. -/
  | static (slot : Nat)
  deriving DecidableEq, Repr

/-- The instruction that pushes the address of the place. -/
def Place.instruction : Place → Instruction
  | frame slot => .indexed .loca (UInt32.ofNat slot)
  | argument offset => .indexed .arga (UInt32.ofNat offset)
  | static slot => .indexed .globa (UInt32.ofNat slot)

/-- What a name stands for as a variable. -/
structure Variable where
  name : String
  ty : Ty
  isConst : Bool
  place : Place
  /-- How many blocks its declaration stands in. A parameter has no declaration. -/
  rank : Option Nat
  deriving DecidableEq, Repr

end C0
