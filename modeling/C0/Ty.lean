namespace C0

/-- The type of a value. -/
inductive Ty where
  /-- A signed integer of 64 bits. -/
  | int
  /-- A floating point number of 64 bits. -/
  | double
  /-- No value: what a procedure returns and an assignment leaves. -/
  | void
  deriving DecidableEq, Repr

namespace Ty

/-- The word that names the type in a program. -/
def name : Ty → String
  | int => "int"
  | double => "double"
  | void => "void"

/-- How many stack slots a value of the type takes. -/
def slots : Ty → Nat
  | int => 1
  | double => 1
  | void => 0

/-- The type of a given name. -/
def ofName? (text : String) : Option Ty :=
  [int, double, void].find? (·.name == text)

end Ty

end C0
