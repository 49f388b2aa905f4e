import C0.Instruction
import C0.Token

namespace C0

/-- An operator of expressions. -/
inductive Operator where
  /-- The bottom of a stack of operators. It is never applied. -/
  | sentinel
  | negate
  | mul | div
  | add | sub
  | eq | neq | lt | gt | le | ge
  deriving DecidableEq, Repr

namespace Operator

/-- The operator between two operands that a token stands for. -/
def binary? : Kind → Option Operator
  | .mark .star => some mul
  | .mark .slash => some div
  | .mark .plus => some add
  | .mark .minus => some sub
  | .mark .equal => some eq
  | .mark .notEqual => some neq
  | .mark .less => some lt
  | .mark .greater => some gt
  | .mark .lessEqual => some le
  | .mark .greaterEqual => some ge
  | _ => none

/-- How tightly the operator binds. Higher binds tighter. -/
def priority : Operator → Nat
  | sentinel => 0
  | eq | neq | lt | gt | le | ge => 1
  | add | sub => 2
  | mul | div => 3
  | negate => 4

/-- Whether the operator takes one operand. -/
def isUnary (op : Operator) : Bool :=
  op == negate

/-- Whether the operator compares its operands. -/
def isComparison (op : Operator) : Bool :=
  op.priority == 1

/-- The type of the result, by the type of the operands. -/
def resultType (op : Operator) (operand : Ty) : Ty :=
  if op.isComparison then .int else operand

/-- The instructions on integers, if the operator has any. A comparison leaves -1, 0 or 1, which
the instructions after it turn into a truth value. -/
def intOps? : Operator → Option (List Op)
  | sentinel => none
  | negate => some [.negI]
  | mul => some [.mulI]
  | div => some [.divI]
  | add => some [.addI]
  | sub => some [.subI]
  | eq => some [.cmpI, .not]
  | neq => some [.cmpI]
  | lt => some [.cmpI, .setLt]
  | gt => some [.cmpI, .setGt]
  | le => some [.cmpI, .setGt, .not]
  | ge => some [.cmpI, .setLt, .not]

/-- The instructions on floating point numbers, if the operator has any. -/
def doubleOps? : Operator → Option (List Op)
  | sentinel => none
  | negate => some [.negF]
  | mul => some [.mulF]
  | div => some [.divF]
  | add => some [.addF]
  | sub => some [.subF]
  | eq => some [.cmpF, .not]
  | neq => some [.cmpF]
  | lt => some [.cmpF, .setLt]
  | gt => some [.cmpF, .setGt]
  | le => some [.cmpF, .setGt, .not]
  | ge => some [.cmpF, .setLt, .not]

/-- The instructions that apply the operator to operands of a type, if it applies to them. -/
def instructions? (op : Operator) : Ty → Option (List Instruction)
  | .int => op.intOps?.map (·.map .plain)
  | .double => op.doubleOps?.map (·.map .plain)
  | .void => none

end Operator

end C0
