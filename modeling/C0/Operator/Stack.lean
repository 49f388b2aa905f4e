import C0.Operator

namespace C0

/-- Operators that wait for their right operand, the last one first, each with the site where it
stands. Below them all is a sentinel that is not listed. -/
structure OperatorStack (σ : Type) where
  pending : List (Operator × σ)

namespace OperatorStack

variable {σ : Type}

/-- No operator waits. -/
def empty : OperatorStack σ :=
  ⟨[]⟩

/-- Whether no operator waits. -/
def isEmpty (stack : OperatorStack σ) : Bool :=
  stack.pending.isEmpty

/-- Lets an operator wait. -/
def push (stack : OperatorStack σ) (op : Operator) (site : σ) : OperatorStack σ :=
  ⟨(op, site) :: stack.pending⟩

/-- Whether a waiting operator can be applied at the end of the expression. -/
def isApplicable (top : Operator × σ) : Bool :=
  top.1 != .sentinel

/-- Whether a waiting operator is applied before an incoming one: it binds as tightly or more. -/
def goesBefore (incoming : Operator) (top : Operator × σ) : Bool :=
  isApplicable top && incoming.priority ≤ top.1.priority

/-- Takes the last operator if a test holds of it. -/
def popIf (test : Operator × σ → Bool) (stack : OperatorStack σ) :
    Option (Operator × σ) × OperatorStack σ :=
  match stack.pending with
  | [] => (none, stack)
  | top :: rest => if test top then (some top, ⟨rest⟩) else (none, stack)

/-- Takes the last operator if it is applied before an incoming one. -/
def popFor (incoming : Operator) (stack : OperatorStack σ) :
    Option (Operator × σ) × OperatorStack σ :=
  stack.popIf (goesBefore incoming)

/-- Takes the last operator. -/
def pop (stack : OperatorStack σ) : Option (Operator × σ) × OperatorStack σ :=
  stack.popIf isApplicable

/-- All operators that are applied before an incoming one, the last one first. -/
def before (incoming : Operator) (stack : OperatorStack σ) : List (Operator × σ) :=
  stack.pending.takeWhile (goesBefore incoming)

/-- What is left when all operators that are applied before an incoming one are taken. -/
def after (incoming : Operator) (stack : OperatorStack σ) : OperatorStack σ :=
  ⟨stack.pending.dropWhile (goesBefore incoming)⟩

/-- All operators that wait, the last one first. -/
def applicable (stack : OperatorStack σ) : List (Operator × σ) :=
  stack.pending.takeWhile isApplicable

end OperatorStack

end C0
