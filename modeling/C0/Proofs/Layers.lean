import C0.Proofs.Loop

namespace C0

namespace Analysis

namespace Layered

/-- The operators of the loosest layer. -/
def comparisons : List Operator :=
  [.eq, .neq, .lt, .gt, .le, .ge]

/-- The operators of the layer between. -/
def sums : List Operator :=
  [.add, .sub]

/-- The operators of the tightest layer. -/
def products : List Operator :=
  [.mul, .div]

/-- Two operands with an operator between them. They must have one type, and it must have values. -/
def join (op : Operator) (site : Nat) (left right : Expr) : Except (Fault Nat) Expr :=
  if left.ty = right.ty ∧ left.ty ≠ .void then .ok (.binary op left.ty left right)
  else .error ⟨.typeMismatch, site⟩

/-- An operand with a sign before it. -/
def negate (operand : Expr) (site : Nat) : Except (Fault Nat) Expr :=
  if operand.ty ≠ .void then .ok (.unary .negate operand.ty operand)
  else .error ⟨.typeMismatch, site⟩

/-- One more sign before an operand, if there is one. The last sign stands first. -/
def sign (sites : List Nat) : Analysis (List Nat ⊕ List Nat) := do
  match ← eat (.mark .minus) with
  | some site => return .inl (site :: sites)
  | none => return .inr sites

/-- An operand with the signs before it, of which the last is applied first. -/
def unary (operand : Analysis Expr) : Analysis Expr := do
  let sites ← repeatUntil sign []
  let value ← operand
  orFail (sites.foldlM negate value)

/-- One more operand of a layer, if one of the operators of the layer comes next. -/
def more (operators : List Operator) (tighter : Analysis Expr) (left : Expr) :
    Analysis (Expr ⊕ Expr) := do
  let word ← peek
  match (Operator.binary? word.kind).filter (· ∈ operators) with
  | some op =>
    advance
    let right ← tighter
    let joined ← orFail (join op word.site left right)
    return .inl joined
  | none => return .inr left

/-- The operands of a layer, each read by the next tighter layer and joined to all before it. -/
def layer (operators : List Operator) (tighter : Analysis Expr) : Analysis Expr := do
  let first ← tighter
  repeatUntil (more operators tighter) first

/-- An expression layer by layer, with what is allowed one level of nesting further in. -/
def expressionWith (inner : Option (Scope → Analysis Expr)) (scope : Scope) : Analysis Expr :=
  layer comparisons (layer sums (layer products (unary (operand inner scope))))

/-- An expression that may nest so many levels deep. What is nested is read layer by layer too. -/
def expression : Nat → Scope → Analysis Expr
  | 0, scope => expressionWith none scope
  | n + 1, scope => expressionWith (some (expression n)) scope

end Layered

end Analysis

end C0
