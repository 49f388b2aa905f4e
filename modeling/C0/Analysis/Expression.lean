import C0.Analysis
import C0.Operator.Stack

namespace C0

/-- An expression of which a part was read: operators that wait and operands, the last one first. -/
structure Unfinished where
  operators : OperatorStack Nat
  operands : List Expr

namespace Analysis

/-- The variable of a name: a local of the blocks around, else a parameter, else a global. -/
def resolve (scope : Scope) (name : String) (site : Nat) : Analysis Variable := do
  let s ← get
  match s.symbols.lookupLocal? name scope.rank with
  | some symbol => return symbol.toVariable
  | none =>
    match scope.signature.param? name with
    | some (index, param) =>
      let place := .argument (scope.signature.paramOffset index)
      return ⟨name, param.ty, param.isConst, place, none⟩
    | none =>
      match s.symbols.lookupGlobal? name with
      | some symbol => return symbol.toVariable
      | none => fail .notDeclared site

/-- The signature of the function of a name: the function around the call, or one before it. -/
def callee (scope : Scope) (name : String) (site : Nat) : Analysis Signature := do
  if scope.signature.name = name ∧ name ≠ entryName then return scope.signature
  else
    let s ← get
    match s.definitions.find? (·.signature.name == name) with
    | some definition => return definition.signature
    | none => fail .notDeclared site

/-- Notes that a variable has a value. Parameters always have one. -/
def markInitialized (v : Variable) : Analysis Unit :=
  match v.rank with
  | some rank => modify fun s => { s with symbols := s.symbols.markInitialized v.name rank }
  | none => pure ()

/-- Applies an operator to the last operands, if their types allow it. -/
def reduce (operands : List Expr) (operator : Operator × Nat) :
    Except (Fault Nat) (List Expr) :=
  let (op, site) := operator
  if op.isUnary then
    match operands with
    | operand :: rest =>
      if (op.instructions? operand.ty).isSome then .ok (.unary op operand.ty operand :: rest)
      else .error ⟨.typeMismatch, site⟩
    | [] => .error ⟨.typeMismatch, site⟩
  else
    match operands with
    | right :: left :: rest =>
      if left.ty = right.ty ∧ (op.instructions? left.ty).isSome then
        .ok (.binary op left.ty left right :: rest)
      else .error ⟨.typeMismatch, site⟩
    | _ => .error ⟨.typeMismatch, site⟩

/-- Applies operators one after the other. -/
def reduceAll (operands : List Expr) (operators : List (Operator × Nat)) :
    Except (Fault Nat) (List Expr) :=
  operators.foldlM reduce operands

section

variable (inner : Option (Scope → Analysis Expr)) (scope : Scope)

/-- The rest of an assignment to a name, from the sign on. -/
def assignment (name : String) (site : Nat) : Analysis Expr := do
  let target ← resolve scope name site
  refuse target.isConst .changeConst site
  let sign ← expect (.mark .assign)
  let expression ← enter inner sign
  let value ← expression scope
  refuse (value.ty ≠ target.ty) .typeMismatch sign
  markInitialized target
  return .assign target value

/-- One argument, and what follows it: a comma before the next one, or not. -/
def argument (expression : Scope → Analysis Expr) (before : List (Expr × Nat)) :
    Analysis (List (Expr × Nat) ⊕ List (Expr × Nat)) := do
  let start ← peek
  let value ← expression scope
  let arguments := before ++ [(value, start.site)]
  match ← eat (.mark .comma) with
  | some _ => return .inl arguments
  | none => return .inr arguments

/-- Arguments in parentheses, each with the site where it starts. -/
def arguments : Analysis (List (Expr × Nat)) := do
  let opening ← expect (.mark .openParen)
  let expression ← enter inner opening
  let isEmpty ← check (.mark .closeParen)
  let values ← (if isEmpty then pure [] else repeatUntil (argument scope expression) [])
  let _ ← expect (.mark .closeParen)
  return values

/-- Checks that arguments are as many as parameters and have their types. -/
def matchParams (arguments : List (Expr × Nat)) (params : List Param) (site : Nat) :
    Analysis Unit := do
  refuse (arguments.length ≠ params.length) .wrongArgumentCount site
  match (arguments.zip params).find? fun pair => pair.1.1.ty != pair.2.ty with
  | some pair => fail .typeMismatch pair.1.2
  | none => return ()

/-- What a library function takes, after the opening parenthesis. -/
def libraryArgument (opening : Nat) : Library.Argument → Analysis (List Expr)
  | .nothing => pure []
  | .value ty => do
    let start ← peek
    refuse (start.kind = .mark .closeParen) .typeMismatch start.site
    let expression ← enter inner opening
    let value ← expression scope
    refuse (value.ty ≠ ty) .typeMismatch start.site
    return [value]
  | .text => do
    let word ← next
    match word.kind with
    | .string value =>
      let address ← register (.text value)
      return [.text value address]
    | _ => fail .typeMismatch word.site

/-- The rest of a call of a name, from the opening parenthesis on. -/
def call (name : String) (site : Nat) : Analysis Expr := do
  match Library.ofName? name with
  | some function =>
    let address ← register (.library function)
    let opening ← expect (.mark .openParen)
    let values ← libraryArgument inner scope opening function.argument
    let _ ← expect (.mark .closeParen)
    return .call (.library address function) values
  | none =>
    let signature ← callee scope name site
    let values ← arguments inner scope
    matchParams values signature.params site
    return .call (.routine signature) (values.map Prod.fst)

/-- What a name begins: an assignment, a call, or the value of a variable. -/
def named (name : String) (site : Nat) : Analysis Expr := do
  let word ← peek
  match word.kind with
  | .mark .assign => assignment inner scope name site
  | .mark .openParen => call inner scope name site
  | _ =>
    let source ← resolve scope name site
    return .load source

/-- An expression in parentheses, after the opening one. -/
def parenthesized (opening : Nat) : Analysis Expr := do
  let expression ← enter inner opening
  let value ← expression scope
  let _ ← expect (.mark .closeParen)
  return .group value

/-- An operand without its casts. -/
def primary : Analysis Expr := do
  let word ← next
  match word.kind with
  | .identifier name => named inner scope name word.site
  | .uint value => return .int value
  | .double bits => return .double bits
  | .char value => return .char value
  | .mark .openParen => parenthesized inner scope word.site
  | _ => fail .unexpectedToken word.site

/-- One cast of an operand, if there is one. -/
def cast (operand : Expr) : Analysis (Expr ⊕ Expr) := do
  match ← eat (.keyword .asWord) with
  | some site =>
    let target ← expectType
    refuse (operand.ty = .void ∨ target.ty = .void) .typeMismatch site
    return .inl (.cast operand.ty target.ty operand)
  | none => return .inr operand

/-- An operand with its casts. -/
def operand : Analysis Expr := do
  let value ← primary inner scope
  repeatUntil cast value

/-- One sign before an operand, if there is one. -/
def negation (operators : OperatorStack Nat) :
    Analysis (OperatorStack Nat ⊕ OperatorStack Nat) := do
  match ← eat (.mark .minus) with
  | some site => return .inl (operators.push .negate site)
  | none => return .inr operators

/-- Signs and an operand, and what follows them: an operator before the next operand, or the end of
the expression. An operator waits until one comes that does not bind tighter. -/
def operandAndOperator (before : Unfinished) : Analysis (Unfinished ⊕ Expr) := do
  let operators ← repeatUntil negation before.operators
  let value ← operand inner scope
  let operands := value :: before.operands
  let word ← peek
  match Operator.binary? word.kind with
  | some op =>
    advance
    let operands ← orFail (reduceAll operands (operators.before op))
    return .inl ⟨(operators.after op).push op word.site, operands⟩
  | none =>
    match ← orFail (reduceAll operands operators.applicable) with
    | [result] => return .inr result
    | _ => fail .unexpectedToken word.site

/-- An expression, with what is allowed one level of nesting further in. -/
def expressionWith : Analysis Expr :=
  repeatUntil (operandAndOperator inner scope) ⟨.empty, []⟩

end

/-- An expression that may nest so many levels deep. -/
def expression : Nat → Scope → Analysis Expr
  | 0, scope => expressionWith none scope
  | n + 1, scope => expressionWith (some (expression n)) scope

end Analysis

end C0
