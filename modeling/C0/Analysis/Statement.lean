import C0.Analysis.Expression

namespace C0

/-- A statement that goes one level of nesting further in. -/
inductive Construct where
  | block
  | conditional
  | iteration

/-- How to read what stands one level of nesting further in. -/
structure Readers where
  expression : Scope → Analysis Expr
  nested : Construct → Scope → Analysis Stmt

namespace State

/-- Whether a name cannot be declared in a scope. A global must not be named like another global,
a function or the entry function, and a local not like a parameter. -/
def isTaken (s : State) (scope : Scope) (name : String) : Bool :=
  if scope.rank = 0 then name == entryName || s.directory.containsName name
  else (scope.signature.param? name).isSome

/-- A new slot for a variable of a scope. -/
def allocate (s : State) (scope : Scope) : Nat × State :=
  if scope.rank = 0 then (s.symbols.globalCount, s)
  else
    let (slot, frame) := s.frame.allocate
    (slot, { s with frame })

end State

namespace Analysis

/-- Adds a symbol whose name is free. -/
def declare (symbol : Symbol) (site : Nat) : Analysis Unit := do
  let s ← get
  let symbols ← orFail (s.symbols.declare symbol site)
  modify fun s => { s with symbols }

/-- Adds a symbol to the globals of the program if it is one. -/
def publish (symbol : Symbol) : Analysis Unit := do
  if symbol.rank = 0 then
    let _ ← register (.global symbol.name)
    modify fun s => { s with globals := s.globals ++ [⟨symbol.name, symbol.isConst⟩] }
  else return ()

/-- The word that begins a declaration, which tells whether it declares a constant. -/
def declarationWord : Analysis Bool := do
  let word ← next
  match word.kind with
  | .keyword .letWord => return false
  | .keyword .constWord => return true
  | _ => fail .unexpectedToken word.site

/-- The name and the type of a declaration. The symbol is declared from here on. -/
def declaredSymbol (scope : Scope) (isConst : Bool) : Analysis Symbol := do
  let word ← expectIdentifier
  let s ← get
  refuse (s.isTaken scope word.name) .duplicateDeclaration word.site
  let _ ← expect (.mark .colon)
  let ty ← expectValueType
  let slot ← modifyGet fun s => s.allocate scope
  let symbol : Symbol := ⟨word.name, ty, isConst, false, slot, scope.rank⟩
  declare symbol word.site
  publish symbol
  return symbol

/-- The sign before the first value of a symbol. A constant must have one. -/
def initializerSign (isConst : Bool) : Analysis (Option Nat) :=
  if isConst then some <$> expect (.mark .assign) else eat (.mark .assign)

/-- The first value of a symbol, if there is one. -/
def initializer (expression : Scope → Analysis Expr) (scope : Scope) (symbol : Symbol) :
    Analysis (Option Expr) := do
  match ← initializerSign symbol.isConst with
  | some sign =>
    let value ← expression scope
    refuse (value.ty ≠ symbol.ty) .typeMismatch sign
    markInitialized symbol.toVariable
    return some value
  | none => return none

/-- The declaration of a variable or a constant. -/
def declaration (expression : Scope → Analysis Expr) (scope : Scope) : Analysis Stmt := do
  let isConst ← declarationWord
  let symbol ← declaredSymbol scope isConst
  let value ← initializer expression scope symbol
  let _ ← expect (.mark .semicolon)
  return .declare symbol value

/-- The value of a return, if there is one. It must have the type of the function. -/
def returnedValue (expression : Scope → Analysis Expr) (scope : Scope) (site : Nat) :
    Analysis (Option Expr) := do
  if ← check (.mark .semicolon) then
    refuse (scope.signature.returnType ≠ .void) .typeMismatch site
    return none
  else
    let value ← expression scope
    refuse (value.ty = .void ∨ value.ty ≠ scope.signature.returnType) .typeMismatch site
    return some value

/-- A return. -/
def giveBack (expression : Scope → Analysis Expr) (scope : Scope) : Analysis Stmt := do
  let site ← expect (.keyword .returnWord)
  let value ← returnedValue expression scope site
  let _ ← expect (.mark .semicolon)
  return .giveBack value

/-- A jump, which must stand in a loop. -/
def loopJump (scope : Scope) (jump : Stmt) : Analysis Stmt := do
  let word ← next
  refuse (!scope.inLoop) .invalidIdentifier word.site
  let _ ← expect (.mark .semicolon)
  return jump

/-- An expression as a statement. -/
def evaluation (expression : Scope → Analysis Expr) (scope : Scope) : Analysis Stmt := do
  let value ← expression scope
  let _ ← expect (.mark .semicolon)
  return .evaluate value

/-- A statement. Its first token tells which. -/
def statement (inner : Readers) (scope : Scope) : Analysis Stmt := do
  let word ← peek
  match word.kind with
  | .keyword .letWord => declaration inner.expression scope
  | .keyword .constWord => declaration inner.expression scope
  | .keyword .ifWord => inner.nested .conditional scope
  | .keyword .whileWord => inner.nested .iteration scope
  | .keyword .returnWord => giveBack inner.expression scope
  | .keyword .breakWord => loopJump scope .leave
  | .keyword .continueWord => loopJump scope .again
  | .mark .openBrace => inner.nested .block scope.inner
  | .mark .semicolon =>
    advance
    return .empty
  | _ => evaluation inner.expression scope

/-- One statement of a block, or the end of it. Statements are collected the last one first. -/
def statementOrEnd (inner : Readers) (scope : Scope) (before : List Stmt) :
    Analysis (List Stmt ⊕ Stmt) := do
  if ← check (.mark .closeBrace) then return .inr (Stmt.ofList before.reverse)
  else
    let next ← statement inner scope
    return .inl (next :: before)

/-- Statements in braces, and the site of the closing one. What they declare ends with them. -/
def block (inner : Option Readers) (scope : Scope) : Analysis (Stmt × Nat) := do
  let opening ← expect (.mark .openBrace)
  let inner ← enter inner opening
  let body ← repeatUntil (statementOrEnd inner scope) []
  let closing ← expect (.mark .closeBrace)
  modify fun s => { s with symbols := s.symbols.dropRank scope.rank }
  return (body, closing)

/-- The test of a conditional or a loop, which must have a value. -/
def test (inner : Readers) (scope : Scope) (site : Nat) : Analysis Expr := do
  let value ← inner.expression scope
  refuse (value.ty = .void) .typeMismatch site
  return value

/-- What runs if a test does not hold: another conditional, a block, or nothing. -/
def alternative (inner : Readers) (scope : Scope) : Analysis Stmt := do
  match ← eat (.keyword .elseWord) with
  | some _ =>
    if ← check (.keyword .ifWord) then inner.nested .conditional scope
    else inner.nested .block scope.inner
  | none => return .skip

/-- A conditional. -/
def conditional (inner : Option Readers) (scope : Scope) : Analysis Stmt := do
  let site ← expect (.keyword .ifWord)
  let inner ← enter inner site
  let test ← test inner scope site
  let yes ← inner.nested .block scope.inner
  let no ← alternative inner scope
  return .conditional test yes no

/-- A loop. -/
def iteration (inner : Option Readers) (scope : Scope) : Analysis Stmt := do
  let site ← expect (.keyword .whileWord)
  let inner ← enter inner site
  let test ← test inner scope site
  let body ← inner.nested .block scope.innerLoop
  return .iteration test body

/-- A construct, with what is allowed one level of nesting further in. -/
def constructWith (inner : Option Readers) : Construct → Scope → Analysis Stmt
  | .block, scope => do
    let body ← block inner scope
    return .block body.1
  | .conditional, scope => conditional inner scope
  | .iteration, scope => iteration inner scope

/-- A construct that may nest so many levels deep, itself included. -/
def nested : Nat → Construct → Scope → Analysis Stmt
  | 0, construct, scope => constructWith none construct scope
  | n + 1, construct, scope => constructWith (some ⟨expression n, nested n⟩) construct scope

/-- What is allowed one level of nesting further in than so many. -/
def readersBelow : Nat → Option Readers
  | 0 => none
  | n + 1 => some ⟨expression n, nested n⟩

end Analysis

end C0
