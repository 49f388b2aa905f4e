import C0.Span

namespace C0

/-- Why a program is refused. -/
inductive Cause where
  /-- A word stands where the grammar has no place for it. -/
  | unexpectedToken
  /-- Characters that begin no word. -/
  | invalidInput
  /-- A word that is not allowed here, such as a loop exit outside a loop. -/
  | invalidIdentifier
  /-- A number that is malformed or too large. -/
  | invalidLiteral
  /-- A name is declared twice in one scope. -/
  | duplicateDeclaration
  /-- A name is used and not declared. -/
  | notDeclared
  /-- A constant is assigned to. -/
  | changeConst
  /-- Types that must agree do not. -/
  | typeMismatch
  /-- A call has too many or too few arguments. -/
  | wrongArgumentCount
  /-- The end of a function that returns a value can be reached. -/
  | notAllRoutesReturn
  /-- Blocks or expressions are nested beyond the limit. -/
  | nestingTooDeep
  deriving DecidableEq, Repr

/-- The cause in words. -/
def Cause.description : Cause → String
  | unexpectedToken => "unexpected token"
  | invalidInput => "invalid input"
  | invalidIdentifier => "invalid identifier"
  | invalidLiteral => "invalid literal"
  | duplicateDeclaration => "duplicate declaration"
  | notDeclared => "not declared"
  | changeConst => "assignment to constant"
  | typeMismatch => "type mismatch"
  | wrongArgumentCount => "wrong number of arguments"
  | notAllRoutesReturn => "not all routes return a value"
  | nestingTooDeep => "nesting too deep"

/-- A cause together with the site that it is blamed on. -/
structure Fault (σ : Type) where
  cause : Cause
  site : σ
  deriving DecidableEq, Repr

/-- Blames the same cause on another description of the site. -/
def Fault.mapSite {σ τ : Type} (locate : σ → τ) (fault : Fault σ) : Fault τ where
  cause := fault.cause
  site := locate fault.site

/-- A fault blamed on a stretch of the source. -/
abbrev Diagnostic := Fault Span

/-- The fault with the bytes it covers. -/
def Diagnostic.message (fault : Diagnostic) : String :=
  s!"{fault.cause.description} at {fault.site.render}"

/-- The fault as shown to the author of a source: with line and column, and with the text that it
covers unless that is empty. -/
def Diagnostic.context (fault : Diagnostic) (source : String) : String :=
  let place := fault.site.position source
  let text := fault.site.text source
  let heading := s!"{fault.cause.description} at {place.line}:{place.column}"
  if text.isEmpty then heading else s!"{heading}: {text}"

end C0
