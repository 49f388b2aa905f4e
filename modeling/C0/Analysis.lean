import C0.CheckedProgram
import C0.Event
import C0.Token.Scan

namespace C0

/-- What the analysis of a program has before it and what it has made so far. -/
structure State where
  /-- How many readings lie behind. -/
  position : Nat
  /-- The readings that lie before. -/
  rest : List Reading
  directory : Directory
  globals : List GlobalVariable
  definitions : List Definition
  /-- The declarations of globals. -/
  initializers : List Stmt
  symbols : SymbolTable
  /-- The local slots of the function at hand. -/
  frame : Frame
  log : List Event

namespace State

/-- The state before the first of some readings. -/
def initial (readings : List Reading) : State where
  position := 0
  rest := readings
  directory := .empty
  globals := []
  definitions := []
  initializers := []
  symbols := .empty
  frame := ⟨0⟩
  log := []

/-- Gives an entry an address, and reports it if it had none. -/
def register (s : State) (entry : Entry) : Nat × State :=
  let (address, directory) := s.directory.register entry
  let events := if address = s.directory.size then [.registered address entry] else []
  (address, { s with directory, log := s.log ++ events })

end State

/-- A step of the analysis. It can fail, and then blames the reading at an index. What was made
before a failure stays visible. Of a reading nothing but its kind or its cause is known here, so
that layout and comments of the source cannot matter. -/
abbrev Analysis := EStateM (Fault Nat) State

/-- The place of a statement or an expression. -/
structure Scope where
  /-- The function around it. -/
  signature : Signature
  /-- How many blocks are around it. -/
  rank : Nat
  /-- Whether a loop is around it. -/
  inLoop : Bool

/-- The scope of a block in a scope. -/
def Scope.inner (scope : Scope) : Scope :=
  { scope with rank := scope.rank + 1 }

/-- The scope of the body of a loop in a scope. -/
def Scope.innerLoop (scope : Scope) : Scope :=
  { scope.inner with inLoop := true }

/-- A token as the analysis sees it: its kind and its index among the readings. -/
structure Word where
  kind : Kind
  site : Nat

/-- A token that is an identifier. -/
structure NameWord where
  name : String
  site : Nat

/-- A token that names a type. -/
structure TypeWord where
  ty : Ty
  site : Nat

namespace Analysis

/-- Fails for a cause at a site. -/
def fail {α : Type} (cause : Cause) (site : Nat) : Analysis α :=
  throw ⟨cause, site⟩

/-- Fails for a cause at a site if something is bad. -/
def refuse (bad : Prop) [Decidable bad] (cause : Cause) (site : Nat) : Analysis Unit :=
  if bad then fail cause site else pure ()

/-- Fails if a check does. -/
def orFail {α : Type} (checked : Except (Fault Nat) α) : Analysis α :=
  match checked with
  | .ok value => pure value
  | .error fault => throw fault

/-- Looks at the next token. After the end of the source there are only more ends. -/
def peek : Analysis Word := fun s =>
  match s.rest with
  | [] => .ok ⟨.eof, s.position⟩ s
  | .ok kind :: _ => .ok ⟨kind, s.position⟩ s
  | .error cause :: _ => .error ⟨cause, s.position⟩ s

/-- Passes the next reading. -/
def advance : Analysis Unit := fun s =>
  .ok () { s with position := s.position + 1, rest := s.rest.tail }

/-- Takes the next token. -/
def next : Analysis Word := do
  let word ← peek
  advance
  return word

/-- Whether the next token is of a kind. -/
def check (kind : Kind) : Analysis Bool := do
  let word ← peek
  return word.kind == kind

/-- Takes the next token if it is of a kind, and tells where it stood. -/
def eat (kind : Kind) : Analysis (Option Nat) := do
  let word ← peek
  if word.kind = kind then
    advance
    return some word.site
  else
    return none

/-- Takes a token that must be of a kind, and tells where it stood. -/
def expect (kind : Kind) : Analysis Nat := do
  let word ← next
  refuse (word.kind ≠ kind) .unexpectedToken word.site
  return word.site

/-- Takes a token that must be an identifier. -/
def expectIdentifier : Analysis NameWord := do
  let word ← next
  match word.kind with
  | .identifier name => return ⟨name, word.site⟩
  | _ => fail .unexpectedToken word.site

/-- Takes a token that must name a type. -/
def expectType : Analysis TypeWord := do
  let word ← next
  match word.kind with
  | .type ty => return ⟨ty, word.site⟩
  | _ => fail .unexpectedToken word.site

/-- Takes a token that must name a type of values. -/
def expectValueType : Analysis Ty := do
  let word ← expectType
  refuse (word.ty = .void) .typeMismatch word.site
  return word.ty

/-- What is allowed one level of nesting further in, if the limit leaves one. -/
def enter {α : Type} (inner : Option α) (site : Nat) : Analysis α :=
  match inner with
  | some reader => pure reader
  | none => fail .nestingTooDeep site

/-- Repeats a step at most so many times, until it gives a result. -/
def repeatAtMost {α β : Type} (step : α → Analysis (α ⊕ β)) : Nat → α → Analysis β
  | 0, _ => do
    let word ← peek
    fail .unexpectedToken word.site
  | n + 1, value => do
    match ← step value with
    | .inl value => repeatAtMost step n value
    | .inr result => return result

/-- Repeats a step until it gives a result. Each repetition takes a token, so there are no more
repetitions than readings before the analysis. -/
def repeatUntil {α β : Type} (step : α → Analysis (α ⊕ β)) (value : α) : Analysis β := do
  let s ← get
  repeatAtMost step (s.rest.length + 1) value

/-- Adds an event to the log. -/
def report (event : Event) : Analysis Unit :=
  modify fun s => { s with log := s.log ++ [event] }

/-- Gives an entry an address. -/
def register (entry : Entry) : Analysis Nat :=
  modifyGet fun s => s.register entry

end Analysis

end C0
