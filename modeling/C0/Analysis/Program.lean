import C0.Analysis.Statement

namespace C0

namespace Analysis

/-- The scope of the first values of globals: the entry function, which has no address yet. -/
def globalScope : Scope where
  signature := ⟨entryName, 0, [], .void⟩
  rank := 0
  inLoop := false

/-- One parameter, and what follows it: a comma before the next one, or not. -/
def param (before : Signature) : Analysis (Signature ⊕ Signature) := do
  let const ← eat (.keyword .constWord)
  let word ← expectIdentifier
  let _ ← expect (.mark .colon)
  let ty ← expectValueType
  let signature ← orFail (before.addParam ⟨word.name, const.isSome, ty⟩ word.site)
  match ← eat (.mark .comma) with
  | some _ => return .inl signature
  | none => return .inr signature

/-- Adds the parameters in parentheses to a function. -/
def params (before : Signature) : Analysis Signature := do
  let _ ← expect (.mark .openParen)
  let isEmpty ← check (.mark .closeParen)
  let signature ← (if isEmpty then pure before else repeatUntil param before)
  let _ ← expect (.mark .closeParen)
  return signature

/-- Whether a name cannot be given to a function: it is that of the entry function, of a library
function, of another function or of a global. -/
def isTakenForFunction (directory : Directory) (name : String) : Bool :=
  name == entryName || (Library.ofName? name).isSome || directory.containsName name

/-- The head of a function. Its name is in the directory from here on. -/
def functionHead : Analysis Signature := do
  let _ ← expect (.keyword .fnWord)
  let word ← expectIdentifier
  let s ← get
  refuse (isTakenForFunction s.directory word.name) .duplicateDeclaration word.site
  let address ← register (.routine word.name)
  let signature ← params ⟨word.name, address, [], .void⟩
  let _ ← expect (.mark .arrow)
  let returned ← expectType
  return { signature with returnType := returned.ty }

/-- Adds a function to the program. -/
def addDefinition (definition : Definition) : Analysis Unit :=
  modify fun s => { s with definitions := s.definitions ++ [definition] }

/-- A function whose body may nest so many levels deep. -/
def function (limit : Nat) : Analysis Unit := do
  let signature ← functionHead
  modify fun s => { s with frame := ⟨0⟩ }
  let (body, closing) ← block (readersBelow limit) ⟨signature, 1, false⟩
  let s ← get
  match Definition.ofBody? signature s.frame body with
  | some definition =>
    report (.compiled definition.routine)
    addDefinition definition
  | none => fail .notAllRoutesReturn closing

/-- A declaration outside all functions. -/
def globalDeclaration (limit : Nat) : Analysis Unit := do
  let initializer ← declaration (expression limit) globalScope
  modify fun s => { s with initializers := s.initializers ++ [initializer] }

/-- A function or a declaration, or the end of the program. -/
def itemOrEnd (limit : Nat) (_ : Unit) : Analysis (Unit ⊕ Unit) := do
  let word ← peek
  match word.kind with
  | .keyword .fnWord => Sum.inl <$> function limit
  | .keyword .letWord => Sum.inl <$> globalDeclaration limit
  | .keyword .constWord => Sum.inl <$> globalDeclaration limit
  | .eof => return .inr ()
  | _ => fail .unexpectedToken word.site

/-- The program that was read, if it has a function to start with. -/
def finish (eof : Nat) : Analysis CheckedProgram := do
  let s ← get
  match s.definitions.find? (·.signature.name == mainName) with
  | some main =>
    let entryAddress ← register (.routine entryName)
    let s ← get
    let checked : CheckedProgram :=
      ⟨s.directory, s.globals, s.definitions, s.initializers, main.signature, entryAddress⟩
    report (.synthesized checked.entry)
    return checked
  | none => fail .notDeclared eof

/-- A whole program, whose parts may nest so many levels deep. -/
def program (limit : Nat) : Analysis CheckedProgram := do
  repeatUntil (itemOrEnd limit) ()
  let eof ← expect .eof
  finish eof

end Analysis

end C0
