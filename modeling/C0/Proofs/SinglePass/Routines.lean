import C0.Proofs.SinglePass

namespace C0

/-- The routines of a compiler that call each other. Where one takes a number, it is the rank of the
block around. -/
structure Routines where
  program : SinglePass Program
  function : SinglePass Unit
  block : Nat → SinglePass Span
  statement : Nat → SinglePass Unit
  declaration : Nat → SinglePass Unit
  conditional : Nat → SinglePass Unit
  iteration : Nat → SinglePass Unit
  loopJump : Jump → SinglePass Unit
  giveBack : Nat → SinglePass Unit
  expression : Nat → SinglePass Ty
  operand : Nat → SinglePass Ty
  primary : Nat → SinglePass Ty
  assignment : Nat → String → Span → SinglePass Ty
  call : Nat → String → Span → SinglePass Ty
  arguments : Nat → SinglePass (List (Ty × Span))
  libraryCall : Nat → Library → SinglePass Ty

namespace SinglePass

/-- Operators that wait and the types of the operands, the last one first. -/
structure Unfinished where
  operators : OperatorStack Span
  types : List Ty

section

variable (keeping : Keeping) (limit : Nat) (calls : Routines) (rank : Nat)

/-- One sign before an operand, if there is one. -/
def negation (operators : OperatorStack Span) :
    SinglePass (OperatorStack Span ⊕ OperatorStack Span) := do
  match ← eat (.mark .minus) with
  | some span => return .inl (operators.push .negate span)
  | none => return .inr operators

/-- Signs and an operand, and the operator before the next operand or the end of the expression. An
operator is applied when one comes that does not bind tighter. -/
def operandAndOperator (before : Unfinished) : SinglePass (Unfinished ⊕ Ty) := do
  let operators ← repeatUntil negation before.operators
  let ty ← calls.operand rank
  let types := ty :: before.types
  let token ← peek
  match Operator.binary? token.kind with
  | some op =>
    let _ ← next
    let types ← (operators.before op).foldlM reduce types
    return .inl ⟨(operators.after op).push op token.span, types⟩
  | none =>
    match ← operators.applicable.foldlM reduce types with
    | [ty] => return .inr ty
    | _ => alarm .operands

/-- An expression. Its code is written, and its type is told. -/
def expression : SinglePass Ty :=
  repeatUntil (operandAndOperator calls rank) ⟨.empty, []⟩

/-- One cast of an operand, if there is one. -/
def cast (ty : Ty) : SinglePass (Ty ⊕ Ty) := do
  match ← eat (.keyword .asWord) with
  | some span =>
    let (target, _) ← expectType
    refuse (ty = .void ∨ target = .void) .typeMismatch span
    write (castCode ty target)
    return .inl target
  | none => return .inr ty

/-- An operand with its casts. -/
def operand : SinglePass Ty := do
  let ty ← calls.primary rank
  repeatUntil cast ty

/-- What begins with a name: an assignment, a call or a variable. -/
def named (name : String) (span : Span) : SinglePass Ty := do
  let token ← peek
  match token.kind with
  | .mark .assign => calls.assignment rank name span
  | .mark .openParen => calls.call rank name span
  | _ =>
    let source ← resolve keeping rank name span
    write [source.place.instruction, .plain .load64]
    return source.ty

/-- An expression in parentheses, after the opening one. -/
def parenthesized (opening : Span) : SinglePass Ty := do
  enter keeping limit opening
  let ty ← calls.expression rank
  let _ ← expect (.mark .closeParen)
  leave
  return ty

/-- An operand without its casts. -/
def primary : SinglePass Ty := do
  let token ← next
  match token.kind with
  | .identifier _ =>
    let name ← slice token.span
    named keeping calls rank name token.span
  | .uint value =>
    write [.push value]
    return .int
  | .double bits =>
    write [.push bits]
    return .double
  | .char value =>
    write [.push (UInt64.ofNat value.toNat)]
    return .int
  | .mark .openParen => parenthesized keeping limit calls rank token.span
  | _ => fail .unexpectedToken token.span

/-- An assignment, after its target. -/
def assignment (name : String) (span : Span) : SinglePass Ty := do
  let target ← resolve keeping rank name span
  refuse target.isConst .changeConst span
  let sign ← expect (.mark .assign)
  write [target.place.instruction]
  enter keeping limit sign
  let ty ← calls.expression rank
  leave
  refuse (ty ≠ target.ty) .typeMismatch sign
  write [.plain .store64]
  markInitialized target
  return .void

/-- One argument of a call, and whether another one follows. -/
def argument (before : List (Ty × Span)) :
    SinglePass (List (Ty × Span) ⊕ List (Ty × Span)) := do
  let start ← peek
  let ty ← calls.expression rank
  let arguments := before ++ [(ty, start.span)]
  match ← eat (.mark .comma) with
  | some _ => return .inl arguments
  | none => return .inr arguments

/-- The arguments of a call in parentheses: their types and where they start. -/
def arguments : SinglePass (List (Ty × Span)) := do
  let opening ← expect (.mark .openParen)
  enter keeping limit opening
  let isEmpty ← check (.mark .closeParen)
  let types ← (if isEmpty then pure [] else repeatUntil (argument calls rank) [])
  let _ ← expect (.mark .closeParen)
  leave
  return types

/-- Compares arguments with parameters, first their number and then their types. -/
def matchParams (arguments : List (Ty × Span)) (params : List Param) (span : Span) :
    SinglePass Unit := do
  refuse (arguments.length ≠ params.length) .wrongArgumentCount span
  match (arguments.zip params).find? fun pair => pair.1.1 != pair.2.ty with
  | some pair => fail .typeMismatch pair.1.2
  | none => return ()

/-- What a library function takes. -/
def libraryArgument (opening : Span) : Library.Argument → SinglePass Unit
  | .nothing => pure ()
  | .value expected => do
    let start ← peek
    refuse (start.kind = .mark .closeParen) .typeMismatch start.span
    enter keeping limit opening
    let ty ← calls.expression rank
    leave
    refuse (ty ≠ expected) .typeMismatch start.span
  | .text => do
    let token ← next
    match token.kind with
    | .string _ =>
      let text ← slice token.span
      let value := String.ofList (Literal.stringValue text.toList)
      let address ← register keeping (.text value)
      write [.push (UInt64.ofNat address)]
    | _ => fail .typeMismatch token.span

/-- A call of a library function, after its name. -/
def libraryCall (function : Library) : SinglePass Ty := do
  let address ← register keeping (.library function)
  write [.indexed .stackalloc (UInt32.ofNat function.returnType.slots)]
  let opening ← expect (.mark .openParen)
  libraryArgument keeping limit calls rank opening function.argument
  let _ ← expect (.mark .closeParen)
  write [.indexed .callname (UInt32.ofNat address)]
  return function.returnType

/-- A call, after the name of the function. -/
def call (name : String) (span : Span) : SinglePass Ty :=
  match Library.ofName? name with
  | some function => calls.libraryCall rank function
  | none => do
    let signature ← callee name span
    write [.indexed .stackalloc (UInt32.ofNat signature.returnType.slots)]
    let types ← calls.arguments rank
    matchParams types signature.params span
    write [.indexed .call (UInt32.ofNat signature.address)]
    return signature.returnType

/-- The word that a declaration begins with. Tells whether it is one of a constant. -/
def declarationWord : SinglePass Bool := do
  let token ← next
  match token.kind with
  | .keyword .letWord => return false
  | .keyword .constWord => return true
  | _ => fail .unexpectedToken token.span

/-- The name and the type of a declaration, which puts the symbol into sight. -/
def declaredSymbol (isConst : Bool) : SinglePass Symbol := do
  let (name, span) ← expectIdentifier
  let taken ← isTaken keeping rank name
  refuse taken .duplicateDeclaration span
  let _ ← expect (.mark .colon)
  let ty ← expectValueType
  let slot ← allocate keeping rank
  let symbol : Symbol := ⟨name, ty, isConst, false, slot, rank⟩
  declare symbol span
  publish keeping symbol
  return symbol

/-- The sign before an initializer. A constant must have one. -/
def initializerSign (isConst : Bool) : SinglePass (Option Span) :=
  if isConst then some <$> expect (.mark .assign) else eat (.mark .assign)

/-- The first value of a declared symbol, if it is given one. -/
def initializer (symbol : Symbol) : SinglePass Unit := do
  match ← initializerSign symbol.isConst with
  | some sign =>
    write [symbol.place.instruction]
    let ty ← calls.expression rank
    refuse (ty ≠ symbol.ty) .typeMismatch sign
    write [.plain .store64]
    markInitialized symbol.toVariable
  | none => return ()

/-- A declaration of a variable or a constant. -/
def declaration : SinglePass Unit := do
  let isConst ← declarationWord
  let symbol ← declaredSymbol keeping rank isConst
  initializer calls rank symbol
  let _ ← expect (.mark .semicolon)

/-- The value that is given back, if there is one. -/
def returnedValue (span : Span) : SinglePass Unit := do
  let b ← get
  let expected := b.desk.target.returnType
  if ← check (.mark .semicolon) then
    refuse (expected ≠ .void) .typeMismatch span
  else
    let ty ← calls.expression rank
    refuse (ty = .void ∨ ty ≠ expected) .typeMismatch span
    write [.plain .store64]

/-- A return. -/
def giveBack : SinglePass Unit := do
  let span ← expect (.keyword .returnWord)
  write [.indexed .arga 0]
  returnedValue calls rank span
  onDesk fun desk => .ok ((), { desk with target := { desk.target with returned := true } })
  write [.plain .ret]
  let _ ← expect (.mark .semicolon)

/-- A jump out of the innermost loop or back to its test. -/
def loopJump (jump : Jump) : SinglePass Unit := do
  let token ← next
  let b ← get
  refuse (b.desk.loops.isEmpty) .invalidIdentifier token.span
  let site ← placeholder
  onDesk fun desk => .ok ((), desk.note (.one jump site))
  let _ ← expect (.mark .semicolon)

/-- An expression as a statement. A value that it leaves is dropped. -/
def evaluation : SinglePass Unit := do
  let ty ← calls.expression rank
  write (if ty = .void then [] else [.indexed .popn 1])
  let _ ← expect (.mark .semicolon)

/-- A block inside. -/
def innerBlock : SinglePass Unit := do
  let deeper ← keep keeping (rank + 1)
  let _ ← calls.block deeper

/-- A statement. -/
def statement : SinglePass Unit := do
  let token ← peek
  match token.kind with
  | .keyword .letWord => calls.declaration rank
  | .keyword .constWord => calls.declaration rank
  | .keyword .ifWord => calls.conditional rank
  | .keyword .whileWord => calls.iteration rank
  | .keyword .returnWord => calls.giveBack rank
  | .keyword .breakWord => calls.loopJump .leave
  | .keyword .continueWord => calls.loopJump .again
  | .mark .openBrace => innerBlock keeping calls rank
  | .mark .semicolon =>
    let _ ← next
  | _ => evaluation calls rank

/-- A statement, or the end of the block. -/
def statementOrEnd (_ : Unit) : SinglePass (Unit ⊕ Unit) := do
  if ← check (.mark .closeBrace) then return .inr ()
  else
    calls.statement rank
    return .inl ()

/-- Statements in braces. Tells where the closing one stands. -/
def block : SinglePass Span := do
  let opening ← expect (.mark .openBrace)
  enter keeping limit opening
  repeatUntil (statementOrEnd calls rank) ()
  let closing ← expect (.mark .closeBrace)
  modify fun b => { b with symbols := b.symbols.dropRank rank }
  leave
  return closing

/-- A test and the branch over the next instruction. -/
def test (span : Span) : SinglePass Unit := do
  let ty ← calls.expression rank
  refuse (ty = .void) .typeMismatch span
  write [.branch .onTrue 1]

/-- The other part of a conditional, if there is one. -/
def alternative : SinglePass Unit := do
  match ← eat (.keyword .elseWord) with
  | some _ =>
    if ← check (.keyword .ifWord) then calls.conditional rank
    else innerBlock keeping calls rank
  | none => return ()

/-- A conditional. The branches around its parts get their targets when these are known. -/
def conditional : SinglePass Unit := do
  let span ← expect (.keyword .ifWord)
  enter keeping limit span
  test calls rank span
  let skipYes ← placeholder
  innerBlock keeping calls rank
  let skipNo ← placeholder
  patch keeping skipYes (← position)
  alternative keeping calls rank
  patch keeping skipNo (← position)
  leave

/-- A step inside a loop. The loop ends also when the step fails. -/
def insideLoop (recheck : Nat) (step : SinglePass Unit) : SinglePass Jumps := fun b =>
  match step { b with desk := b.desk.openLoop recheck } with
  | .ok _ b => onDesk (·.closeLoop recheck) b
  | .error stop b =>
    match onDesk (·.closeLoop recheck) b with
    | .ok _ b => .error stop b
    | .error stop b => .error stop b

/-- A loop. The branches that leave it or start it over get their targets at its end. -/
def iteration : SinglePass Unit := do
  let span ← expect (.keyword .whileWord)
  enter keeping limit span
  let start ← placeholder
  let recheck ← position
  patch keeping start recheck
  test calls rank span
  let exit ← placeholder
  let jumps ← insideLoop recheck (innerBlock keeping calls rank)
  let back ← placeholder
  patch keeping back recheck
  let after ← position
  patch keeping exit after
  patchAll keeping jumps.leaving after
  patchAll keeping jumps.repeating recheck
  leave

/-- One parameter of a function, and whether another one follows. -/
def param (before : Signature) : SinglePass (Signature ⊕ Signature) := do
  let const ← eat (.keyword .constWord)
  let (name, span) ← expectIdentifier
  let _ ← expect (.mark .colon)
  let ty ← expectValueType
  let _ ← param? keeping before name
  let signature ← orFail (before.addParam ⟨name, const.isSome, ty⟩ span)
  match ← eat (.mark .comma) with
  | some _ => return .inl signature
  | none => return .inr signature

/-- The parameters of a function in parentheses. -/
def params (before : Signature) : SinglePass Signature := do
  let _ ← expect (.mark .openParen)
  let isEmpty ← check (.mark .closeParen)
  let signature ← (if isEmpty then pure before else repeatUntil (param keeping) before)
  let _ ← expect (.mark .closeParen)
  return signature

/-- A function up to its body. Its name gets an address before its parameters are read. -/
def functionHead : SinglePass Signature := do
  let _ ← expect (.keyword .fnWord)
  let (name, span) ← expectIdentifier
  let b ← get
  refuse (Analysis.isTakenForFunction b.directory name) .duplicateDeclaration span
  let address ← register keeping (.routine name)
  let signature ← params keeping ⟨name, address, [], .void⟩
  let _ ← expect (.mark .arrow)
  let (returned, _) ← expectType
  return { signature with returnType := returned }

/-- Begins a function, and puts the one at hand aside. -/
def openFunction (signature : Signature) : SinglePass Desk :=
  modifyGet fun b => (b.desk, { b with
    frame := ⟨0⟩
    desk := { b.desk with target := .ofSignature signature ⟨0⟩, waiting := ∅ } })

/-- Ends the function at hand, whose branches must all have their targets, and goes on with the one
that was put aside. -/
def closeFunction (outer : Desk) (closing : Span) : SinglePass Unit := do
  let b ← get
  if b.desk.waiting ≠ ∅ then alarm .openBranch
  else
    match b.desk.finish? b.frame with
    | some routine => set { b with
        routines := b.routines ++ [routine]
        desk := { b.desk with target := outer.target, waiting := outer.waiting } }
    | none => fail .notAllRoutesReturn closing

/-- A function. -/
def function : SinglePass Unit := do
  let signature ← functionHead keeping
  let outer ← openFunction signature
  let closing ← calls.block 1
  closeFunction outer closing

/-- A function or a declaration, or the end of the program. -/
def itemOrEnd (_ : Unit) : SinglePass (Unit ⊕ Unit) := do
  let token ← peek
  match token.kind with
  | .keyword .fnWord => Sum.inl <$> calls.function
  | .keyword .letWord => Sum.inl <$> calls.declaration 0
  | .keyword .constWord => Sum.inl <$> calls.declaration 0
  | .eof => return .inr ()
  | _ => fail .unexpectedToken token.span

/-- Ends the entry function with a call of the main function, and with it the program. -/
def finish (eof : Span) : SinglePass Program := do
  let b ← get
  match b.routines.find? (·.name == mainName) with
  | some main =>
    write [.indexed .stackalloc (UInt32.ofNat main.returnSlots),
      .indexed .call (UInt32.ofNat main.address)]
    let address ← register keeping (.routine entryName)
    let b ← get
    if b.desk.waiting ≠ ∅ then alarm .openBranch
    else return ⟨b.directory, b.globals, b.routines ++ [{ b.desk.target with address }]⟩
  | none => fail .notDeclared eof

/-- A whole program. -/
def program : SinglePass Program := do
  repeatUntil (itemOrEnd calls) ()
  let eof ← expect .eof
  finish keeping eof

end

end SinglePass

/-- No call is allowed. -/
def Routines.none : Routines where
  program := SinglePass.alarm .endless
  function := SinglePass.alarm .endless
  block _ := SinglePass.alarm .endless
  statement _ := SinglePass.alarm .endless
  declaration _ := SinglePass.alarm .endless
  conditional _ := SinglePass.alarm .endless
  iteration _ := SinglePass.alarm .endless
  loopJump _ := SinglePass.alarm .endless
  giveBack _ := SinglePass.alarm .endless
  expression _ := SinglePass.alarm .endless
  operand _ := SinglePass.alarm .endless
  primary _ := SinglePass.alarm .endless
  assignment _ _ _ := SinglePass.alarm .endless
  call _ _ _ := SinglePass.alarm .endless
  arguments _ := SinglePass.alarm .endless
  libraryCall _ _ := SinglePass.alarm .endless

open SinglePass in
/-- The routines when at most so many calls may be active at once. -/
def routines (keeping : Keeping) (limit : Nat) : Nat → Routines
  | 0 => .none
  | active + 1 =>
    let calls := routines keeping limit active
    { program := program keeping calls
      function := function keeping calls
      block := block keeping limit calls
      statement := statement keeping calls
      declaration := declaration keeping calls
      conditional := conditional keeping limit calls
      iteration := iteration keeping limit calls
      loopJump := loopJump
      giveBack := giveBack calls
      expression := expression calls
      operand := operand calls
      primary := primary keeping limit calls
      assignment := assignment keeping limit calls
      call := call calls
      arguments := arguments keeping limit calls
      libraryCall := libraryCall keeping limit calls }

/-- What a single pass over a source comes to, and the bench that it leaves, if its numbers are kept
in some way and at most so many calls of its routines are active at once. -/
def passOver (keeping : Keeping) (active : Nat) (source : String) (options : Options) :
    Except Stop Program × Bench :=
  match (routines keeping options.maxNestingDepth active).program (.ofSource source) with
  | .ok program b => (.ok program, b)
  | .error stop b => (.error stop, b)

/-- The calls of the routines that a limit leaves room for. -/
def Options.activeCalls (options : Options) : Nat :=
  8 * (options.maxNestingDepth + 2)

/-- What a single pass over a source comes to, and the bench that it leaves. -/
def singlePass (source : String) (options : Options) : Except Stop Program × Bench :=
  passOver .exact options.activeCalls source options

/-- What a single pass over a source comes to that keeps its numbers in words. -/
def wordPass (source : String) (options : Options) : Except Stop Program :=
  (passOver .words options.activeCalls source options).1

end C0
