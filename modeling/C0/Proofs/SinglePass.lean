import C0.Compile
import C0.Proofs.Assembly
import C0.Proofs.Bytes
import C0.Token.Cursor
import Mathlib.Data.Finset.Basic

namespace C0

/-- What must never happen in a single pass. -/
inductive Alarm where
  /-- A text is cut out of the source that is not there or does not end between characters. -/
  | slice
  /-- A target is given to something that is no open branch, or that was given one before. -/
  | patch
  /-- A function is finished while a branch in it has no target. -/
  | openBranch
  /-- An operator finds too few operands, or an expression does not end with exactly one. -/
  | operands
  /-- A level is left that was not entered. -/
  | depth
  /-- The loop that ends is not the one that began. -/
  | loop
  /-- Something goes on for longer or nests deeper than the source and the limit allow. -/
  | endless
  /-- A number is not the one that is kept of it. -/
  | overflow
  deriving DecidableEq, Repr

/-- Why a single pass stops without a program. -/
inductive Stop where
  | fault (fault : Diagnostic)
  | alarm (alarm : Alarm)
  deriving DecidableEq, Repr

/-- A loop around the place at hand: the position of its test and the branches in it that wait for
its end. -/
structure OpenLoop where
  recheck : Nat
  jumps : Jumps

/-- A single branch that waits for the end of its loop. -/
def Jumps.one : Jump → Nat → Jumps
  | .leave, site => ⟨[site], []⟩
  | .again, site => ⟨[], [site]⟩

/-- The function that is being written. -/
@[ext] structure Desk where
  target : Routine
  /-- The branches in the function that have no target yet. -/
  waiting : Finset Nat
  /-- The loops around the place at hand, the innermost first. -/
  loops : List OpenLoop
  /-- How many levels were entered and not left. -/
  depth : Nat

namespace Desk

/-- Adds instructions. -/
def write (desk : Desk) (code : List Instruction) : Desk :=
  { desk with target := desk.target.append code }

/-- Adds a branch without a target and tells its position. -/
def placeholder (desk : Desk) : Nat × Desk :=
  let (site, target) := desk.target.placeholder
  (site, { desk with target, waiting := insert site desk.waiting })

/-- Gives a branch its target. It must be there and must not have one. -/
def patch (desk : Desk) (site target : Nat) : Except Alarm Desk :=
  if site ∈ desk.waiting ∧ desk.target.code[site]? = some openBranch then
    .ok { desk with target := desk.target.patch site target, waiting := desk.waiting.erase site }
  else .error .patch

/-- Gives branches the same target, one after the other. -/
def patchAll (desk : Desk) (sites : List Nat) (target : Nat) : Except Alarm Desk :=
  sites.foldlM (fun desk site => desk.patch site target) desk

/-- Goes one level further in. -/
def deeper (desk : Desk) : Desk :=
  { desk with depth := desk.depth + 1 }

/-- Goes one level back. -/
def leave (desk : Desk) : Except Alarm Desk :=
  if desk.depth = 0 then .error .depth else .ok { desk with depth := desk.depth - 1 }

/-- Begins a loop. -/
def openLoop (desk : Desk) (recheck : Nat) : Desk :=
  { desk with loops := ⟨recheck, .none⟩ :: desk.loops }

/-- Ends the loop with a test at a position, and tells which branches waited for that. -/
def closeLoop (desk : Desk) (recheck : Nat) : Except Alarm (Jumps × Desk) :=
  match desk.loops with
  | [] => .error .loop
  | loop :: loops =>
    if loop.recheck = recheck then .ok (loop.jumps, { desk with loops }) else .error .loop

/-- Lets branches wait for the end of the innermost loop. -/
def note (desk : Desk) (jumps : Jumps) : Desk :=
  { desk with loops := desk.loops.modifyHead fun loop =>
      { loop with jumps := loop.jumps.append jumps } }

/-- The function at its end, if its body does not run past it without a value. -/
def finish? (desk : Desk) (frame : Frame) : Option Routine :=
  { desk.target with toFrame := frame }.finish?

end Desk

/-- What a single pass has before it and what it has made so far. -/
structure Bench where
  source : String
  cursor : Cursor
  /-- The lexemes that were taken, in their order. -/
  taken : List Lexeme
  directory : Directory
  globals : List GlobalVariable
  symbols : SymbolTable
  /-- The local slots of the function at hand. -/
  frame : Frame
  /-- The functions that are finished. -/
  routines : List Routine
  desk : Desk

/-- The start of a single pass over a source. The entry function is at hand. -/
def Bench.ofSource (source : String) : Bench where
  source
  cursor := .ofSource source
  taken := []
  directory := .empty
  globals := []
  symbols := .empty
  frame := ⟨0⟩
  routines := []
  desk := ⟨.ofSignature Analysis.globalScope.signature ⟨0⟩, ∅, [], 0⟩

/-- How many lexemes of the source were not taken. -/
def Bench.unread (b : Bench) : Nat :=
  (lexemes b.source).length - b.taken.length

/-- Gives an entry an address. -/
def Bench.register (b : Bench) (entry : Entry) : Nat × Bench :=
  let (address, directory) := b.directory.register entry
  (address, { b with directory })

/-- A new slot for a variable of a rank. -/
def Bench.allocate (b : Bench) (rank : Nat) : Nat × Bench :=
  if rank = 0 then (b.symbols.globalCount, b)
  else
    let (slot, frame) := b.frame.allocate
    (slot, { b with frame })

/-- How a pass keeps its numbers: what it reads back of a number, and of the offset of a branch. -/
structure Keeping where
  number : Nat → Nat
  offset : Int → Int

/-- Numbers are kept as they are. -/
def Keeping.exact : Keeping :=
  ⟨id, id⟩

/-- Numbers are kept in words of 32 bits, and offsets in words with a sign. -/
def Keeping.words : Keeping :=
  ⟨fun number => (UInt32.ofNat number).toNat, fun offset => (Int32.ofInt offset).toInt⟩

/-- A step of a compiler that reads the source as it goes and writes code at once. Where something
happens that must not, it raises an alarm. -/
abbrev SinglePass := EStateM Stop Bench

/-- A token and the stretch of source that it covers. -/
structure SourceToken where
  kind : Kind
  span : Span

namespace SinglePass

variable {α β : Type}

/-- A run of two steps, in one equation. -/
theorem bind_eq (c : SinglePass α) (g : α → SinglePass β) (b : Bench) :
    (c >>= g) b = match c b with
      | .ok x b' => g x b'
      | .error stop b' => .error stop b' := by
  change EStateM.bind c g b = _
  unfold EStateM.bind
  cases c b <;> rfl

/-- Blames a stretch of source. -/
def fail (cause : Cause) (span : Span) : SinglePass α :=
  throw (.fault ⟨cause, span⟩)

/-- Blames a stretch of source if something bad holds. -/
def refuse (bad : Prop) [Decidable bad] (cause : Cause) (span : Span) : SinglePass Unit :=
  if bad then fail cause span else pure ()

/-- The outcome of a check. -/
def orFail (checked : Except Diagnostic α) : SinglePass α :=
  match checked with
  | .ok value => pure value
  | .error fault => throw (.fault fault)

/-- Raises an alarm. -/
def alarm (alarm : Alarm) : SinglePass α :=
  throw (.alarm alarm)

/-- Looks at the next token. -/
def peek : SinglePass SourceToken := fun b =>
  let (lexeme, cursor) := b.cursor.peek
  match lexeme.reading with
  | .ok kind => .ok ⟨kind, lexeme.span⟩ { b with cursor }
  | .error cause => .error (.fault ⟨cause, lexeme.span⟩) { b with cursor }

/-- Takes the next token. -/
def next : SinglePass SourceToken := fun b =>
  let (lexeme, cursor) := b.cursor.next
  match lexeme.reading with
  | .ok kind => .ok ⟨kind, lexeme.span⟩ { b with cursor, taken := b.taken ++ [lexeme] }
  | .error cause => .error (.fault ⟨cause, lexeme.span⟩) { b with cursor }

/-- Whether the next token is of a kind. -/
def check (kind : Kind) : SinglePass Bool := do
  let token ← peek
  return token.kind == kind

/-- Takes the next token if it is of a kind, and tells where it stands. -/
def eat (kind : Kind) : SinglePass (Option Span) := do
  if ← check kind then
    let token ← next
    return some token.span
  else return none

/-- Takes a token of a kind, and tells where it stands. -/
def expect (kind : Kind) : SinglePass Span := do
  let token ← next
  refuse (token.kind ≠ kind) .unexpectedToken token.span
  return token.span

/-- The text of a token. It is cut out of the source. -/
def slice (span : Span) : SinglePass String := do
  let b ← get
  if span.Fits b.source then return span.text b.source else alarm .slice

/-- Takes an identifier: its text and where it stands. -/
def expectIdentifier : SinglePass (String × Span) := do
  let token ← next
  match token.kind with
  | .identifier _ => return (← slice token.span, token.span)
  | _ => fail .unexpectedToken token.span

/-- Takes the name of a type. -/
def expectType : SinglePass (Ty × Span) := do
  let token ← next
  match token.kind with
  | .type ty => return (ty, token.span)
  | _ => fail .unexpectedToken token.span

/-- Takes the name of a type that has values. -/
def expectValueType : SinglePass Ty := do
  let (ty, span) ← expectType
  refuse (ty = .void) .typeMismatch span
  return ty

/-- A step on the function that is being written. -/
def onDesk (step : Desk → Except Alarm (α × Desk)) : SinglePass α := fun b =>
  match step b.desk with
  | .ok (a, desk) => .ok a { b with desk }
  | .error alarm => .error (.alarm alarm) b

/-- Adds instructions to the function at hand. -/
def write (code : List Instruction) : SinglePass Unit :=
  onDesk fun desk => .ok ((), desk.write code)

/-- Adds a branch without a target and tells its position. -/
def placeholder : SinglePass Nat :=
  onDesk fun desk => .ok desk.placeholder

/-- The position of the next instruction. -/
def position : SinglePass Nat :=
  onDesk fun desk => .ok (desk.target.nextPosition, desk)

/-- Goes one level back. -/
def leave : SinglePass Unit :=
  onDesk fun desk => desk.leave.map ((), ·)

/-- Repeats a step at most so many times, until it gives a result. -/
def repeatAtMost (step : α → SinglePass (α ⊕ β)) : Nat → α → SinglePass β
  | 0, _ => alarm .endless
  | n + 1, value => do
    match ← step value with
    | .inl value => repeatAtMost step n value
    | .inr result => return result

/-- Repeats a step until it gives a result. It may start over once for each token that is left. -/
def repeatUntil (step : α → SinglePass (α ⊕ β)) (value : α) : SinglePass β := do
  let b ← get
  repeatAtMost step (b.unread + 1) value

/-- The function of a name: the one at hand, or a finished one. -/
def callee (name : String) (span : Span) : SinglePass Signature := do
  let b ← get
  if b.desk.target.name = name ∧ name ≠ entryName then return b.desk.target.toSignature
  else
    match b.routines.find? (·.name == name) with
    | some routine => return routine.toSignature
    | none => fail .notDeclared span

/-- Notes that a variable has a value. -/
def markInitialized (v : Variable) : SinglePass Unit :=
  match v.rank with
  | some rank => modify fun b => { b with symbols := b.symbols.markInitialized v.name rank }
  | none => pure ()

/-- Puts a symbol into sight. -/
def declare (symbol : Symbol) (span : Span) : SinglePass Unit := do
  let b ← get
  let symbols ← orFail (b.symbols.declare symbol span)
  modify fun b => { b with symbols }

section

variable (keeping : Keeping)

/-- Keeps a number. -/
def keep (number : Nat) : SinglePass Nat :=
  let kept := keeping.number number
  if kept = number then return kept else alarm .overflow

/-- Exact numbers are kept as they are. -/
@[simp] theorem keep_exact (number : Nat) : keep .exact number = pure number :=
  if_pos rfl

/-- Keeps the offset of a branch. With what is kept the branch must lead to its target. -/
def keepOffset (site target : Nat) : SinglePass Unit :=
  let offset : Int := target - site - 1
  let kept := keeping.offset offset
  if kept = offset ∧ site + 1 + kept = target then return () else alarm .overflow

@[simp] theorem keepOffset_exact (site target : Nat) : keepOffset .exact site target = pure () := by
  have leads : (site : Int) + 1 + ((target : Int) - site - 1) = target := by omega
  exact if_pos ⟨rfl, leads⟩

/-- Gives a branch its target. -/
def patch (site target : Nat) : SinglePass Unit := do
  keepOffset keeping site target
  onDesk fun desk => (desk.patch site target).map ((), ·)

/-- Gives branches the same target. -/
def patchAll (sites : List Nat) (target : Nat) : SinglePass Unit := do
  sites.forM (keepOffset keeping · target)
  onDesk fun desk => (desk.patchAll sites target).map ((), ·)

/-- With exact numbers, no distance is too long for a jump. -/
@[simp] theorem patchAll_exact (sites : List Nat) (target : Nat) : patchAll .exact sites target =
    onDesk fun desk => (desk.patchAll sites target).map ((), ·) := by
  have kept : sites.forM (keepOffset .exact · target) = pure () := by
    induction sites with
    | nil => rfl
    | cons site sites ih => rw [List.forM, keepOffset_exact, pure_bind, ih]
  rw [patchAll, kept, pure_bind]

/-- Goes one level further in, if the limit leaves one. -/
def enter (limit : Nat) (span : Span) : SinglePass Unit := do
  let b ← get
  refuse (limit ≤ b.desk.depth) .nestingTooDeep span
  onDesk fun desk => .ok ((), desk.deeper)
  let b ← get
  let _ ← keep keeping b.desk.depth

/-- Gives an entry an address. -/
def register (entry : Entry) : SinglePass Nat := do
  let address ← modifyGet fun b => b.register entry
  keep keeping address

/-- The parameter of a name and its place among the parameters. -/
def param? (signature : Signature) (name : String) : SinglePass (Option (Nat × Param)) :=
  match signature.param? name with
  | some (index, param) => do return some (← keep keeping index, param)
  | none => return none

@[simp] theorem param?_exact (signature : Signature) (name : String) :
    param? .exact signature name = pure (signature.param? name) := by
  unfold param?
  cases signature.param? name with
  | none => rfl
  | some place => simp only [keep_exact, pure_bind]

/-- The variable of a name: a local of the blocks around, else a parameter of the function at hand,
else a global. -/
def resolve (rank : Nat) (name : String) (span : Span) : SinglePass Variable := do
  let b ← get
  match b.symbols.lookupLocal? name rank with
  | some symbol => return symbol.toVariable
  | none =>
    match ← param? keeping b.desk.target.toSignature name with
    | some (index, param) =>
      let offset ← keep keeping (b.desk.target.paramOffset index)
      return ⟨name, param.ty, param.isConst, .argument offset, none⟩
    | none =>
      match b.symbols.lookupGlobal? name with
      | some symbol => return symbol.toVariable
      | none => fail .notDeclared span

/-- Whether a name cannot be declared at a rank because something else has it. -/
def isTaken (rank : Nat) (name : String) : SinglePass Bool := do
  let b ← get
  if rank = 0 then return name == entryName || b.directory.containsName name
  else return (← param? keeping b.desk.target.toSignature name).isSome

/-- A new slot for a variable. The number of slots is kept too. -/
def allocate (rank : Nat) : SinglePass Nat := do
  let slot ← modifyGet fun b => b.allocate rank
  let b ← get
  let _ ← keep keeping b.frame.locals
  keep keeping slot

/-- Makes a global known to the program. -/
def publish (symbol : Symbol) : SinglePass Unit := do
  if symbol.rank = 0 then
    let _ ← register keeping (.global symbol.name)
    modify fun b => { b with globals := b.globals ++ [⟨symbol.name, symbol.isConst⟩] }
  else return ()

end

/-- Adds the instructions of an operator. -/
def apply (op : Operator) (ty : Ty) (span : Span) : SinglePass Ty := do
  match op.instructions? ty with
  | some code =>
    write code
    return op.resultType ty
  | none => fail .typeMismatch span

/-- Applies an operator to the types of the last operands. -/
def reduce (types : List Ty) (operator : Operator × Span) : SinglePass (List Ty) := do
  let (op, span) := operator
  if op.isUnary then
    match types with
    | operand :: rest =>
      let ty ← apply op operand span
      return ty :: rest
    | [] => alarm .operands
  else
    match types with
    | right :: left :: rest =>
      refuse (left ≠ right) .typeMismatch span
      let ty ← apply op left span
      return ty :: rest
    | _ => alarm .operands

end SinglePass

end C0
