import C0.Proofs.SinglePass.Branches
import C0.Proofs.SinglePass.Mirror
import C0.Proofs.SinglePass.Routines

namespace C0

namespace Desk

variable (desk : Desk)

@[simp] theorem write_nil : desk.write [] = desk := by
  simp [write, Routine.append]

@[simp] theorem write_write (first rest : List Instruction) :
    (desk.write first).write rest = desk.write (first ++ rest) := by
  have joined : desk.target.code ++ first ++ rest = desk.target.code ++ (first ++ rest) :=
    Array.toList_inj.mp (by simp)
  simp only [write, Routine.append, joined]

end Desk

namespace Expr

/-- Arguments are put down one after another. -/
theorem codeAll_append (first rest : List Expr) :
    codeAll (first ++ rest) = codeAll first ++ codeAll rest := by
  induction first with
  | nil => rfl
  | cons e first ih => simp [codeAll, ih]

theorem codeAll_concat (before : List Expr) (e : Expr) :
    codeAll (before ++ [e]) = codeAll before ++ e.code := by
  simp [codeAll_append, codeAll]

end Expr

namespace SinglePass

/-- The desk is one on which the code of a scope is written. -/
structure Stage (scope : Scope) (depth : Nat) (desk : Desk) : Prop where
  signature : desk.target.toSignature = scope.signature
  inLoop : scope.inLoop = !desk.loops.isEmpty
  waiting : desk.Open
  depth : desk.depth = depth

namespace Stage

variable {scope : Scope} {depth : Nat} {desk : Desk}

/-- Code changes nothing that the names in scope are about. -/
theorem write (stage : Stage scope depth desk) (code : List Instruction) :
    Stage scope depth (desk.write code) where
  signature := stage.signature
  inLoop := stage.inLoop
  waiting := stage.waiting.write code
  depth := stage.depth

/-- A stage may be a level below. -/
theorem deeper (stage : Stage scope depth desk) : Stage scope (depth + 1) desk.deeper where
  signature := stage.signature
  inLoop := stage.inLoop
  waiting := stage.waiting
  depth := congrArg (· + 1) stage.depth

end Stage

/-- An expression is read and written at once where a scope is written at a depth. Its code is
added, and its type is told. -/
def WritesExpr (source : String) (depth : Nat) (scope : Scope) (m : Analysis Expr)
    (c : SinglePass Ty) : Prop :=
  ∀ ⦃desk⦄, Stage scope depth desk →
    Mirrors source (At desk) m c (Yields Expr.ty fun e => desk.write e.code)

/-- A reader of expressions takes tokens, and writes them at a depth. -/
structure MirrorsExpr (source : String) (depth : Nat) (reader : Scope → Analysis Expr)
    (writer : Nat → SinglePass Ty) : Prop where
  forward : ∀ scope, Analysis.Forward (reader scope)
  mirrors : ∀ {scope}, WritesExpr source depth scope (reader scope) (writer scope.rank)

section

variable {source : String} {scope : Scope} {depth : Nat} {desk : Desk}

theorem register_mirrors (entry : Entry) : Mirrors source (At desk) (Analysis.register entry)
    (register .exact entry) (Yields id fun _ => desk) := by
  simp only [register, keep_exact, bind_pure]
  refine .modifyGet (fun s b serves => ?_) fun _ => rfl
  rw [Bench.register, serves.directory]
  exact ⟨rfl, { serves with directory := rfl }⟩

/-- A name means the same in both. -/
theorem resolve_mirrors (stage : Stage scope depth desk) (name : String) (site : Nat) :
    Mirrors source (At desk) (Analysis.resolve scope name site)
      (resolve .exact scope.rank name (locate source site)) (Yields id fun _ => desk) := by
  simp only [resolve, param?_exact, keep_exact, pure_bind]
  refine .get_bind fun s b serves starts => ?_
  have done (v : Variable) : Mirrors source (At desk) (pure v) (pure v) (Yields id fun _ => desk) :=
    .pure fun _ _ same => ⟨trivial, rfl, same⟩
  rw [serves.symbols]
  cases s.symbols.lookupLocal? name scope.rank with
  | some symbol => exact done _
  | none =>
    rw [starts, stage.signature]
    cases scope.signature.param? name with
    | some found => exact done _
    | none =>
      cases s.symbols.lookupGlobal? name with
      | some symbol => exact done _
      | none => exact .fail

/-- The routines that are written are those of the checked definitions. -/
theorem find?_routines {s : State} {b : Bench} (serves : Serves source s b) (name : String) :
    b.routines.find? (·.name == name) =
      (s.definitions.find? (·.signature.name == name)).map Definition.routine := by
  have named : ((·.name == name) ∘ Definition.routine) = fun d => d.signature.name == name := by
    funext definition
    have head := (Routine.ofBody?_head definition.laidOut).1
    simp only [Function.comp_apply, head]
  rw [serves.routines, List.find?_map, named]

/-- A call is of the same function in both. -/
theorem callee_mirrors (stage : Stage scope depth desk) (name : String) (site : Nat) :
    Mirrors source (At desk) (Analysis.callee scope name site)
      (callee name (locate source site)) (Yields id fun _ => desk) := by
  unfold Analysis.callee callee
  by_cases own : scope.signature.name = name ∧ name ≠ entryName
  · rw [if_pos own]
    refine .get_left fun b _ same => ?_
    rw [same, stage.signature, if_pos own]
    exact .pure fun _ _ same => ⟨trivial, rfl, same⟩
  · rw [if_neg own]
    refine .get_bind fun s b serves starts => ?_
    rw [starts, stage.signature, if_neg own, find?_routines serves]
    cases s.definitions.find? (·.signature.name == name) with
    | none => exact .fail
    | some definition =>
      have head := (Routine.ofBody?_head definition.laidOut).1
      exact .pure fun _ _ same => ⟨trivial, head, same⟩

theorem markInitialized_mirrors (v : Variable) : Mirrors source (At desk)
    (Analysis.markInitialized v) (markInitialized v) (Yields id fun _ => desk) := by
  unfold Analysis.markInitialized markInitialized
  cases v.rank with
  | none => exact .pure fun _ _ same => ⟨trivial, rfl, same⟩
  | some rank =>
    refine .modify (fun s b serves => ?_) fun _ => rfl
    exact { serves with symbols := by rw [serves.symbols] }

/-- An expression that is a value of its own. -/
theorem leaf_mirrors {e : Expr} {ty : Ty} {code : List Instruction} (typed : e.ty = ty)
    (coded : e.code = code) :
    Mirrors source (At desk) (pure e) (write code >>= fun _ => pure ty)
      (Yields Expr.ty fun e => desk.write e.code) := by
  subst typed coded
  exact .write_bind (.pure fun _ _ same => ⟨trivial, rfl, same⟩)

/-- The types of arguments and where they stand. -/
def located (source : String) (arguments : List (Expr × Nat)) : List (Ty × Span) :=
  arguments.map fun pair => (pair.1.ty, locate source pair.2)

/-- Arguments are read and written at once where a scope is written at a depth. -/
def WritesArguments (source : String) (depth : Nat) (scope : Scope)
    (m : Analysis (List (Expr × Nat))) (c : SinglePass (List (Ty × Span))) : Prop :=
  ∀ ⦃desk⦄, Stage scope depth desk → Mirrors source (At desk) m c
    (Yields (located source) fun values => desk.write (Expr.codeAll (values.map Prod.fst)))

/-- One turn of the argument reader. -/
theorem argument_mirrors {reader : Scope → Analysis Expr} {calls : Routines}
    (proper : MirrorsExpr source depth reader calls.expression) (stage : Stage scope depth desk)
    (before : List (Expr × Nat)) :
    Mirrors source (At (desk.write (Expr.codeAll (before.map Prod.fst))))
      (Analysis.argument scope reader before) (argument calls scope.rank (located source before))
      (Mirrors.Both
        (Yields (located source) fun values => desk.write (Expr.codeAll (values.map Prod.fst)))
        (Yields (located source)
          fun values => desk.write (Expr.codeAll (values.map Prod.fst)))) := by
  refine .peek_bind fun _ start => .facing ((proper.mirrors (stage.write _)).seq fun value =>
    .eat_bind fun comma => ?_)
  have extended : desk.write (Expr.codeAll (List.map Prod.fst (before ++ [(value, start)]))) =
      (desk.write (Expr.codeAll (before.map Prod.fst))).write value.code := by
    rw [Desk.write_write, List.map_append]
    exact congrArg _ (Expr.codeAll_concat _ value)
  have listed : located source (before ++ [(value, start)]) =
      located source before ++ [(value.ty, locate source start)] := by
    simp [located]
  cases comma with
  | none => exact .pure fun _ _ same => ⟨trivial, listed.symm, same.trans extended.symm⟩
  | some site => exact .pure fun _ _ same => ⟨trivial, listed.symm, same.trans extended.symm⟩

/-- The arguments up to the last one. Their code is put down in the order of the loop. -/
theorem arguments_loop {reader : Scope → Analysis Expr} {calls : Routines}
    (proper : MirrorsExpr source depth reader calls.expression) (stage : Stage scope depth desk) :
    Mirrors source (At desk) (Analysis.repeatUntil (Analysis.argument scope reader) [])
      (repeatUntil (argument calls scope.rank) [])
      (Yields (located source) fun values => desk.write (Expr.codeAll (values.map Prod.fst))) := by
  have loop := Mirrors.loop (fun _ => True) (located source)
    (fun values => desk.write (Expr.codeAll (values.map Prod.fst)))
    (Analysis.argument_progresses (proper.forward scope))
    (fun before _ => argument_mirrors proper stage before) [] trivial
  exact loop.before fun _ _ same => same.trans (Desk.write_nil _).symm

/-- The types of the arguments are all that is compared. -/
theorem matchParams_mirrors (arguments : List (Expr × Nat)) (params : List Param) (site : Nat) :
    Mirrors source (At desk) (Analysis.matchParams arguments params site)
      (matchParams (located source arguments) params (locate source site))
      (Yields id fun _ => desk) := by
  refine .refuse_bind (by simp [located]) fun _ => ?_
  have zipped : ((located source arguments).zip params).find? (fun pair => pair.1.1 != pair.2.ty) =
      ((arguments.zip params).find? fun pair => pair.1.1.ty != pair.2.ty).map
        fun pair => ((pair.1.1.ty, locate source pair.1.2), pair.2) := by
    rw [located, List.zip_map_left, List.find?_map]
    rfl
  rw [zipped]
  cases (arguments.zip params).find? fun pair => pair.1.1.ty != pair.2.ty with
  | none => exact .pure fun _ _ same => ⟨trivial, rfl, same⟩
  | some pair => exact .fail

/-- A cast adds its instruction after the operand, or ends the casts. -/
theorem cast_mirrors (operand : Expr) :
    Mirrors source (At (desk.write operand.code)) (Analysis.cast operand) (cast operand.ty)
      (Mirrors.Both (Yields Expr.ty fun e => desk.write e.code)
        (Yields Expr.ty fun e => desk.write e.code)) := by
  refine .eat_bind fun site => ?_
  cases site with
  | none => exact .pure fun _ _ same => ⟨trivial, rfl, same⟩
  | some site =>
    refine .expectType_bind fun target => .refuse_bind .rfl fun _ => .write_bind ?_
    exact .pure fun _ _ same => ⟨trivial, rfl, same.trans (by simp [Expr.code])⟩

section

variable {limit : Nat} {inner : Option (Scope → Analysis Expr)} {calls : Routines}

variable
  (allowed : Allowed (MirrorsExpr source (depth + 1) · calls.expression) limit depth inner)
  (stage : Stage scope depth desk)

include allowed stage

/-- The address comes first, then the value, and the store last. -/
theorem assignment_mirrors (name : String) (site : Nat) :
    Mirrors source (At desk) (Analysis.assignment inner scope name site)
      (assignment .exact limit calls scope.rank name (locate source site))
      (Yields Expr.ty fun e => desk.write e.code) := by
  refine (resolve_mirrors stage name site).seq fun target => .refuse_bind .rfl fun _ =>
    .expect_bind fun sign => .write_bind ?_
  have stage' := stage.write [target.place.instruction]
  refine .enter_bind allowed stage'.depth fun reader proper =>
    (proper.mirrors stage'.deeper).seq fun value => ?_
  refine .leave_bind (d := (desk.write [target.place.instruction]).write value.code)
    (.refuse_bind .rfl fun _ => .write_bind ((markInitialized_mirrors target).seq fun _ => ?_))
  refine .pure fun _ _ same => ⟨trivial, rfl, same.trans ?_⟩
  simp [Expr.code, storeCode]

/-- Arguments are a level down in both. -/
theorem arguments_mirrors : Mirrors source (At desk) (Analysis.arguments inner scope)
    (arguments .exact limit calls scope.rank)
    (Yields (located source) fun values => desk.write (Expr.codeAll (values.map Prod.fst))) := by
  refine .expect_bind fun opening => .enter_bind allowed stage.depth fun reader proper =>
    .check_bind fun isEmpty => ?_
  have values : Mirrors source (At desk.deeper)
      (if isEmpty then pure [] else Analysis.repeatUntil (Analysis.argument scope reader) [])
      (if isEmpty then pure [] else repeatUntil (argument calls scope.rank) [])
      (Yields (located source)
        fun values => desk.deeper.write (Expr.codeAll (values.map Prod.fst))) := by
    split
    · exact .pure fun _ _ same => ⟨trivial, rfl, same.trans (Desk.write_nil _).symm⟩
    · exact arguments_loop proper stage.deeper
  exact values.seq fun values => .expect_bind fun _ =>
    .leave_bind (d := desk.write _) (.pure fun _ _ same => ⟨trivial, rfl, same⟩)

/-- A library routine takes a value, a text that it logs, or nothing. -/
theorem libraryArgument_mirrors (opening : Nat) (argument : Library.Argument) :
    Mirrors source (At desk) (Analysis.libraryArgument inner scope opening argument)
      (libraryArgument .exact limit calls scope.rank (locate source opening) argument)
      (Yields (fun _ => ()) fun values => desk.write (Expr.codeAll values)) := by
  cases argument with
  | nothing => exact .pure fun _ _ same => ⟨trivial, rfl, same.trans (Desk.write_nil _).symm⟩
  | value ty =>
    refine .peek_bind fun kind start => .facing (.refuse_bind .rfl fun _ =>
      .enter_bind allowed stage.depth fun reader proper =>
        (proper.mirrors stage.deeper).seq fun value => ?_)
    refine .leave_bind (d := desk.write value.code) ?_
    rw [← bind_pure (refuse _ _ _)]
    refine .refuse_bind .rfl fun _ => .pure fun _ _ same => ⟨trivial, rfl, same.trans ?_⟩
    simp [Expr.codeAll]
  | text =>
    refine .next_bind fun kind site read => ?_
    cases kind with
    | string value =>
      refine .slice_bind rfl ?_
      rw [stringValue_of_string read]
      refine (register_mirrors _).seq fun address => ?_
      rw [← bind_pure (write _)]
      refine .write_bind (.pure fun _ _ same => ⟨trivial, rfl, same.trans ?_⟩)
      simp [Expr.codeAll, Expr.code]
    | _ => exact .fail

theorem libraryCall_mirrors {name : String} {function : Library}
    (known : Library.ofName? name = some function) (site : Nat) :
    Mirrors source (At desk) (Analysis.call inner scope name site)
      (libraryCall .exact limit calls scope.rank function)
      (Yields Expr.ty fun e => desk.write e.code) := by
  unfold Analysis.call
  rw [known]
  refine (register_mirrors _).seq fun address => .write_bind (.expect_bind fun opening => ?_)
  refine (libraryArgument_mirrors allowed (stage.write _) opening _).seq fun values =>
    .expect_bind fun _ => .write_bind (.pure fun _ _ same => ⟨trivial, rfl, same.trans ?_⟩)
  simp [Expr.code, Callee.instruction, Callee.returnType]

/-- A group puts down what is inside it. -/
theorem parenthesized_mirrors (opening : Nat) :
    Mirrors source (At desk) (Analysis.parenthesized inner scope opening)
      (parenthesized .exact limit calls scope.rank (locate source opening))
      (Yields Expr.ty fun e => desk.write e.code) := by
  refine .enter_bind allowed stage.depth fun reader proper =>
    (proper.mirrors stage.deeper).seq fun value => .expect_bind fun _ => ?_
  exact .leave_bind (d := desk.write value.code)
    (.pure fun _ _ same => ⟨trivial, rfl, same.trans (by simp [Expr.code])⟩)

end

section

variable {limit : Nat} {inner : Option (Scope → Analysis Expr)} {calls : Routines}
  (stage : Stage scope depth desk)

include stage

/-- Places are held for the result, the arguments follow, and the call is last. -/
theorem call_mirrors
    (listed : WritesArguments source depth scope (Analysis.arguments inner scope)
      (calls.arguments scope.rank))
    (libraries : ∀ name function site, Library.ofName? name = some function →
      WritesExpr source depth scope (Analysis.call inner scope name site)
        (calls.libraryCall scope.rank function)) (name : String) (site : Nat) :
    Mirrors source (At desk) (Analysis.call inner scope name site)
      (call calls scope.rank name (locate source site))
      (Yields Expr.ty fun e => desk.write e.code) := by
  cases known : Library.ofName? name with
  | some function =>
    unfold call
    rw [known]
    exact libraries name function site known stage
  | none =>
    unfold Analysis.call call
    rw [known]
    refine (callee_mirrors stage name site).seq fun signature => .write_bind ?_
    refine (listed (stage.write _)).seq fun values => ?_
    refine (matchParams_mirrors values signature.params site).seq fun _ =>
      .write_bind (.pure fun _ _ same => ⟨trivial, rfl, same.trans ?_⟩)
    simp [Expr.code, Callee.instruction, Callee.returnType]

section

variable
  (assigned : ∀ name site, WritesExpr source depth scope (Analysis.assignment inner scope name site)
    (calls.assignment scope.rank name (locate source site)))
  (called : ∀ name site, WritesExpr source depth scope (Analysis.call inner scope name site)
    (calls.call scope.rank name (locate source site)))

include assigned called

/-- The token after a name decides in both. -/
theorem named_mirrors (name : String) (site : Nat) :
    Mirrors source (At desk) (Analysis.named inner scope name site)
      (named .exact calls scope.rank name (locate source site))
      (Yields Expr.ty fun e => desk.write e.code) := by
  have plain : Mirrors source (At desk)
      (Analysis.resolve scope name site >>= fun v => pure (Expr.load v))
      (resolve .exact scope.rank name (locate source site) >>= fun v => do
        write [v.place.instruction, .plain .load64]
        return v.ty) (Yields Expr.ty fun e => desk.write e.code) :=
    (resolve_mirrors stage name site).seq fun v => leaf_mirrors rfl rfl
  refine .peek_bind fun kind next => .facing ?_
  cases kind with
  | mark sign =>
    cases sign with
    | assign => exact assigned name site stage
    | openParen => exact called name site stage
    | _ => exact plain
  | _ => exact plain

/-- A primary expression puts down its own code. -/
theorem primary_mirrors
    (allowed : Allowed (MirrorsExpr source (depth + 1) · calls.expression) limit depth inner) :
    Mirrors source (At desk) (Analysis.primary inner scope)
      (primary .exact limit calls scope.rank) (Yields Expr.ty fun e => desk.write e.code) := by
  refine .next_bind fun kind site read => ?_
  cases kind with
  | identifier name =>
    exact .slice_bind (text_of_identifier read) (named_mirrors stage assigned called name site)
  | uint value | double bits | char value => exact leaf_mirrors rfl rfl
  | mark sign =>
    cases sign with
    | openParen => exact parenthesized_mirrors allowed stage site
    | _ => exact .fail
  | _ => exact .fail

end

/-- The casts follow the primary expression. -/
theorem operand_mirrors
    (primaries : WritesExpr source depth scope (Analysis.primary inner scope)
      (calls.primary scope.rank)) :
    Mirrors source (At desk) (Analysis.operand inner scope) (operand calls scope.rank)
      (Yields Expr.ty fun e => desk.write e.code) := by
  refine (primaries stage).seq fun value => ?_
  exact .loop (fun _ => True) Expr.ty (fun e => desk.write e.code) Analysis.cast_progresses
    (fun operand _ => cast_mirrors operand) value trivial

end

end

end SinglePass

/-- The same operators at other sites. -/
def OperatorStack.mapSites {σ τ : Type} (f : σ → τ) (stack : OperatorStack σ) : OperatorStack τ :=
  ⟨stack.pending.map (Prod.map id f)⟩

namespace OperatorStack

variable {σ τ : Type} (f : σ → τ) (stack : OperatorStack σ)

/-- The sites play no part in what an operator waits for. -/
theorem before_mapSites (op : Operator) :
    (stack.mapSites f).before op = (stack.before op).map (Prod.map id f) := by
  rw [before, mapSites, List.takeWhile_map]
  rfl

theorem after_mapSites (op : Operator) :
    (stack.mapSites f).after op = (stack.after op).mapSites f := by
  rw [after, mapSites, List.dropWhile_map]
  rfl

theorem applicable_mapSites :
    (stack.mapSites f).applicable = stack.applicable.map (Prod.map id f) := by
  rw [applicable, mapSites, List.takeWhile_map]
  rfl

end OperatorStack

/-- How many of the operators stand between two operands. -/
def joints {σ : Type} (operators : List (Operator × σ)) : Nat :=
  operators.countP fun operator => !operator.1.isUnary

/-- As many operands were read as operators that stand between two. Another one comes next. -/
structure Unfinished.Balanced (unfinished : Unfinished) : Prop where
  operands : unfinished.operands.length = joints unfinished.operators.pending
  proper : ∀ operator ∈ unfinished.operators.pending, operator.1 ≠ .sentinel

namespace SinglePass

section

variable {source : String} {desk : Desk}

/-- The code of operands, of which the last one comes first. -/
def operandCode (operands : List Expr) : List Instruction :=
  Expr.codeAll operands.reverse

/-- The newest operand was put down last. -/
theorem operandCode_cons (value : Expr) (operands : List Expr) :
    operandCode (value :: operands) = operandCode operands ++ value.code := by
  rw [operandCode, List.reverse_cons, Expr.codeAll_concat]
  rfl

/-- An operator is applied to the newest operands, and its instructions come after theirs. -/
theorem apply_mirrors {operands : List Expr} {op : Operator} {ty : Ty} {site : Nat}
    {types : List Ty} {before : List Instruction} {good : List Expr → Prop} (proper : good operands)
    (listed : operands.map Expr.ty = op.resultType ty :: types)
    (coded : operandCode operands = before ++ (op.instructions? ty).getD []) :
    Mirrors source (At (desk.write before))
      (Analysis.orFail (if (op.instructions? ty).isSome then .ok operands
        else .error ⟨.typeMismatch, site⟩))
      (apply op ty (locate source site) >>= fun ty => pure (ty :: types))
      (YieldsIf good (List.map Expr.ty) fun left => desk.write (operandCode left)) := by
  unfold apply
  cases code : op.instructions? ty with
  | none => exact .fail
  | some code =>
    simp only [bind_assoc, pure_bind, Option.isSome_some, if_true]
    refine .write_bind (.pure fun _ _ same => ⟨proper, listed.symm, same.trans ?_⟩)
    rw [Desk.write_write, coded, code]
    rfl

/-- An operator finds its operands, and its instructions follow theirs. -/
theorem reduce_mirrors (operands : List Expr) (op : Operator) (site : Nat)
    (enough : joints [(op, site)] < operands.length) :
    Mirrors source (At (desk.write (operandCode operands)))
      (Analysis.orFail (Analysis.reduce operands (op, site)))
      (reduce (operands.map Expr.ty) (op, locate source site))
      (YieldsIf (fun left => left.length + joints [(op, site)] = operands.length) (List.map Expr.ty)
        fun left => desk.write (operandCode left)) := by
  cases unary : op.isUnary with
  | true =>
    have alone : joints [(op, site)] = 0 := by simp [joints, unary]
    obtain ⟨operand, rest, rfl⟩ := List.exists_cons_of_length_pos (Nat.zero_lt_of_lt enough)
    simp only [Analysis.reduce, reduce, unary, if_true, List.map_cons]
    refine apply_mirrors (by simp [alone]) rfl ?_
    simp [operandCode_cons, Expr.code]
  | false =>
    have between : joints [(op, site)] = 1 := by simp [joints, unary]
    rcases operands with _ | ⟨right, _ | ⟨left, rest⟩⟩
    · simp at enough
    · simp [between] at enough
    · simp only [Analysis.reduce, reduce, unary, Bool.false_eq_true, if_false, List.map_cons]
      by_cases same : left.ty = right.ty
      · simp only [same, true_and, ne_eq, not_true, refuse, if_false, pure_bind]
        rw [← same]
        refine apply_mirrors (by simp [between]) rfl ?_
        simp [operandCode_cons, Expr.code]
      · simp only [same, false_and, if_false, ne_eq, not_false_eq_true, refuse, if_true]
        exact .fail

/-- Checks that follow each other may be made in one. -/
theorem orFail_bind {α β : Type} (checked : Except (Fault Nat) α)
    (f : α → Except (Fault Nat) β) :
    Analysis.orFail (checked >>= f) =
      Analysis.orFail checked >>= fun a => Analysis.orFail (f a) := by
  cases checked <;> rfl

/-- Operators find their operands one after the other. -/
theorem reduceAll_mirrors (operands : List Expr) (operators : List (Operator × Nat))
    (enough : joints operators < operands.length) :
    Mirrors source (At (desk.write (operandCode operands)))
      (Analysis.orFail (Analysis.reduceAll operands operators))
      ((operators.map (Prod.map id (locate source))).foldlM reduce (operands.map Expr.ty))
      (YieldsIf (fun left => left.length + joints operators = operands.length) (List.map Expr.ty)
        fun left => desk.write (operandCode left)) := by
  induction operators generalizing operands with
  | nil => exact .pure fun _ _ same => ⟨rfl, rfl, same⟩
  | cons operator operators ih =>
    obtain ⟨op, site⟩ := operator
    have split : joints ((op, site) :: operators) = joints [(op, site)] + joints operators := by
      simp only [joints, List.countP_cons, List.countP_nil]
      omega
    simp only [Analysis.reduceAll, List.foldlM_cons, List.map_cons, orFail_bind]
    refine (reduce_mirrors operands op site (by omega)).bindIf fun left count => ?_
    refine (ih left (by omega)).weaken (fun _ _ => id) fun a x s d holds =>
      ⟨?_, holds.value, holds.desk⟩
    have rest := holds.good
    omega

/-- So many of the operators stand between two operands, and all can be applied. -/
structure Joined (count : Nat) (operators : OperatorStack Nat) : Prop where
  count : joints operators.pending = count
  proper : ∀ operator ∈ operators.pending, operator.1 ≠ .sentinel

/-- Signs before an operand wait, and stand between no operands. -/
theorem negations_mirrors {count : Nat} (operators : OperatorStack Nat)
    (joined : Joined count operators) :
    Mirrors source (At desk) (Analysis.repeatUntil Analysis.negation operators)
      (repeatUntil negation (operators.mapSites (locate source)))
      (YieldsIf (Joined count) (OperatorStack.mapSites (locate source)) fun _ => desk) := by
  refine .loop (Joined count) (OperatorStack.mapSites (locate source)) (fun _ => desk)
    Analysis.negation_progresses (fun operators joined => .eat_bind fun site => ?_) operators joined
  cases site with
  | none => exact .pure fun _ _ same => ⟨joined, rfl, same⟩
  | some site =>
    have pushed : Joined count (operators.push .negate site) := by
      refine ⟨joined.count, ?_⟩
      rintro operator (_ | ⟨_, member⟩)
      · simp
      · exact joined.proper operator member
    exact .pure fun _ _ same => ⟨pushed, rfl, same⟩

end

section

variable {source : String} {scope : Scope} {depth limit : Nat} {desk : Desk}
  {inner : Option (Scope → Analysis Expr)} {calls : Routines}

/-- Operators that wait and operands as a single pass has them. -/
def unfinished (source : String) (before : C0.Unfinished) : Unfinished :=
  ⟨before.operators.mapSites (locate source), before.operands.map Expr.ty⟩

/-- An operator that arrives takes some operands now and leaves the others. -/
theorem Joined.split {count : Nat} {operators : OperatorStack Nat} (joined : Joined count operators)
    (op : Operator) :
    joints (operators.before op) + joints (operators.after op).pending = count := by
  rw [← joined.count, joints, joints, joints, ← List.countP_append]
  exact congrArg _ List.takeWhile_append_dropWhile

/-- At the end of an expression every operator is applied. -/
theorem Joined.applicable {count : Nat} {operators : OperatorStack Nat}
    (joined : Joined count operators) : operators.applicable = operators.pending := by
  refine List.takeWhile_eq_self_iff.mpr fun operator member => ?_
  simpa [OperatorStack.isApplicable] using joined.proper operator member

/-- An operator between two operands waits for the second one. -/
theorem balanced_push {count site : Nat} {kind : Kind} {op : Operator}
    {operators : OperatorStack Nat} {operands : List Expr}
    (found : Operator.binary? kind = some op) (joined : Joined count operators)
    (left : operands.length + joints (operators.before op) = count + 1) :
    C0.Unfinished.Balanced ⟨(operators.after op).push op site, operands⟩ := by
  have proper : op ≠ .sentinel ∧ op.isUnary = false := by
    have priority := Analysis.Layered.binary?_priority found
    cases op <;> simp [Operator.priority, Operator.isUnary] at priority ⊢
  have split := joined.split op
  constructor
  · have pushed : joints ((op, site) :: (operators.after op).pending) =
        joints (operators.after op).pending + 1 := by
      simp [joints, proper.2]
    simp only [OperatorStack.push, pushed]
    omega
  · rintro operator (_ | ⟨_, member⟩)
    · exact proper.1
    · exact joined.proper operator ((List.dropWhile_sublist _).subset member)

/-- One turn of the expression reader. The operands that wait are put down already. -/
theorem operandAndOperator_mirrors
    (operands : WritesExpr source depth scope (Analysis.operand inner scope)
      (calls.operand scope.rank))
    (stage : Stage scope depth desk) (before : C0.Unfinished) (balanced : before.Balanced) :
    Mirrors source (At (desk.write (operandCode before.operands)))
      (Analysis.operandAndOperator inner scope before)
      (operandAndOperator calls scope.rank (unfinished source before))
      (Mirrors.Both
        (YieldsIf C0.Unfinished.Balanced (unfinished source)
          fun after => desk.write (operandCode after.operands))
        (Yields Expr.ty fun e => desk.write e.code)) := by
  refine (negations_mirrors before.operators ⟨rfl, balanced.proper⟩).bindIf
    fun operators joined => ?_
  refine (operands (stage.write _)).seq fun value => ?_
  have written : (desk.write (operandCode before.operands)).write value.code =
      desk.write (operandCode (value :: before.operands)) := by
    rw [Desk.write_write, operandCode_cons]
  have size : (value :: before.operands).length = joints before.operators.pending + 1 := by
    rw [List.length_cons, balanced.operands]
  rw [written]
  refine .peek_bind fun kind site => ?_
  cases found : Operator.binary? kind with
  | some op =>
    have split := joined.split op
    simp only [OperatorStack.before_mapSites]
    refine .advance_bind ((reduceAll_mirrors (value :: before.operands) (operators.before op)
      (by omega)).bindIf fun operands left => ?_)
    refine .pure fun _ _ same => ⟨balanced_push found joined (left.trans size), ?_, same⟩
    rw [OperatorStack.after_mapSites]
    rfl
  | none =>
    have count := joined.count
    simp only [OperatorStack.applicable_mapSites, joined.applicable]
    refine .facing ((reduceAll_mirrors (value :: before.operands) operators.pending
      (by omega)).bindIf fun operands left => ?_)
    obtain ⟨result, rfl⟩ := List.length_eq_one_iff.mp (by omega : operands.length = 1)
    exact .pure fun _ _ same => ⟨trivial, rfl, same.trans (by simp [operandCode, Expr.codeAll])⟩

/-- Expressions put down the code of their trees. -/
theorem expression_mirrors
    (nested : ∀ reader, inner = some reader → ∀ scope, Analysis.Forward (reader scope))
    (operands : WritesExpr source depth scope (Analysis.operand inner scope)
      (calls.operand scope.rank)) (stage : Stage scope depth desk) :
    Mirrors source (At desk) (Analysis.expressionWith inner scope) (expression calls scope.rank)
      (Yields Expr.ty fun e => desk.write e.code) := by
  have loop := Mirrors.loop C0.Unfinished.Balanced (unfinished source)
    (fun before => desk.write (operandCode before.operands))
    (Analysis.Layered.operandAndOperator_progresses nested)
    (operandAndOperator_mirrors operands stage) ⟨.empty, []⟩ ⟨rfl, by simp [OperatorStack.empty]⟩
  exact loop.before fun _ _ same => same.trans (Desk.write_nil _).symm

end

end SinglePass

end C0
