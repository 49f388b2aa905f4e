import C0.Proofs.SinglePass.Expression

namespace C0

namespace SinglePass

namespace Stage

variable {scope : Scope} {depth : Nat} {desk : Desk}

theorem tested (stage : Stage scope depth desk) (test : Expr) :
    Stage scope depth (desk.tested test) :=
  (stage.write _).write _

theorem held (stage : Stage scope depth desk) : Stage scope depth desk.held :=
  { stage with waiting := stage.waiting.held }

theorem patched (stage : Stage scope depth desk) (site target : Nat) :
    Stage scope depth (desk.patched [site] target) where
  signature := (Routine.patchAll_toSignature _ _ _).trans stage.signature
  inLoop := stage.inLoop
  waiting := stage.waiting.patch site target
  depth := stage.depth

theorem lay (stage : Stage scope depth desk) (stmt : Stmt) : Stage scope depth (desk.lay stmt) where
  signature := (stmt.laidOut desk.target).signature.trans stage.signature
  inLoop := by
    have same : (desk.lay stmt).loops.isEmpty = desk.loops.isEmpty := by
      simp only [Desk.lay, Desk.note]
      cases desk.loops <;> rfl
    rw [same]
    exact stage.inLoop
  waiting := stage.waiting.lay stmt
  depth := stage.depth

/-- A block inside has the symbols of the outer one. -/
theorem inner (stage : Stage scope depth desk) : Stage scope.inner depth desk :=
  { stage with }

/-- So has the body of a loop, which has jumps of its own. -/
theorem innerLoop (stage : Stage scope depth desk) (recheck : Nat) :
    Stage scope.innerLoop depth (desk.openLoop recheck) :=
  { stage with inLoop := rfl }

end Stage

namespace Mirrors

variable {α β δ : Type} {source : String} {desk : Desk} {m : Analysis α} {g : Nat → SinglePass β}
  {g' : Unit → SinglePass β} {post : α → β → State → Desk → Prop}

/-- A place is held for a jump. -/
theorem placeholder_bind
    (rest : Mirrors source (At desk.held) m (g desk.target.nextPosition) post) :
    Mirrors source (At desk) m (placeholder >>= g) post :=
  onDesk_bind rfl rfl rest

/-- The target of a jump is where the code has come to. -/
theorem position_bind (rest : Mirrors source (At desk) m (g desk.target.nextPosition) post) :
    Mirrors source (At desk) m (position >>= g) post :=
  onDesk_bind rfl rfl rest

/-- A branch that waits can be given its target. -/
theorem patch_bind (waits : desk.Open) {site target : Nat} (member : site ∈ desk.waiting)
    (rest : Mirrors source (At (desk.patched [site] target)) m (g' ()) post) :
    Mirrors source (At desk) m (patch .exact site target >>= g') post := by
  simp only [patch, keepOffset_exact, pure_bind]
  exact onDesk_bind (congrArg (Except.map ((), ·)) (Desk.patch_eq waits member target)) rfl rest

/-- Jumps get their targets, if all of them wait and none is listed twice. -/
theorem patchAll_bind (waits : desk.Open) {sites : List Nat} {target : Nat} (distinct : sites.Nodup)
    (members : ∀ site ∈ sites, site ∈ desk.waiting)
    (rest : (desk.patched sites target).Open →
      Mirrors source (At (desk.patched sites target)) m (g' ()) post) :
    Mirrors source (At desk) m (patchAll .exact sites target >>= g') post := by
  obtain ⟨done, waits'⟩ := Desk.patchAll_eq waits distinct members target
  rw [patchAll_exact]
  exact onDesk_bind (congrArg (Except.map ((), ·)) done) rfl (rest waits')

end Mirrors

/-- A statement is read and written at once where a scope is written at a depth: its code is
added. -/
def WritesStmt (source : String) (depth : Nat) (scope : Scope) (m : Analysis Stmt)
    (c : SinglePass Unit) : Prop :=
  ∀ ⦃desk⦄, Stage scope depth desk →
    Mirrors source (At desk) m c (Yields (fun _ => ()) desk.lay)

/-- What stands one level further in is read and written at once. -/
structure MirrorsReaders (source : String) (depth : Nat) (calls : Routines) (readers : Readers) :
    Prop where
  moves : Analysis.ReadersMove readers
  expression : MirrorsExpr source depth readers.expression calls.expression
  block : ∀ {scope}, WritesStmt source depth scope (readers.nested .block scope)
    (calls.block scope.rank >>= fun _ => pure ())
  conditional : ∀ {scope}, WritesStmt source depth scope (readers.nested .conditional scope)
    (calls.conditional scope.rank)

/-- The statement that a jump is. -/
def jumpStmt : Jump → Stmt
  | .leave => .leave
  | .again => .again

section

variable {source : String} {scope : Scope} {depth : Nat} {desk : Desk}

theorem declarationWord_mirrors : Mirrors source (At desk) Analysis.declarationWord declarationWord
    (Yields id fun _ => desk) := by
  refine .next_bind fun kind site _ => ?_
  have done (isConst : Bool) : Mirrors source (At desk) (pure isConst) (pure isConst)
      (Yields id fun _ => desk) :=
    .pure fun _ _ same => ⟨trivial, rfl, same⟩
  cases kind with
  | keyword word =>
    cases word with
    | letWord | constWord => exact done _
    | _ => exact .fail
  | _ => exact .fail

theorem allocate_mirrors : Mirrors source (At desk) (modifyGet fun s => s.allocate scope)
    (allocate .exact scope.rank) (Yields id fun _ => desk) := by
  have looks (slot : Nat) : (get >>= fun _ => pure slot : SinglePass Nat) = pure slot := rfl
  simp only [allocate, keep_exact, pure_bind, looks, bind_pure]
  refine .modifyGet (fun s b serves => ?_) fun b => by unfold Bench.allocate; split <;> rfl
  unfold State.allocate Bench.allocate
  split
  · exact ⟨by rw [serves.symbols], serves⟩
  · exact ⟨congrArg (·.allocate.1) serves.frame,
      { serves with frame := congrArg (·.allocate.2) serves.frame }⟩

theorem declare_mirrors (symbol : Symbol) (site : Nat) :
    Mirrors source (At desk) (Analysis.declare symbol site) (declare symbol (locate source site))
      (Yields id fun _ => desk) := by
  refine .get_bind fun s b serves _ => ?_
  have same : b.symbols.declare symbol (locate source site) =
      ((s.symbols.declare symbol site).map id).mapError (Fault.mapSite (locate source)) := by
    rw [serves.symbols, SymbolTable.declare, SymbolTable.declare]
    split <;> rfl
  refine (Mirrors.orFail same).seq fun symbols => ?_
  exact .modify (fun s b serves => { serves with symbols := rfl }) fun _ => rfl

theorem publish_mirrors (symbol : Symbol) :
    Mirrors source (At desk) (Analysis.publish symbol) (publish .exact symbol)
      (Yields id fun _ => desk) := by
  unfold Analysis.publish publish
  split
  · refine (register_mirrors _).seq fun _ => .modify (fun s b serves => ?_) fun _ => rfl
    exact { serves with globals := by rw [serves.globals] }
  · exact .pure fun _ _ same => ⟨trivial, rfl, same⟩

/-- Both sides refuse a name that is taken. -/
theorem refuse_taken {α β : Type} (stage : Stage scope depth desk) {name : String} {site : Nat}
    {m : Analysis α} {c : SinglePass β} {post : α → β → State → Desk → Prop}
    (rest : Mirrors source (At desk) m c post) :
    Mirrors source (At desk)
      (get >>= fun s => Analysis.refuse (s.isTaken scope name) .duplicateDeclaration site >>=
        fun _ => m)
      (isTaken .exact scope.rank name >>= fun taken =>
        refuse taken .duplicateDeclaration (locate source site) >>= fun _ => c) post := by
  simp only [isTaken, param?_exact, bind_assoc]
  refine .get_bind fun s b serves starts => ?_
  rw [State.isTaken, serves.directory, starts, stage.signature]
  split
  next outer => exact .refuse_bind (by simp [outer]) fun _ => rest
  next inside => exact .refuse_bind (by simp [inside]) fun _ => rest

/-- Both declare the same symbol, with the same slot. -/
theorem declaredSymbol_mirrors (stage : Stage scope depth desk) (isConst : Bool) :
    Mirrors source (At desk) (Analysis.declaredSymbol scope isConst)
      (declaredSymbol .exact scope.rank isConst) (Yields id fun _ => desk) :=
  .expectIdentifier_bind fun word => refuse_taken stage <| .expect_bind fun _ =>
    .expectValueType_bind fun _ => allocate_mirrors.seq fun _ =>
      (declare_mirrors _ word.site).seq fun _ => (publish_mirrors _).seq fun _ =>
        .pure fun _ _ same => ⟨trivial, rfl, same⟩

/-- A constant has to have a sign, and a variable may. -/
theorem initializerSign_bind {α β : Type} {isConst : Bool} {f : Option Nat → Analysis α}
    {g : Option Span → SinglePass β} {post : α → β → State → Desk → Prop}
    (rest : ∀ site, Mirrors source (At desk) (f site) (g (site.map (locate source))) post) :
    Mirrors source (At desk) (Analysis.initializerSign isConst >>= f)
      (initializerSign isConst >>= g) post := by
  unfold Analysis.initializerSign initializerSign
  cases isConst with
  | false => exact .eat_bind rest
  | true =>
    simp only [if_true, map_eq_pure_bind, bind_assoc, pure_bind]
    exact .expect_bind fun site => rest (some site)

section

variable {reader : Scope → Analysis Expr} {calls : Routines}
  (expressions : WritesExpr source depth scope (reader scope) (calls.expression scope.rank))
  (stage : Stage scope depth desk)

include expressions stage

/-- The address is put down before the value, as in an assignment. -/
theorem initializer_mirrors (symbol : Symbol) :
    Mirrors source (At desk) (Analysis.initializer reader scope symbol)
      (initializer calls scope.rank symbol)
      (Yields (fun _ => ()) fun value => desk.write (declareCode symbol value)) := by
  refine initializerSign_bind fun sign => ?_
  cases sign with
  | none => exact .pure fun _ _ same => ⟨trivial, rfl, same.trans (Desk.write_nil desk).symm⟩
  | some sign =>
    refine .write_bind ((expressions (stage.write _)).seq fun value => .refuse_bind .rfl fun _ =>
      .write_bind ?_)
    rw [← bind_pure (markInitialized _)]
    refine (markInitialized_mirrors _).seq fun _ => .pure fun _ _ same =>
      ⟨trivial, rfl, same.trans ?_⟩
    simp [declareCode, storeCode]

/-- A declaration in any function, the entry function included. -/
theorem declaration_mirrors :
    Mirrors source (At desk) (Analysis.declaration reader scope)
      (declaration .exact calls scope.rank) (Yields (fun _ => ()) desk.lay) := by
  refine declarationWord_mirrors.seq fun isConst => (declaredSymbol_mirrors stage isConst).seq
    fun symbol => (initializer_mirrors expressions stage symbol).seq fun value =>
      .expect_bind fun _ => .pure fun _ _ same => ⟨trivial, rfl, same.trans ?_⟩
  exact (Desk.lay_write rfl).symm

end

/-- The code of a return before the return itself. -/
def valueCode (value : Option Expr) : List Instruction :=
  match value with
  | none => []
  | some value => value.code ++ [.plain .store64]

section

variable {reader : Scope → Analysis Expr} {calls : Routines}
  (expressions : WritesExpr source depth scope (reader scope) (calls.expression scope.rank))
  (stage : Stage scope depth desk)

include expressions stage

/-- A value to return is put down after the address of its slot. -/
theorem returnedValue_mirrors (site : Nat) :
    Mirrors source (At desk) (Analysis.returnedValue reader scope site)
      (returnedValue calls scope.rank (locate source site))
      (Yields (fun _ => ()) fun value => desk.write (valueCode value)) := by
  refine .get_left fun b _ same => ?_
  have expected : b.desk.target.returnType = scope.signature.returnType := by
    rw [same, stage.signature]
  rw [expected]
  refine .check_bind fun isEmpty => ?_
  cases isEmpty with
  | true =>
    simp only [if_true]
    rw [← bind_pure (refuse _ _ _)]
    refine .refuse_bind .rfl fun _ => .pure fun _ _ same => ⟨trivial, rfl, same.trans ?_⟩
    exact (Desk.write_nil desk).symm
  | false =>
    simp only [Bool.false_eq_true, if_false]
    refine (expressions stage).seq fun value => .refuse_bind .rfl fun _ => ?_
    rw [← bind_pure (write _)]
    refine .write_bind (.pure fun _ _ same => ⟨trivial, rfl, same.trans ?_⟩)
    exact Desk.write_write _ _ _

/-- A return is laid out with its value. -/
theorem giveBack_mirrors :
    Mirrors source (At desk) (Analysis.giveBack reader scope) (giveBack calls scope.rank)
      (Yields (fun _ => ()) desk.lay) := by
  refine .expect_bind fun site => .write_bind
    ((returnedValue_mirrors expressions (stage.write _) site).seq fun value => ?_)
  refine .onDesk_bind rfl rfl (.write_bind (.expect_bind fun _ => .pure fun _ _ same =>
    ⟨trivial, rfl, same.trans ?_⟩))
  have coded : desk.write (returnCode value) =
      ((desk.write [.indexed .arga 0]).write (valueCode value)).write [.plain .ret] := by
    cases value <;> simp [returnCode, valueCode]
  rw [Desk.lay_giveBack, coded]
  rfl

/-- The value of an expression statement is popped. -/
theorem evaluation_mirrors :
    Mirrors source (At desk) (Analysis.evaluation reader scope) (evaluation calls scope.rank)
      (Yields (fun _ => ()) desk.lay) := by
  refine (expressions stage).seq fun value => .write_bind (.expect_bind fun _ =>
    .pure fun _ _ same => ⟨trivial, rfl, same.trans ?_⟩)
  rw [Desk.write_write]
  exact (Desk.lay_write rfl).symm

end

/-- A jump is written where a loop is around the place at hand. -/
theorem loopJump_mirrors (stage : Stage scope depth desk) (jump : Jump) :
    Mirrors source (At desk) (Analysis.loopJump scope (jumpStmt jump)) (loopJump jump)
      (Yields (fun _ => ()) desk.lay) := by
  have laid : desk.lay (jumpStmt jump) = desk.held.note (.one jump desk.target.nextPosition) := by
    cases jump <;> exact Desk.lay_jump rfl
  refine .next_bind fun _ site _ => .get_left fun b _ same => .refuse_bind ?_ fun _ => ?_
  · rw [same, stage.inLoop]
    simp
  · refine .placeholder_bind (.onDesk_bind rfl ?_ (.expect_bind fun _ => .pure fun _ _ same =>
      ⟨trivial, rfl, same.trans laid.symm⟩))
    simp only [Desk.SameLoops, Desk.note]
    cases desk.held.loops <;> rfl

/-- A block inside is a block of the next rank. -/
theorem innerBlock_exact (calls : Routines) (rank : Nat) :
    innerBlock .exact calls rank = calls.block (rank + 1) >>= fun _ => pure () := by
  rw [innerBlock, keep_exact, pure_bind]

section

variable {readers : Readers} {calls : Routines} (stage : Stage scope depth desk)

include stage

/-- The first token picks the same routine in both. -/
theorem statement_mirrors (proper : MirrorsReaders source depth calls readers)
    (declarations : WritesStmt source depth scope (Analysis.declaration readers.expression scope)
      (calls.declaration scope.rank))
    (iterations : WritesStmt source depth scope (readers.nested .iteration scope)
      (calls.iteration scope.rank))
    (returns : WritesStmt source depth scope (Analysis.giveBack readers.expression scope)
      (calls.giveBack scope.rank))
    (jumps : ∀ jump, WritesStmt source depth scope (Analysis.loopJump scope (jumpStmt jump))
      (calls.loopJump jump)) :
    Mirrors source (At desk) (Analysis.statement readers scope)
      (statement .exact calls scope.rank) (Yields (fun _ => ()) desk.lay) := by
  refine .peek_bind fun kind site => ?_
  have evaluated := evaluation_mirrors proper.expression.mirrors stage
  cases kind with
  | keyword word =>
    cases word with
    | letWord | constWord => exact (declarations stage).facing
    | ifWord => exact (proper.conditional stage).facing
    | whileWord => exact (iterations stage).facing
    | returnWord => exact (returns stage).facing
    | breakWord => exact (jumps .leave stage).facing
    | continueWord => exact (jumps .again stage).facing
    | _ => exact evaluated.facing
  | mark sign =>
    cases sign with
    | openBrace =>
      dsimp only
      rw [innerBlock_exact]
      exact (proper.block stage.inner).facing
    | semicolon =>
      exact .advance_bind (.pure fun _ _ same => ⟨trivial, rfl, same.trans Desk.lay_skip.symm⟩)
    | _ => exact evaluated.facing
  | _ => exact evaluated.facing

section

variable (statements : WritesStmt source depth scope (Analysis.statement readers scope)
  (calls.statement scope.rank))

include statements

/-- One turn of the block reader. What was read is laid out. -/
theorem statementOrEnd_mirrors (before : List Stmt) :
    Mirrors source (At (desk.lay (Stmt.ofList before.reverse)))
      (Analysis.statementOrEnd readers scope before) (statementOrEnd calls scope.rank ())
      (Mirrors.Both (Yields (fun _ => ()) fun before => desk.lay (Stmt.ofList before.reverse))
        (Yields (fun _ => ()) desk.lay)) := by
  refine .check_bind fun ends => ?_
  cases ends with
  | true => exact .pure fun _ _ same => ⟨trivial, rfl, same⟩
  | false =>
    refine (statements (stage.lay _)).seq fun next => .pure fun _ _ same =>
      ⟨trivial, rfl, same.trans ?_⟩
    rw [List.reverse_cons, Desk.lay_ofList]

/-- The statements of a block are laid out one after another. -/
theorem statements_mirror (moves : Analysis.ReadersMove readers) :
    Mirrors source (At desk) (Analysis.repeatUntil (Analysis.statementOrEnd readers scope) [])
      (repeatUntil (statementOrEnd calls scope.rank) ()) (Yields (fun _ => ()) desk.lay) := by
  have loop := Mirrors.loop (fun _ => True) (fun _ => ())
    (fun before : List Stmt => desk.lay (Stmt.ofList before.reverse))
    (Analysis.statementOrEnd_progresses moves scope)
    (fun before _ => statementOrEnd_mirrors stage statements before) [] trivial
  exact loop.before fun _ _ same => same.trans Desk.lay_skip.symm

end

end

/-- What goes on inside a loop leaves its code, and the jumps that waited for the end of the loop.
The loop ends also where it fails. -/
theorem insideLoop_mirrors {m : Analysis Stmt} {c : SinglePass Unit}
    (stage : Stage scope depth desk) (bodies : WritesStmt source depth scope.innerLoop m c)
    (recheck : Nat) :
    Mirrors source (At desk) m (insideLoop recheck c)
      (Yields desk.jumps fun stmt => { desk.lay stmt with loops := desk.loops }) := by
  rintro s b serves rfl
  have inside := bodies (stage.innerLoop recheck) s { b with desk := b.desk.openLoop recheck }
    { serves with } rfl
  cases ran : m s with
  | ok stmt t =>
    rw [ran] at inside
    obtain ⟨x, b', done, serves', -, -, -, same⟩ := inside
    refine ⟨b.desk.jumps stmt, { b' with desk := { b.desk.lay stmt with loops := b.desk.loops } },
      ?_, { serves' with }, rfl, trivial, rfl, rfl⟩
    have closes : b'.desk.closeLoop recheck =
        .ok (b.desk.jumps stmt, { b.desk.lay stmt with loops := b.desk.loops }) := by
      rw [same]
      simp only [Desk.closeLoop, Desk.lay, Desk.note, Desk.openLoop, List.modifyHead_cons, if_true]
      rfl
    rw [insideLoop, done]
    dsimp only [onDesk]
    rw [closes]
  | error fault t =>
    rw [ran] at inside
    obtain ⟨b', failed, loops⟩ := inside
    obtain ⟨loop, outer, opened, same, others⟩ := List.map_eq_cons_iff.mp loops
    have closes : b'.desk.closeLoop recheck =
        .ok (loop.jumps, { b'.desk with loops := outer }) := by
      simp only [Desk.closeLoop, opened, same]
      rfl
    refine ⟨{ b' with desk := { b'.desk with loops := outer } }, ?_, others⟩
    rw [insideLoop, failed]
    dsimp only [onDesk]
    rw [closes]

/-- A block is a level, and its symbols go with it. -/
theorem block_mirrors {limit : Nat} {inner : Option Readers} {calls : Routines}
    (allowed : Allowed (fun readers => Analysis.ReadersMove readers ∧
      ∀ {scope}, WritesStmt source (depth + 1) scope (Analysis.statement readers scope)
        (calls.statement scope.rank)) limit depth inner)
    (stage : Stage scope depth desk) :
    Mirrors source (At desk) (Analysis.block inner scope) (block .exact limit calls scope.rank)
      (Yields (fun result => locate source result.2) fun result => desk.lay result.1) := by
  refine .expect_bind fun opening => .enter_bind allowed stage.depth fun readers proper => ?_
  refine (statements_mirror stage.deeper proper.2 proper.1).seq fun stmt =>
    .expect_bind fun closing => ?_
  have dropped : Mirrors source (At (desk.deeper.lay stmt))
      (modify fun s => { s with symbols := s.symbols.dropRank scope.rank })
      (modify fun b => { b with symbols := b.symbols.dropRank scope.rank })
      (Yields id fun _ => desk.deeper.lay stmt) :=
    .modify (fun s b serves => { serves with symbols := by rw [serves.symbols] }) fun _ => rfl
  exact dropped.seq fun _ => .leave_bind (d := desk.lay stmt)
    (.pure fun _ _ same => ⟨trivial, rfl, same⟩)

/-- The last step of a construct. -/
theorem leave_mirrors {stmt : Stmt} {d : Desk} (laid : d = desk.deeper.lay stmt) :
    Mirrors source (At d) (pure stmt) leave (Yields (fun _ => ()) desk.lay) := by
  rw [← bind_pure leave, laid]
  exact .leave_bind (d := desk.lay stmt) (.pure fun _ _ same => ⟨trivial, rfl, same⟩)

section

variable {readers : Readers} {calls : Routines}
  (proper : MirrorsReaders source depth calls readers) (stage : Stage scope depth desk)

include proper stage

/-- A condition is put down, and a jump over the next instruction after it. -/
theorem test_bind {α β : Type} {site : Nat} {f : Expr → Analysis α} {g : Unit → SinglePass β}
    {post : α → β → State → Desk → Prop}
    (rest : ∀ value, Mirrors source (At (desk.tested value)) (f value) (g ()) post) :
    Mirrors source (At desk) (Analysis.test readers scope site >>= f)
      (test calls scope.rank (locate source site) >>= g) post := by
  simp only [Analysis.test, test, bind_assoc, pure_bind]
  exact (proper.expression.mirrors stage).seq fun value => .refuse_bind .rfl fun _ =>
    .write_bind (rest value)

/-- What follows `else` is laid out, or nothing is. -/
theorem alternative_mirrors :
    Mirrors source (At desk) (Analysis.alternative readers scope)
      (alternative .exact calls scope.rank) (Yields (fun _ => ()) desk.lay) := by
  refine .eat_bind fun site => ?_
  cases site with
  | none => exact .pure fun _ _ same => ⟨trivial, rfl, same.trans Desk.lay_skip.symm⟩
  | some site =>
    simp only [Option.map_some, innerBlock_exact]
    refine .check_bind fun another => ?_
    cases another with
    | true => exact proper.conditional stage
    | false => exact proper.block stage.inner

end

section

variable {limit : Nat} {inner : Option Readers} {calls : Routines}
  (allowed : Allowed (MirrorsReaders source (depth + 1) calls) limit depth inner)
  (stage : Stage scope depth desk)

include allowed stage

/-- A conditional holds two places and patches them when the ends are known. -/
theorem conditional_mirrors : Mirrors source (At desk) (Analysis.conditional inner scope)
    (conditional .exact limit calls scope.rank) (Yields (fun _ => ()) desk.lay) := by
  simp only [conditional, innerBlock_exact]
  refine .expect_bind fun site => .enter_bind allowed stage.depth fun readers proper =>
    test_bind proper stage.deeper fun test => .placeholder_bind ?_
  have inYes := (stage.deeper.tested test).held
  refine (proper.block inYes.inner).seq fun yes => .placeholder_bind (.position_bind ?_)
  have between := (inYes.lay yes).held
  refine .patch_bind between.waiting (by simp) ?_
  have inNo := between.patched (desk.deeper.tested test).target.nextPosition
    (desk.deeper.chosen test yes).target.nextPosition
  refine (alternative_mirrors proper inNo).seq fun no => ?_
  obtain ⟨waits, laid⟩ := Desk.lay_conditional stage.deeper.waiting test yes no
  refine .position_bind (.patch_bind (inNo.lay no).waiting waits ?_)
  exact leave_mirrors laid

/-- A loop patches the jumps to its end and those to its next turn. -/
theorem iteration_mirrors : Mirrors source (At desk) (Analysis.iteration inner scope)
    (iteration .exact limit calls scope.rank) (Yields (fun _ => ()) desk.lay) := by
  simp only [iteration, innerBlock_exact]
  refine .expect_bind fun site => .enter_bind allowed stage.depth fun readers proper => ?_
  refine .placeholder_bind (.position_bind (.patch_bind stage.deeper.held.waiting (by simp) ?_))
  have begun : Stage scope (depth + 1) desk.deeper.begun := stage.deeper.held.patched _ _
  refine test_bind proper begun fun test => .placeholder_bind ?_
  have entered : Stage scope (depth + 1) (desk.deeper.entered test) := (begun.tested test).held
  refine (insideLoop_mirrors entered proper.block _).seq fun body => .placeholder_bind ?_
  have closed : Stage scope (depth + 1)
      { (desk.deeper.entered test).lay body with loops := desk.deeper.loops } :=
    { entered.lay body with inLoop := stage.inLoop }
  refine .patch_bind closed.held.waiting (by simp) (.position_bind ?_)
  have rounded : Stage scope (depth + 1) (desk.deeper.rounded test body) := closed.held.patched _ _
  obtain ⟨waits, leaving, repeating, laid⟩ := Desk.lay_iteration stage.deeper.waiting test body
  have distinct := List.nodup_append.mp (body.laidOut (desk.deeper.entered test).target).distinct
  refine .patch_bind rounded.waiting waits ?_
  refine .patchAll_bind (rounded.patched _ _).waiting distinct.1 leaving fun left => ?_
  refine .patchAll_bind left distinct.2.1 repeating fun _ => ?_
  exact leave_mirrors laid

end

end

end SinglePass

end C0
