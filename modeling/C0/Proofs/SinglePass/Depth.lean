import C0.Proofs.SinglePass.Branches
import C0.Proofs.SinglePass.Establishes

namespace C0

/-- So many levels were entered and not left. -/
def Bench.AtDepth (depth : Nat) (b : Bench) : Prop :=
  b.desk.depth = depth

namespace SinglePass

variable {α β : Type}

/-- Where a step succeeds, it leaves so many levels more than it enters. -/
def Leaves (levels : Nat) (step : SinglePass α) : Prop :=
  ∀ depth, Establishes (Bench.AtDepth (depth + levels)) step fun _ => Bench.AtDepth depth

/-- Where a step succeeds, it has left the levels that it entered, and no others. -/
abbrev KeepsDepth (step : SinglePass α) : Prop :=
  Leaves 0 step

namespace Leaves

variable {levels : Nat} {step : SinglePass α} {rest : α → SinglePass β}

/-- The first step ends as deep as it began, so it is the second one that leaves the levels. -/
theorem bind (first : KeepsDepth step) (later : ∀ x, Leaves levels (rest x)) :
    Leaves levels (step >>= rest) :=
  fun depth => (first (depth + levels)).bind fun x => later x depth

theorem pure {x : α} : KeepsDepth (pure x) :=
  fun _ => .pure fun _ => id

/-- A fault ends the run, so there is no depth to speak of. -/
theorem fail {cause : Cause} {span : Span} : Leaves levels (fail cause span : SinglePass α) :=
  fun _ => .fail

theorem alarm {bad : Alarm} : Leaves levels (alarm bad : SinglePass α) :=
  fun _ => .alarm

/-- A step that changes nothing that is known. -/
theorem of_keeps (keeps : ∀ {pre : Bench → Prop}, Establishes pre step fun _ => pre) :
    KeepsDepth step :=
  fun _ => keeps

theorem refuse {bad : Prop} [Decidable bad] {cause : Cause} {span : Span} :
    KeepsDepth (refuse bad cause span) :=
  fun _ => Establishes.refuse.after fun _ _ holds => holds.2

theorem refuse_bind {bad : Prop} [Decidable bad] {cause : Cause} {span : Span}
    {rest : Unit → SinglePass β} (later : Leaves levels (rest ())) :
    Leaves levels (SinglePass.refuse bad cause span >>= rest) :=
  bind refuse fun _ => later

/-- A step that looks at what was made so far. -/
theorem get_bind {rest : Bench → SinglePass β} (later : ∀ b, Leaves levels (rest b)) :
    Leaves levels (get >>= rest) :=
  bind (fun _ => Establishes.get.after fun _ _ holds => holds.2) later

theorem map {f : α → β} (keeps : KeepsDepth step) : KeepsDepth (f <$> step) := by
  rw [map_eq_pure_bind]
  exact bind keeps fun _ => pure

theorem orFail {checked : Except Diagnostic α} : KeepsDepth (orFail checked) :=
  fun _ => .orFail fun _ _ _ => id

/-- A step that is not on the desk. -/
theorem modifyGet {change : Bench → α × Bench} (same : ∀ b, (change b).2.desk = b.desk) :
    KeepsDepth (modifyGet change) :=
  fun _ => .modifyGet fun b before => (congrArg Desk.depth (same b)).trans before

theorem modify {change : Bench → Bench} (same : ∀ b, (change b).desk = b.desk) :
    KeepsDepth (modify change) :=
  fun _ => .modify fun b before => (congrArg Desk.depth (same b)).trans before

/-- A step on the desk that enters and leaves no level. -/
theorem onDesk {change : Desk → Except Alarm (α × Desk)}
    (same : ∀ desk x after, change desk = .ok (x, after) → after.depth = desk.depth) :
    KeepsDepth (onDesk change) :=
  fun _ => .onDesk fun _ _ _ before done => (same _ _ _ done).trans before

/-- A step on the desk that cannot fail, with the levels as they are. -/
theorem draw {change : Desk → α × Desk} (same : ∀ desk, (change desk).2.depth = desk.depth) :
    KeepsDepth (SinglePass.onDesk fun desk => .ok (change desk)) :=
  onDesk fun desk _ _ done => by
    rw [← same desk, Except.ok.inj done]

/-- Jumps that get their targets are no levels. -/
theorem redraw {change : Desk → Except Alarm Desk}
    (same : ∀ {desk after}, change desk = .ok after → desk.Retargeted after) :
    KeepsDepth (SinglePass.onDesk fun desk => (change desk).map ((), ·)) := by
  refine onDesk fun desk _ after done => ?_
  cases changed : change desk with
  | error bad =>
    rw [changed] at done
    cases done
  | ok other =>
    rw [changed] at done
    cases done
    exact (same changed).depth

/-- Each turn of a loop ends as deep as it began. -/
theorem repeatUntil {step : α → SinglePass (α ⊕ β)} (steps : ∀ x, KeepsDepth (step x)) (x : α) :
    KeepsDepth (repeatUntil step x) :=
  fun depth =>
    .repeatUntil (fun x => (steps x depth).after fun result _ => by cases result <;> exact id) x

/-- What follows when a level was entered leaves it. -/
theorem enter_bind {keeping : Keeping} {limit : Nat} {span : Span} {rest : Unit → SinglePass β}
    (later : Leaves (levels + 1) (rest ())) :
    Leaves levels (enter keeping limit span >>= rest) := by
  intro depth
  have deeper : Establishes (Bench.AtDepth (depth + levels))
      (SinglePass.onDesk fun desk => .ok ((), desk.deeper))
      fun _ => Bench.AtDepth (depth + levels + 1) := by
    refine .onDesk fun b _ desk before done => ?_
    cases done
    exact congrArg (· + 1) before
  -- The check and the number that is kept change nothing.
  have enters : Establishes (Bench.AtDepth (depth + levels)) (enter keeping limit span)
      fun _ => Bench.AtDepth (depth + levels + 1) :=
    Establishes.get.bind fun _ => .refuse_bind <| (deeper.before fun _ holds => holds.2).bind
      fun _ => Establishes.get.bind fun _ => keep_keeps.bind fun _ =>
        .pure fun _ holds => holds.2.2
  exact enters.bind fun _ => later depth

/-- A level is left, and no alarm is raised for there is one. -/
theorem leave : Leaves 1 leave := by
  refine fun depth => .onDesk fun b _ desk before done => ?_
  have entered : b.desk.depth = depth + 1 := before
  simp only [Desk.leave, entered, Nat.add_one_ne_zero, if_false, Except.map, Except.ok.injEq,
    Prod.mk.injEq, true_and] at done
  subst done
  rfl

theorem leave_bind {rest : Unit → SinglePass β} (later : Leaves levels (rest ())) :
    Leaves (levels + 1) (SinglePass.leave >>= rest) :=
  fun depth => (leave (depth + levels)).bind fun _ => later depth

end Leaves

/-- The cursor is not on the desk. -/
theorem peek_keepsDepth : KeepsDepth peek := by
  intro depth b token b' before done
  unfold peek at done
  dsimp only at done
  split at done
  · cases done
    exact before
  · cases done

theorem next_keepsDepth : KeepsDepth next := by
  intro depth b token b' before done
  unfold next at done
  dsimp only at done
  split at done
  · cases done
    exact before
  · cases done

theorem check_keepsDepth (kind : Kind) : KeepsDepth (check kind) :=
  .bind peek_keepsDepth fun _ => .pure

theorem eat_keepsDepth (kind : Kind) : KeepsDepth (eat kind) := by
  refine .bind (check_keepsDepth kind) fun found => ?_
  split
  · exact .bind next_keepsDepth fun _ => .pure
  · exact .pure

theorem expect_keepsDepth (kind : Kind) : KeepsDepth (expect kind) :=
  .bind next_keepsDepth fun _ => .refuse_bind .pure

/-- The text of a token is looked up, and nothing else. -/
theorem slice_keepsDepth (span : Span) : KeepsDepth (slice span) :=
  .of_keeps slice_keeps

theorem expectIdentifier_keepsDepth : KeepsDepth expectIdentifier := by
  refine .bind next_keepsDepth fun token => ?_
  split
  · exact .bind (slice_keepsDepth _) fun _ => .pure
  · exact .fail

theorem expectType_keepsDepth : KeepsDepth expectType := by
  refine .bind next_keepsDepth fun token => ?_
  split
  · exact .pure
  · exact .fail

theorem expectValueType_keepsDepth : KeepsDepth expectValueType :=
  .bind expectType_keepsDepth fun _ => .refuse_bind .pure

/-- Code is put down in the function, not in its levels. -/
theorem write_keepsDepth (code : List Instruction) : KeepsDepth (write code) :=
  .draw fun _ => rfl

theorem placeholder_keepsDepth : KeepsDepth placeholder :=
  .draw fun _ => rfl

theorem position_keepsDepth : KeepsDepth position :=
  .draw fun _ => rfl

/-- A declared symbol is in the table, not on the desk. -/
theorem declare_keepsDepth (symbol : Symbol) (span : Span) : KeepsDepth (declare symbol span) :=
  .get_bind fun _ => .bind .orFail fun _ => .modify fun _ => rfl

theorem markInitialized_keepsDepth (v : Variable) : KeepsDepth (markInitialized v) := by
  unfold markInitialized
  cases v.rank with
  | none => exact .pure
  | some rank => exact .modify fun _ => rfl

theorem apply_keepsDepth (op : Operator) (ty : Ty) (span : Span) :
    KeepsDepth (apply op ty span) := by
  unfold apply
  split
  · exact .bind (write_keepsDepth _) fun _ => .pure
  · exact .fail

theorem reduce_keepsDepth (types : List Ty) (operator : Operator × Span) :
    KeepsDepth (reduce types operator) := by
  unfold reduce
  dsimp only
  split
  · split
    · exact .bind (apply_keepsDepth _ _ _) fun _ => .pure
    · exact .alarm
  · split
    · exact .refuse_bind (.bind (apply_keepsDepth _ _ _) fun _ => .pure)
    · exact .alarm

/-- Operators are applied one after another. The induction is on those that are left. -/
theorem reduceAll_keepsDepth (operators : List (Operator × Span)) (types : List Ty) :
    KeepsDepth (operators.foldlM reduce types) := by
  induction operators generalizing types with
  | nil => exact .pure
  | cons operator operators ih => exact .bind (reduce_keepsDepth _ _) ih

theorem negation_keepsDepth (operators : OperatorStack Span) : KeepsDepth (negation operators) := by
  refine .bind (eat_keepsDepth _) fun sign => ?_
  cases sign <;> exact .pure

theorem cast_keepsDepth (ty : Ty) : KeepsDepth (cast ty) := by
  refine .bind (eat_keepsDepth _) fun word => ?_
  cases word with
  | none => exact .pure
  | some span =>
    exact .bind expectType_keepsDepth fun _ => .refuse_bind <|
      .bind (write_keepsDepth _) fun _ => .pure

theorem loopJump_keepsDepth (jump : Jump) : KeepsDepth (loopJump jump) :=
  .bind next_keepsDepth fun _ => .get_bind fun _ => .refuse_bind <|
    .bind placeholder_keepsDepth fun _ =>
      .bind (.draw fun _ => rfl) fun _ =>
        .bind (expect_keepsDepth _) fun _ => .pure

/-- A loop opens and closes its jumps, which are no levels, and its body comes between. -/
theorem insideLoop_keepsDepth {step : SinglePass Unit} (keeps : KeepsDepth step) (recheck : Nat) :
    KeepsDepth (insideLoop recheck step) := by
  have closes : KeepsDepth (onDesk (·.closeLoop recheck)) := by
    refine .onDesk fun desk jumps after done => ?_
    unfold Desk.closeLoop at done
    split at done
    · cases done
    · split at done
      · cases done
        rfl
      · cases done
  -- The routine hands on what the body fails with, so it is no bind of two steps.
  intro depth b jumps b'' before done
  unfold insideLoop at done
  split at done
  next b' ran =>
    have inside := keeps depth { b with desk := b.desk.openLoop recheck } _ b' before ran
    exact closes depth b' jumps b'' inside done
  next => split at done <;> cases done

section

variable {keeping : Keeping}

theorem patch_keepsDepth (site target : Nat) : KeepsDepth (patch keeping site target) :=
  .bind (.of_keeps keepOffset_keeps) fun _ => .redraw .patch

theorem patchAll_keepsDepth (sites : List Nat) (target : Nat) :
    KeepsDepth (patchAll keeping sites target) :=
  .bind (.of_keeps keepOffsets_keep) fun _ => .redraw .patchAll

theorem keep_keepsDepth (number : Nat) : KeepsDepth (keep keeping number) :=
  fun _ => keep_keeps.after fun _ _ holds => holds.2

theorem register_keepsDepth (entry : Entry) : KeepsDepth (register keeping entry) :=
  .bind (.modifyGet fun _ => rfl) fun _ => keep_keepsDepth _

theorem resolve_keepsDepth (rank : Nat) (name : String) (span : Span) :
    KeepsDepth (resolve keeping rank name span) :=
  .of_keeps resolve_keeps

theorem allocate_keepsDepth (rank : Nat) : KeepsDepth (allocate keeping rank) :=
  .bind (.modifyGet fun _ => by unfold Bench.allocate; split <;> rfl) fun _ => .get_bind fun _ =>
    .bind (keep_keepsDepth _) fun _ => keep_keepsDepth _

theorem publish_keepsDepth (symbol : Symbol) : KeepsDepth (publish keeping symbol) := by
  unfold publish
  split
  · exact .bind (register_keepsDepth _) fun _ => .modify fun _ => rfl
  · exact .pure

theorem declaredSymbol_keepsDepth (rank : Nat) (isConst : Bool) :
    KeepsDepth (declaredSymbol keeping rank isConst) :=
  .bind expectIdentifier_keepsDepth fun _ => .bind (.of_keeps isTaken_keeps) fun _ =>
    .refuse_bind <| .bind (expect_keepsDepth _) fun _ => .bind expectValueType_keepsDepth fun _ =>
      .bind (allocate_keepsDepth _) fun _ => .bind (declare_keepsDepth _ _) fun _ =>
        .bind (publish_keepsDepth _) fun _ => .pure

theorem param_keepsDepth (before : Signature) : KeepsDepth (param keeping before) := by
  refine .bind (eat_keepsDepth _) fun _ => .bind expectIdentifier_keepsDepth fun _ =>
    .bind (expect_keepsDepth _) fun _ => .bind expectValueType_keepsDepth fun _ =>
      .bind (.of_keeps param?_keeps) fun _ => .bind .orFail fun _ =>
        .bind (eat_keepsDepth _) fun comma => ?_
  cases comma <;> exact .pure

/-- The head of a function has no expressions or blocks in it. -/
theorem functionHead_keepsDepth : KeepsDepth (functionHead keeping) := by
  have listed (isEmpty : Bool) (before : Signature) :
      KeepsDepth (if isEmpty then pure before else repeatUntil (param keeping) before) := by
    split
    · exact .pure
    · exact .repeatUntil param_keepsDepth _
  have params (before : Signature) : KeepsDepth (params keeping before) :=
    .bind (expect_keepsDepth _) fun _ => .bind (check_keepsDepth _) fun _ =>
      .bind (listed _ _) fun _ => .bind (expect_keepsDepth _) fun _ => .pure
  exact .bind (expect_keepsDepth _) fun _ => .bind expectIdentifier_keepsDepth fun _ =>
    .get_bind fun _ => .refuse_bind <| .bind (register_keepsDepth _) fun _ =>
      .bind (params _) fun _ => .bind (expect_keepsDepth _) fun _ =>
        .bind expectType_keepsDepth fun _ => .pure

theorem finish_keepsDepth (eof : Span) : KeepsDepth (finish keeping eof) := by
  refine .get_bind fun found => ?_
  split
  · refine .bind (write_keepsDepth _) fun _ => .bind (register_keepsDepth _) fun _ =>
      .get_bind fun _ => ?_
    split
    · exact .alarm
    · exact .pure
  · exact .fail

end

/-- All routines have left the levels that they entered where they succeed, and no others. -/
structure RoutinesKeepDepth (calls : Routines) : Prop where
  program : KeepsDepth calls.program
  function : KeepsDepth calls.function
  block : ∀ rank, KeepsDepth (calls.block rank)
  statement : ∀ rank, KeepsDepth (calls.statement rank)
  declaration : ∀ rank, KeepsDepth (calls.declaration rank)
  conditional : ∀ rank, KeepsDepth (calls.conditional rank)
  iteration : ∀ rank, KeepsDepth (calls.iteration rank)
  loopJump : ∀ jump, KeepsDepth (calls.loopJump jump)
  giveBack : ∀ rank, KeepsDepth (calls.giveBack rank)
  expression : ∀ rank, KeepsDepth (calls.expression rank)
  operand : ∀ rank, KeepsDepth (calls.operand rank)
  primary : ∀ rank, KeepsDepth (calls.primary rank)
  assignment : ∀ rank name span, KeepsDepth (calls.assignment rank name span)
  call : ∀ rank name span, KeepsDepth (calls.call rank name span)
  arguments : ∀ rank, KeepsDepth (calls.arguments rank)
  libraryCall : ∀ rank function, KeepsDepth (calls.libraryCall rank function)

section

variable {keeping : Keeping} {limit : Nat} {calls : Routines} (inner : RoutinesKeepDepth calls)
  (rank : Nat)

include inner

/-- One turn of the expression reader: only the operand inside may go deeper. -/
theorem operandAndOperator_keepsDepth (before : Unfinished) :
    KeepsDepth (operandAndOperator calls rank before) := by
  refine .bind (.repeatUntil negation_keepsDepth _) fun _ => .bind (inner.operand rank) fun _ =>
    .bind peek_keepsDepth fun token => ?_
  split
  · exact .bind next_keepsDepth fun _ => .bind (reduceAll_keepsDepth _ _) fun _ => .pure
  · refine .bind (reduceAll_keepsDepth _ _) fun types => ?_
    split
    · exact .pure
    · exact .alarm

theorem named_keepsDepth (name : String) (span : Span) :
    KeepsDepth (named keeping calls rank name span) := by
  refine .bind peek_keepsDepth fun token => ?_
  split
  · exact inner.assignment _ _ _
  · exact inner.call _ _ _
  · exact .bind (resolve_keepsDepth _ _ _) fun _ => .bind (write_keepsDepth _) fun _ => .pure

/-- A group is a level. It is left when the group is closed. -/
theorem parenthesized_keepsDepth (opening : Span) :
    KeepsDepth (parenthesized keeping limit calls rank opening) :=
  .enter_bind <| .bind (inner.expression _) fun _ => .bind (expect_keepsDepth _) fun _ =>
    .leave_bind .pure

/-- What a primary expression begins with tells what it enters. -/
theorem primary_keepsDepth : KeepsDepth (primary keeping limit calls rank) := by
  refine .bind next_keepsDepth fun token => ?_
  obtain ⟨kind, span⟩ := token
  cases kind with
  | identifier name => exact .bind (slice_keepsDepth _) fun _ => named_keepsDepth inner _ _ _
  | uint | double | char => exact .bind (write_keepsDepth _) fun _ => .pure
  | mark sign =>
    cases sign with
    | openParen => exact parenthesized_keepsDepth inner _ _
    | _ => exact .fail
  | _ => exact .fail

/-- The value of an assignment is a level. -/
theorem assignment_keepsDepth (name : String) (span : Span) :
    KeepsDepth (assignment keeping limit calls rank name span) :=
  .bind (resolve_keepsDepth _ _ _) fun _ => .refuse_bind <| .bind (expect_keepsDepth _) fun _ =>
    .bind (write_keepsDepth _) fun _ => .enter_bind <| .bind (inner.expression _) fun _ =>
      .leave_bind <| .refuse_bind <| .bind (write_keepsDepth _) fun _ =>
        .bind (markInitialized_keepsDepth _) fun _ => .pure

theorem argument_keepsDepth (before : List (Ty × Span)) :
    KeepsDepth (argument calls rank before) := by
  refine .bind peek_keepsDepth fun _ => .bind (inner.expression _) fun _ =>
    .bind (eat_keepsDepth _) fun comma => ?_
  cases comma <;> exact .pure

/-- All arguments of a call are one level. -/
theorem arguments_keepsDepth : KeepsDepth (arguments keeping limit calls rank) := by
  have listed (isEmpty : Bool) : KeepsDepth (if isEmpty then pure [] else
      repeatUntil (argument calls rank) []) := by
    split
    · exact .pure
    · exact .repeatUntil (argument_keepsDepth inner rank) _
  exact .bind (expect_keepsDepth _) fun _ => .enter_bind <| .bind (check_keepsDepth _) fun _ =>
    .bind (listed _) fun _ => .bind (expect_keepsDepth _) fun _ => .leave_bind .pure

/-- The argument of a library call is a level, if it is an expression. -/
theorem libraryArgument_keepsDepth (opening : Span) (argument : Library.Argument) :
    KeepsDepth (libraryArgument keeping limit calls rank opening argument) := by
  cases argument with
  | nothing => exact .pure
  | value expected =>
    exact .bind peek_keepsDepth fun _ => .refuse_bind <| .enter_bind <|
      .bind (inner.expression _) fun _ => .leave_bind .refuse
  | text =>
    refine .bind next_keepsDepth fun token => ?_
    split
    · exact .bind (slice_keepsDepth _) fun _ => .bind (register_keepsDepth _) fun _ =>
        write_keepsDepth _
    · exact .fail

theorem libraryCall_keepsDepth (function : Library) :
    KeepsDepth (libraryCall keeping limit calls rank function) :=
  .bind (register_keepsDepth _) fun _ => .bind (write_keepsDepth _) fun _ =>
    .bind (expect_keepsDepth _) fun _ => .bind (libraryArgument_keepsDepth inner _ _ _) fun _ =>
      .bind (expect_keepsDepth _) fun _ => .bind (write_keepsDepth _) fun _ => .pure

theorem call_keepsDepth (name : String) (span : Span) :
    KeepsDepth (call calls rank name span) := by
  unfold call
  split
  · exact inner.libraryCall _ _
  · exact .bind (.of_keeps callee_keeps) fun _ => .bind (write_keepsDepth _) fun _ =>
      .bind (inner.arguments _) fun _ => .bind (.of_keeps matchParams_keeps) fun _ =>
        .bind (write_keepsDepth _) fun _ => .pure

theorem declaration_keepsDepth : KeepsDepth (declaration keeping calls rank) := by
  have word : KeepsDepth declarationWord := by
    refine .bind next_keepsDepth fun token => ?_
    split
    · exact .pure
    · exact .pure
    · exact .fail
  have sign (isConst : Bool) : KeepsDepth (initializerSign isConst) := by
    unfold initializerSign
    split
    · exact .map (expect_keepsDepth _)
    · exact eat_keepsDepth _
  have value (symbol : Symbol) : KeepsDepth (initializer calls rank symbol) := by
    refine .bind (sign _) fun sign => ?_
    cases sign with
    | none => exact .pure
    | some sign =>
      exact .bind (write_keepsDepth _) fun _ => .bind (inner.expression _) fun _ =>
        .refuse_bind <| .bind (write_keepsDepth _) fun _ => markInitialized_keepsDepth _
  exact .bind word fun _ => .bind (declaredSymbol_keepsDepth _ _) fun _ => .bind (value _) fun _ =>
    .bind (expect_keepsDepth _) fun _ => .pure

theorem giveBack_keepsDepth : KeepsDepth (giveBack calls rank) := by
  have value (span : Span) : KeepsDepth (returnedValue calls rank span) := by
    refine .get_bind fun _ => .bind (check_keepsDepth _) fun isEmpty => ?_
    split
    · exact .refuse
    · exact .bind (inner.expression _) fun _ => .refuse_bind (write_keepsDepth _)
  exact .bind (expect_keepsDepth _) fun _ => .bind (write_keepsDepth _) fun _ =>
    .bind (value _) fun _ => .bind (.draw fun _ => rfl) fun _ =>
      .bind (write_keepsDepth _) fun _ => .bind (expect_keepsDepth _) fun _ => .pure

theorem innerBlock_keepsDepth : KeepsDepth (innerBlock keeping calls rank) :=
  .bind (keep_keepsDepth _) fun _ => .bind (inner.block _) fun _ => .pure

theorem evaluation_keepsDepth : KeepsDepth (evaluation calls rank) :=
  .bind (inner.expression _) fun _ => .bind (write_keepsDepth _) fun _ =>
    .bind (expect_keepsDepth _) fun _ => .pure

theorem statement_keepsDepth : KeepsDepth (statement keeping calls rank) := by
  refine .bind peek_keepsDepth fun token => ?_
  split
  · exact inner.declaration _
  · exact inner.declaration _
  · exact inner.conditional _
  · exact inner.iteration _
  · exact inner.giveBack _
  · exact inner.loopJump _
  · exact inner.loopJump _
  · exact innerBlock_keepsDepth inner _
  · exact .bind next_keepsDepth fun _ => .pure
  · exact evaluation_keepsDepth inner _

theorem statementOrEnd_keepsDepth (before : Unit) :
    KeepsDepth (statementOrEnd calls rank before) := by
  refine .bind (check_keepsDepth _) fun ends => ?_
  split
  · exact .pure
  · exact .bind (inner.statement _) fun _ => .pure

/-- A block is a level. -/
theorem block_keepsDepth : KeepsDepth (block keeping limit calls rank) :=
  .bind (expect_keepsDepth _) fun _ => .enter_bind <|
    .bind (.repeatUntil (statementOrEnd_keepsDepth inner rank) _) fun _ =>
      .bind (expect_keepsDepth _) fun _ => .bind (.modify fun _ => rfl) fun _ => .leave_bind .pure

theorem test_keepsDepth (span : Span) : KeepsDepth (test calls rank span) :=
  .bind (inner.expression _) fun _ => .refuse_bind (write_keepsDepth _)

theorem alternative_keepsDepth : KeepsDepth (alternative keeping calls rank) := by
  refine .bind (eat_keepsDepth _) fun word => ?_
  cases word with
  | none => exact .pure
  | some span =>
    refine .bind (check_keepsDepth _) fun again => ?_
    split
    · exact inner.conditional _
    · exact innerBlock_keepsDepth inner _

/-- A conditional is a level, with its condition, its body and its alternative. -/
theorem conditional_keepsDepth : KeepsDepth (conditional keeping limit calls rank) :=
  .bind (expect_keepsDepth _) fun _ => .enter_bind <| .bind (test_keepsDepth inner _ _) fun _ =>
    .bind placeholder_keepsDepth fun _ => .bind (innerBlock_keepsDepth inner _) fun _ =>
      .bind placeholder_keepsDepth fun _ => .bind position_keepsDepth fun _ =>
        .bind (patch_keepsDepth _ _) fun _ => .bind (alternative_keepsDepth inner _) fun _ =>
          .bind position_keepsDepth fun _ => .bind (patch_keepsDepth _ _) fun _ => .leave

/-- A loop is a level, with its condition and its body. -/
theorem iteration_keepsDepth : KeepsDepth (iteration keeping limit calls rank) :=
  .bind (expect_keepsDepth _) fun _ => .enter_bind <| .bind placeholder_keepsDepth fun _ =>
    .bind position_keepsDepth fun _ => .bind (patch_keepsDepth _ _) fun _ =>
      .bind (test_keepsDepth inner _ _) fun _ => .bind placeholder_keepsDepth fun _ =>
        .bind (insideLoop_keepsDepth (innerBlock_keepsDepth inner _) _) fun _ =>
          .bind placeholder_keepsDepth fun _ => .bind (patch_keepsDepth _ _) fun _ =>
            .bind position_keepsDepth fun _ => .bind (patch_keepsDepth _ _) fun _ =>
              .bind (patchAll_keepsDepth _ _) fun _ => .bind (patchAll_keepsDepth _ _) fun _ =>
                .leave

/-- A function works on a desk of its own. The outer one comes back with its depth. -/
theorem function_keepsDepth : KeepsDepth (function keeping calls) := by
  have opens (signature : Signature) : KeepsDepth (openFunction signature) := by
    rintro depth b _ _ before ⟨⟩
    exact before
  have closes (outer : Desk) (closing : Span) : KeepsDepth (closeFunction outer closing) := by
    refine fun depth => Establishes.get.bind fun found => ?_
    split
    · exact .alarm
    · split
      · rintro b _ _ ⟨rfl, before⟩ ⟨⟩
        exact before
      · exact .fail
  exact .bind functionHead_keepsDepth fun _ => .bind (opens _) fun _ => .bind (inner.block _)
    fun _ => closes _ _

theorem itemOrEnd_keepsDepth (before : Unit) : KeepsDepth (itemOrEnd calls before) := by
  refine .bind peek_keepsDepth fun token => ?_
  split
  · exact .map inner.function
  · exact .map (inner.declaration _)
  · exact .map (inner.declaration _)
  · exact .pure
  · exact .fail

theorem program_keepsDepth : KeepsDepth (program keeping calls) :=
  .bind (.repeatUntil (itemOrEnd_keepsDepth inner) _) fun _ => .bind (expect_keepsDepth _) fun _ =>
    finish_keepsDepth _

end

/-- The routines keep the depth, however they keep their numbers, whatever the limit is, and
wherever they start. The induction is on the calls that may be active. -/
theorem routines_keepDepth (keeping : Keeping) (limit active : Nat) :
    RoutinesKeepDepth (routines keeping limit active) := by
  induction active with
  | zero => constructor <;> intros <;> exact .alarm
  | succ active inner =>
    exact {
      program := program_keepsDepth inner
      function := function_keepsDepth inner
      block := block_keepsDepth inner
      statement := statement_keepsDepth inner
      declaration := declaration_keepsDepth inner
      conditional := conditional_keepsDepth inner
      iteration := iteration_keepsDepth inner
      loopJump := loopJump_keepsDepth
      giveBack := giveBack_keepsDepth inner
      expression := fun rank => .repeatUntil (operandAndOperator_keepsDepth inner rank) _
      operand := fun rank => .bind (inner.primary rank) fun ty => .repeatUntil cast_keepsDepth ty
      primary := primary_keepsDepth inner
      assignment := assignment_keepsDepth inner
      call := call_keepsDepth inner
      arguments := arguments_keepsDepth inner
      libraryCall := libraryCall_keepsDepth inner }

end SinglePass

end C0
