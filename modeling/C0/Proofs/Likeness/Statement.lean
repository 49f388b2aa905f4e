import C0.Proofs.Likeness.Expression

namespace C0

open Analysis

namespace Likeness

variable {L : Likeness} {known : List Nat} {scope : Scope}

theorem declare_alike {symbol : Symbol} {site : Nat} (member : site ∈ known) :
    L.Alike known siteless (declare symbol site) (declare symbol site) := by
  refine .get_bind (fun _ _ => rfl) fun s => AlikeFrom.bind (.orFail fun fault failed => ?_)
    fun symbols => .ofQuiet ⟨fun _ => rfl, fun _ => rfl, fun _ _ => rfl⟩
  unfold SymbolTable.declare at failed
  split at failed <;> cases failed
  exact ⟨rfl, member⟩

theorem publish_alike (symbol : Symbol) :
    L.Alike known siteless (publish symbol) (publish symbol) := by
  unfold publish
  split
  · exact (register_alike _).bind fun _ => .ofQuiet ⟨fun _ => rfl, fun _ => rfl, fun _ _ => rfl⟩
  · exact .pure (by simp)

theorem declarationWord_alike :
    L.Alike known siteless declarationWord declarationWord := by
  refine .next_bind (fun site => ⟨.unexpectedToken, rfl, rfl, rfl⟩) fun kind site _ => ?_
  cases kind with
  | keyword word =>
    cases word with
    | letWord | constWord => exact (AlikeFrom.pure (by simp)).from _ _
    | _ => exact .fail rfl (by simp)
  | _ => exact .fail rfl (by simp)

theorem allocate_quiet (scope : Scope) : Quiet fun s => s.allocate scope := by
  by_cases outside : scope.rank = 0
  · simp only [State.allocate, outside, if_true]
    exact ⟨fun _ => rfl, fun _ => rfl, fun _ _ => rfl⟩
  · simp only [State.allocate, outside, if_false]
    exact ⟨fun _ => rfl, fun _ => rfl, fun _ _ => rfl⟩

theorem declaredSymbol_alike (isConst : Bool) :
    L.Alike known siteless (declaredSymbol scope isConst) (declaredSymbol scope isConst) :=
  AlikeFrom.expectIdentifier.bind fun _ => .get_bind (fun _ _ => rfl) fun _ =>
    .refuse_bind rfl (by simp) <| (AlikeFrom.expect (by simp)).bind fun _ =>
      AlikeFrom.expectValueType.bind fun _ =>
      (AlikeFrom.ofQuiet (allocate_quiet scope)).bind fun _ =>
        (declare_alike (by simp)).bind fun _ => (publish_alike _).bind fun _ => .pure (by simp)

theorem initializerSign_alike (isConst : Bool) :
    L.Alike known Option.toList (initializerSign isConst) (initializerSign isConst) := by
  unfold initializerSign
  split
  · have same : some <$> expect (.mark .assign) =
        expect (.mark .assign) >>= fun site => Pure.pure (some site) := map_eq_pure_bind _ _
    rw [same]
    exact (AlikeFrom.expect (by simp)).bind fun _ => .pure (by simp)
  · exact .eat (by simp)

section

variable {f f' : Scope → Analysis Expr} (pair : L.ExprPair f f')

include pair

theorem initializer_alike (symbol : Symbol) :
    L.Alike known siteless (initializer f scope symbol) (initializer f' scope symbol) := by
  refine (initializerSign_alike _).bind fun sign => ?_
  cases sign with
  | none => exact .pure (by simp)
  | some sign =>
    exact (pair.anywhere scope).bind fun _ => .refuse_bind rfl (by simp) <|
      (markInitialized_alike _).bind fun _ => .pure (by simp)

theorem declaration_alike :
    L.Alike known siteless (declaration f scope) (declaration f' scope) :=
  declarationWord_alike.bind fun _ => (declaredSymbol_alike _).bind fun _ =>
    (initializer_alike pair _).bind fun _ => (AlikeFrom.expect (by simp)).bind fun _ =>
      .pure (by simp)

theorem returnedValue_alike {site : Nat} (member : site ∈ known) :
    L.Alike known siteless (returnedValue f scope site) (returnedValue f' scope site) := by
  refine (AlikeFrom.check _).bind fun isBare => ?_
  split
  · exact .refuse_bind rfl (by simpa using member) <| .pure (by simp)
  · exact (pair.anywhere scope).bind fun _ => .refuse_bind rfl (by simpa using member) <|
      .pure (by simp)

theorem giveBack_alike : L.Alike known siteless (giveBack f scope) (giveBack f' scope) :=
  (AlikeFrom.expect (by simp)).bind fun _ => (returnedValue_alike pair (by simp)).bind fun _ =>
    (AlikeFrom.expect (by simp)).bind fun _ => .pure (by simp)

theorem evaluation_alike : L.Alike known siteless (evaluation f scope) (evaluation f' scope) :=
  (pair.anywhere scope).bind fun _ => (AlikeFrom.expect (by simp)).bind fun _ => .pure (by simp)

end

/-- A jump is read when its first token is known. -/
theorem loopJump_alike {kind : Kind} (more : kind ≠ .eof) (jump : Stmt) :
    L.AlikeFrom (·.current = .ok kind) 0 known siteless (loopJump scope jump)
      (loopJump scope jump) := by
  have split : loopJump scope jump = peek >>= fun word => advance >>= fun _ =>
      refuse (!scope.inLoop) .invalidIdentifier word.site >>= fun _ =>
        expect (.mark .semicolon) >>= fun _ => Pure.pure jump := by
    simp only [loopJump, next, bind_assoc, pure_bind]
  rw [split]
  refine .peek_bind fun found site => ?_
  refine .advance_bind (fun s starts => ⟨starts.2.1, kind, starts.1, more⟩) ?_
  exact Alike.from (.refuse_bind rfl (by simp) <|
    (AlikeFrom.expect (by simp)).bind fun _ => .pure (by simp)) _ _

/-- Two ways to read what is nested that are alike. -/
structure ReadersPair (L : Likeness) (readers readers' : Readers) : Prop where
  expression : L.ExprPair readers.expression readers'.expression
  nested : ∀ construct scope,
    L.Alike [] siteless (readers.nested construct scope) (readers'.nested construct scope)
  moves : ReadersMove readers
  moves' : ReadersMove readers'

theorem ReadersPair.anywhere {readers readers' : Readers} (pair : L.ReadersPair readers readers')
    (construct : Construct) (scope : Scope) :
    L.Alike known siteless (readers.nested construct scope) (readers'.nested construct scope) :=
  (pair.nested construct scope).weaken (by simp)

section

variable {readers readers' : Readers} (pair : L.ReadersPair readers readers')

include pair

theorem statement_alike :
    L.Alike known siteless (statement readers scope) (statement readers' scope) := by
  refine .peek_bind fun kind site => ?_
  have declared : L.Alike (site :: known) siteless (declaration readers.expression scope)
      (declaration readers'.expression scope) := declaration_alike pair.expression
  have evaluated : L.Alike (site :: known) siteless (evaluation readers.expression scope)
      (evaluation readers'.expression scope) := evaluation_alike pair.expression
  cases kind with
  | keyword word =>
    cases word with
    | letWord | constWord => exact declared.from _ _
    | ifWord | whileWord => exact (pair.anywhere _ _).from _ _
    | returnWord => exact (giveBack_alike pair.expression).from _ _
    | breakWord | continueWord =>
      exact (loopJump_alike (by simp) _).restrict fun s starts => starts.2.2
    | _ => exact evaluated.from _ _
  | mark mark =>
    cases mark with
    | openBrace => exact (pair.anywhere _ _).from _ _
    | semicolon =>
      refine .advance_bind (fun s starts => ⟨starts.2.1, _, starts.2.2, by simp⟩) ?_
      exact (AlikeFrom.pure (by simp)).from _ _
    | _ => exact evaluated.from _ _
  | _ => exact evaluated.from _ _

theorem statementOrEnd_alike (before : List Stmt) :
    L.Alike known (Sum.elim siteless siteless) (statementOrEnd readers scope before)
      (statementOrEnd readers' scope before) := by
  refine (AlikeFrom.check _).bind fun ends => ?_
  split
  · exact .pure (by simp)
  · exact (statement_alike pair).bind fun _ => .pure (by simp)

theorem test_alike {site : Nat} (member : site ∈ known) :
    L.Alike known siteless (test readers scope site) (test readers' scope site) :=
  (pair.expression.anywhere scope).bind fun _ => .refuse_bind rfl (by simpa using member) <|
    .pure (by simp)

theorem alternative_alike :
    L.Alike known siteless (alternative readers scope) (alternative readers' scope) := by
  refine (AlikeFrom.eat (by simp)).bind fun site => ?_
  cases site with
  | none => exact .pure (by simp)
  | some site =>
    refine (AlikeFrom.check _).bind fun again => ?_
    split
    · exact pair.anywhere _ _
    · exact pair.anywhere _ _

end

section

variable {inner inner' : Option Readers} (allowed : Inner ReadersPair L inner inner')

include allowed

theorem block_alike :
    L.Alike known ([·.2]) (block inner scope) (block inner' scope) :=
  .expect_bind (by simp) fun _ => .enter_bind allowed (by simp) fun _ _ _ pair =>
    (AlikeFrom.repeatUntil (statementOrEnd_progresses pair.moves scope)
      (statementOrEnd_progresses pair.moves' scope) (statementOrEnd_alike pair) [] (by simp)).bind
      fun _ => (AlikeFrom.expect (by simp)).bind fun _ =>
        AlikeFrom.bind (.ofQuiet ⟨fun _ => rfl, fun _ => rfl, fun _ _ => rfl⟩) fun _ =>
          .pure (by simp)

theorem constructWith_alike (construct : Construct) :
    L.Alike known siteless (constructWith inner construct scope)
      (constructWith inner' construct scope) := by
  cases construct with
  | block => exact (block_alike allowed).bind fun _ => .pure (by simp)
  | conditional =>
    exact .expect_bind (by simp) fun _ => .enter_bind allowed (by simp) fun _ _ _ pair =>
      (test_alike pair (by simp)).bind fun _ => (pair.anywhere _ _).bind fun _ =>
        (alternative_alike pair).bind fun _ => .pure (by simp)
  | iteration =>
    exact .expect_bind (by simp) fun _ => .enter_bind allowed (by simp) fun _ _ _ pair =>
      (test_alike pair (by simp)).bind fun _ => (pair.anywhere _ _).bind fun _ => .pure (by simp)

end

/-- What is nested is alike for two runs with the same limit. -/
theorem readersBelow_inner (late : ∀ site, ¬ L.Early ⟨.nestingTooDeep, site⟩) (limit : Nat) :
    Inner ReadersPair L (readersBelow limit) (readersBelow limit) := by
  induction limit with
  | zero => exact .neither late
  | succ limit ih =>
    have moves := readersBelow_moves (limit + 1) _ rfl
    refine .both ⟨expression_pair late limit, fun construct scope => ?_, moves, moves⟩
    cases limit <;> exact constructWith_alike ih construct

/-- What is nested is alike when the first run ends early at the smaller limit. -/
theorem readersBelow_inner_of_lt (early : ∀ site, L.Early ⟨.nestingTooDeep, site⟩)
    {limit limit' : Nat} (less : limit < limit') :
    Inner ReadersPair L (readersBelow limit) (readersBelow limit') := by
  induction limit generalizing limit' with
  | zero =>
    obtain ⟨further, rfl⟩ := Nat.exists_eq_add_of_lt less
    have same := readersBelow_inner (L := L.dead) (fun _ => id) (0 + further + 1)
    cases same with
    | both pair => exact .second early pair
  | succ limit ih =>
    cases limit' with
    | zero => omega
    | succ limit' =>
      have less : limit < limit' := by omega
      refine .both ⟨expression_pair_of_lt early less, fun construct scope => ?_,
        readersBelow_moves (limit + 1) _ rfl, readersBelow_moves (limit' + 1) _ rfl⟩
      have inside := ih less
      cases limit <;> cases limit' <;> exact constructWith_alike inside construct

end Likeness

end C0
