import C0.Proofs.ScopeTracking

namespace C0

namespace State

variable {s t : State}

theorem current_of_rest {kind : Kind} {more : List Reading} (readings : s.rest = .ok kind :: more) :
    s.current = .ok kind := by
  simp [current, readings]

/-- What the reader takes, the scan has before it too. -/
theorem Stands.take {kind : Kind} {lexicon : Lexicon} (stands : s.Stands lexicon)
    (takes : s.Takes kind t) : t.Stands lexicon := by
  obtain ⟨_, rfl⟩ := takes
  exact ⟨stands.entries, stands.distinct, stands.named,
    fun cause member => stands.lexical cause (List.mem_of_mem_tail member)⟩

/-- The fault is that of a token which is not expected or cannot be read. -/
def Blames (s : State) (fault : Fault Nat) : Prop :=
  fault.cause = .unexpectedToken ∨ s.current = .error fault.cause

/-- A lexical fault is not about a name. -/
theorem Stands.plain {lexicon : Lexicon} {fault : Fault Nat} (stands : s.Stands lexicon)
    (blames : s.Blames fault) : fault.cause.isScope = false := by
  rcases blames with unexpected | unreadable
  · rw [unexpected]
    rfl
  · obtain ⟨rest, readings⟩ := current_error unreadable
    exact stands.lexical _ (by simp [readings])

end State

namespace Lexicon

variable {lexicon : Lexicon} {name : String} {site : Nat} {readings : List Reading}
  (untyped : ∀ ty more, readings = .ok (.mark .colon) :: .ok (.type ty) :: more → ty = .void)

include untyped

theorem typeMove_stop : lexicon.typeMove name site readings = .stop := by
  unfold typeMove
  split
  · rw [if_pos (untyped _ _ rfl)]
  · rfl

theorem paramMove_stop : lexicon.paramMove name site readings = .stop := by
  unfold paramMove
  split
  · rw [if_pos (untyped _ _ rfl)]
  · rfl

end Lexicon

namespace Analysis

variable {α β : Type} {scope : Scope} {lexicon next : Lexicon} {s t u : State} {fault : Fault Nat}

/-- Two steps fail in the first or in the second. -/
theorem bind_error_iff {m : Analysis α} {f : α → Analysis β} :
    (m >>= f) s = .error fault t ↔
      m s = .error fault t ∨ ∃ a u, m s = .ok a u ∧ f a u = .error fault t := by
  rw [bind_eq]
  cases m s <;> simp

theorem refuse_error_iff {bad : Prop} [Decidable bad] {cause : Cause} {site : Nat} :
    refuse bad cause site s = .error fault t ↔ bad ∧ fault = ⟨cause, site⟩ ∧ t = s := by
  unfold refuse
  split
  · rename_i holds
    change EStateM.Result.error _ s = _ ↔ _
    simp [holds, eq_comm]
  · rename_i fails
    change EStateM.Result.ok () s = _ ↔ _
    simp [fails]

/-- A token that cannot be taken is a lexical fault. -/
theorem next_failed (run : Analysis.next s = .error fault t) : s.Blames fault := by
  rw [next_eq] at run
  cases current : s.current with
  | ok kind => simp [current] at run
  | error cause =>
    simp only [current, EStateM.Result.error.injEq] at run
    exact .inr (by rw [← run.1, current])

/-- A token that is asked for is not the one that comes. -/
theorem expect_failed {kind : Kind} (run : expect kind s = .error fault t) :
    s.Blames fault ∧ s.current ≠ .ok kind := by
  simp only [expect, bind_error_iff, next_ok_iff, refuse_error_iff] at run
  rcases run with unread | ⟨word, v, ⟨⟨current, _⟩, _⟩, ⟨other, rfl, _⟩ | ⟨_, _, _, impossible⟩⟩
  · refine ⟨next_failed unread, fun current => ?_⟩
    simp [next_eq, current] at unread
  · refine ⟨.inl rfl, fun here => other ?_⟩
    rw [current] at here
    exact Except.ok.inj here
  · cases impossible

theorem expectIdentifier_failed (run : expectIdentifier s = .error fault t) :
    s.Blames fault ∧ ∀ name, s.current ≠ .ok (.identifier name) := by
  simp only [expectIdentifier, bind_error_iff, next_ok_iff] at run
  rcases run with unread | ⟨⟨kind, _⟩, v, ⟨⟨current, _⟩, _⟩, failed⟩
  · refine ⟨next_failed unread, fun name current => ?_⟩
    simp [next_eq, current] at unread
  · cases kind with
    | identifier name => cases failed
    | _ =>
      cases failed
      exact ⟨.inl rfl, by simp [current]⟩

theorem expectType_failed (run : expectType s = .error fault t) :
    s.Blames fault ∧ ∀ ty, s.current ≠ .ok (.type ty) := by
  simp only [expectType, bind_error_iff, next_ok_iff] at run
  rcases run with unread | ⟨⟨kind, _⟩, v, ⟨⟨current, _⟩, _⟩, failed⟩
  · refine ⟨next_failed unread, fun ty current => ?_⟩
    simp [next_eq, current] at unread
  · cases kind with
    | type ty => cases failed
    | _ =>
      cases failed
      exact ⟨.inl rfl, by simp [current]⟩

/-- The type of a value is missing: there is none, or it is void. -/
theorem expectValueType_failed (run : expectValueType s = .error fault t) :
    s.Blames fault ∧ (∀ ty, s.current ≠ .ok (.type ty)) ∨
      fault.cause = .typeMismatch ∧ s.current = .ok (.type .void) := by
  simp only [expectValueType, bind_error_iff, expectType_ok_iff, refuse_error_iff] at run
  rcases run with untyped | ⟨word, v, ⟨⟨current, _⟩, _⟩, ⟨void, rfl, _⟩ | ⟨_, _, _, impossible⟩⟩
  · exact .inl (expectType_failed untyped)
  · exact .inr ⟨rfl, void ▸ current⟩
  · cases impossible

/-- A colon and the type of a value are taken, or their absence has nothing to do with names. -/
theorem annotation_cases {f : Ty → Analysis α} {result : EStateM.Result (Fault Nat) State α}
    (stands : s.Stands lexicon)
    (run : (expect (.mark .colon) >>= fun _ => expectValueType >>= f) s = result) :
    (∃ ty t u, s.Takes (.mark .colon) t ∧ t.Takes (.type ty) u ∧ ty ≠ .void ∧ f ty u = result) ∨
    ∃ fault t, result = .error fault t ∧ fault.cause.isScope = false ∧
      ∀ ty more, s.rest = .ok (.mark .colon) :: .ok (.type ty) :: more → ty = .void := by
  rw [bind_eq] at run
  cases colon : expect (.mark .colon) s with
  | error fault t =>
    obtain ⟨blames, other⟩ := expect_failed colon
    rw [colon] at run
    refine .inr ⟨fault, t, run.symm, stands.plain blames, fun ty more readings => ?_⟩
    exact absurd (State.current_of_rest readings) other
  | ok site t =>
    have takes := (expect_ok_iff.mp colon).1
    have readings := takes.rest (by simp)
    simp only [colon, bind_eq] at run
    cases typed : expectValueType t with
    | ok ty u =>
      obtain ⟨type, proper⟩ := expectValueType_ok_iff.mp typed
      rw [typed] at run
      exact .inl ⟨ty, t, u, takes, type, proper, run⟩
    | error fault u =>
      rw [typed] at run
      refine .inr ⟨fault, u, run.symm, ?_⟩
      rcases expectValueType_failed typed with ⟨blames, other⟩ | ⟨mismatch, void⟩
      · refine ⟨(stands.take takes).plain blames, fun ty more same => ?_⟩
        rw [readings] at same
        exact absurd (State.current_of_rest (List.cons.inj same).2) (other ty)
      · refine ⟨by rw [mismatch]; rfl, fun ty more same => ?_⟩
        rw [readings] at same
        have here := State.current_of_rest (List.cons.inj same).2
        rw [void] at here
        cases here
        rfl

theorem orFail_error_iff {checked : Except (Fault Nat) α} :
    orFail checked s = .error fault t ↔ checked = .error fault ∧ t = s := by
  cases checked with
  | ok value =>
    change EStateM.Result.ok value s = _ ↔ _
    simp
  | error cause =>
    change EStateM.Result.error cause s = _ ↔ _
    simp [eq_comm]

/-- A symbol is refused only where its name is taken in the same block. -/
theorem declare_failed {symbol : Symbol} {site : Nat}
    (run : declare symbol site s = .error fault t) :
    s.symbols.isDeclaredAt symbol.name symbol.rank = true ∧
      fault = ⟨.duplicateDeclaration, site⟩ := by
  simp only [declare, bind_error_iff, get_ok_iff, orFail_error_iff] at run
  rcases run with impossible | ⟨_, _, ⟨rfl, rfl⟩, ⟨refused, _⟩ | ⟨_, _, _, impossible⟩⟩
  · cases impossible
  · unfold SymbolTable.declare at refused
    split at refused
    · rename_i taken
      exact ⟨taken, (Except.error.inj refused).symm⟩
    · cases refused
  · cases impossible

/-- Only the directory hears of a global, so nothing can go wrong. -/
theorem publish_succeeds (symbol : Symbol) : publish symbol s ≠ .error fault t := by
  unfold publish
  split
  · exact fun failed => by cases failed
  · exact fun failed => by cases failed

/-- A declaration that fails before its symbol is declared fails as the scan says. -/
theorem declaredSymbol_failed {isConst : Bool} (matched : s.Matches scope lexicon)
    (word : s.Takes (.keyword (if isConst then .constWord else .letWord)) t)
    (run : declaredSymbol scope isConst t = .error fault u) :
    FaultAgrees (lexicon.scan s.position s.rest).2 fault u.position := by
  have moves : lexicon.move s.position (.keyword (if isConst then .constWord else .letWord)) t.rest =
      lexicon.declarationMove s.position t.rest := by
    cases isConst <;> simp [Lexicon.move, matched.outside]
  have stopped (plain : fault.cause.isScope = false)
      (ends : lexicon.declarationMove s.position t.rest = .stop) :
      FaultAgrees (lexicon.scan s.position s.rest).2 fault u.position := by
    rw [word.scan (by simp), Lexicon.scan_cons_stop (moves.trans ends)]
    exact .inr ⟨plain, by simp⟩
  have refused (ends : lexicon.declarationMove s.position t.rest = .refuse fault) :
      FaultAgrees (lexicon.scan s.position s.rest).2 fault u.position := by
    rw [word.scan (by simp), Lexicon.scan_cons_refuse (moves.trans ends)]
    exact .inl rfl
  have matched := matched.take word
  have position := word.position
  -- From here on each case is one step of the reader that may fail.
  rcases bind_error_iff.mp run with unnamed | ⟨⟨name, _⟩, v, found, run⟩
  · obtain ⟨blames, other⟩ := expectIdentifier_failed unnamed
    refine stopped (matched.plain blames) ?_
    unfold Lexicon.declarationMove
    split
    · rename_i readings
      exact absurd (State.current_of_rest readings) (other _)
    · rfl
  obtain ⟨named, rfl⟩ := expectIdentifier_ok_iff.mp found
  have readings := named.rest (by simp)
  have matched := matched.take named
  rcases bind_error_iff.mp run with impossible | ⟨_, _, got, run⟩
  · cases impossible
  obtain ⟨rfl, rfl⟩ := get_ok_iff.mp got
  rcases bind_error_iff.mp run with bad | ⟨_, _, good, run⟩
  · obtain ⟨taken, rfl, rfl⟩ := refuse_error_iff.mp bad
    rw [matched.isTaken] at taken
    refine refused ?_
    rw [readings]
    simp only [Lexicon.declarationMove, taken, if_true, position]
  obtain ⟨free, rfl⟩ := refuse_ok_iff.mp good
  rw [matched.isTaken, Bool.not_eq_true] at free
  have moves : lexicon.declarationMove s.position t.rest =
      lexicon.typeMove name t.position v.rest := by
    rw [readings, position]
    simp only [Lexicon.declarationMove, free, Bool.false_eq_true, if_false]
  rcases annotation_cases matched.toStands run with
    ⟨ty, w, x, colon, typed, proper, run⟩ | ⟨_, _, failed, plain, untyped⟩
  · have matched := (matched.take colon).take typed
    rcases bind_error_iff.mp run with impossible | ⟨slot, y, allocated, run⟩
    · cases impossible
    rcases bind_error_iff.mp run with declared | ⟨_, z, _, run⟩
    · obtain ⟨again, rfl⟩ := declare_failed declared
      have cores : y.cores = x.cores := by
        rw [modifyGet_ok_iff] at allocated
        unfold State.allocate at allocated
        split at allocated <;> obtain ⟨_, rfl⟩ := Prod.mk.inj allocated <;> rfl
      rw [State.isDeclaredAt_eq, cores, matched.isInBlock free] at again
      refine refused (moves.trans ?_)
      rw [colon.rest (by simp), typed.rest (by simp)]
      simp only [Lexicon.typeMove, proper, if_false, again, if_true]
    · rcases bind_error_iff.mp run with failed | ⟨_, _, _, impossible⟩
      · exact absurd failed (publish_succeeds _)
      · cases impossible
  · cases failed
    exact stopped plain (moves.trans (Lexicon.typeMove_stop untyped))

end Analysis

/-- A declaration is scanned as one, with its first value if there is a sign for it. -/
theorem Declares.scan {scope : Scope} {symbol : Symbol} {s t : State} {lexicon : Lexicon}
    (declares : Declares scope symbol s t) (matched : s.Matches scope lexicon) :
    lexicon.scan s.position s.rest =
      (if t.current = .ok (.mark .assign) then
        (lexicon.declare symbol.name).mention lexicon.newPlace
      else lexicon.declare symbol.name).scan t.position t.rest := by
  cases declares with
  | @head t u v w x word named free colon typed proper allocated ranked _ new =>
    have matched := matched.take word
    have matched := matched.take named
    rw [matched.isTaken] at free
    have matched := (matched.take colon).take typed
    have same : x.cores = w.cores ∧ x.position = w.position ∧ x.rest = w.rest := by
      unfold State.allocate at allocated
      split at allocated <;> obtain ⟨_, rfl⟩ := Prod.mk.inj allocated <;> exact ⟨rfl, rfl, rfl⟩
    have last : ((x.declared symbol).published symbol).position = w.position ∧
        ((x.declared symbol).published symbol).rest = w.rest := by
      unfold State.published
      rw [← same.2.1, ← same.2.2]
      split <;> exact ⟨rfl, rfl⟩
    rw [State.isDeclaredAt_eq, same.1, ranked, matched.isInBlock free] at new
    have begins : lexicon.move s.position symbol.word t.rest =
        lexicon.declarationMove s.position t.rest := by
      unfold Symbol.word
      cases symbol.isConst <;> simp [Lexicon.move, matched.outside]
    have sign : ((x.declared symbol).published symbol).current = .ok (.mark .assign) ↔
        w.rest.head? = some (.ok (.mark .assign)) := by
      rw [State.current, last.2]
      cases w.rest <;> simp
    have moves : lexicon.move s.position symbol.word t.rest = .go
        (if w.rest.head? = some (.ok (.mark .assign)) then
          (lexicon.declare symbol.name).mention lexicon.newPlace
        else lexicon.declare symbol.name) 3 := by
      rw [begins, named.rest (by simp), colon.rest (by simp), typed.rest (by simp)]
      simp only [Lexicon.declarationMove, Lexicon.typeMove, free, new, proper, Bool.false_eq_true,
        if_false]
      split <;> rfl
    rw [word.scan (by simp [Symbol.word]), Lexicon.scan_cons_go moves, last.1, last.2,
      typed.position, colon.position, named.position, word.position, named.rest (by simp),
      colon.rest (by simp), typed.rest (by simp)]
    simp only [sign]
    rfl

/-- A declared symbol is in scope for both from its type on. -/
theorem Declares.tracked {scope : Scope} {symbol : Symbol} {s t : State} {lexicon : Lexicon}
    (declares : Declares scope symbol s t) (matched : s.Matches scope lexicon) :
    ∃ next, t.Matches scope next ∧
      lexicon.scan s.position s.rest = next.scan t.position t.rest := by
  refine ⟨_, ?_, declares.scan matched⟩
  split
  · exact (matched.declare declares).1.mention _
  · exact (matched.declare declares).1

namespace Analysis

variable {scope : Scope} {lexicon : Lexicon} {s : State}

theorem declarationWord_agrees {fault : Fault Nat} {t : State} (stands : s.Stands lexicon)
    (run : declarationWord s = .error fault t) :
    FaultAgrees (lexicon.scan s.position s.rest).2 fault t.position := by
  refine demand_agrees (fun word t => ?_) stands run
  cases word.kind with
  | keyword word =>
    cases word with
    | letWord | constWord => exact .inl ⟨_, rfl⟩
    | _ => exact .inr rfl
  | _ => exact .inr rfl

section

variable {f : Scope → Analysis Expr} (tracks : ∀ scope, Tracks scope (f scope))

include tracks

/-- The value of a declaration is read with its name in scope. -/
theorem initializer_tracks (symbol : Symbol) : Tracks scope (initializer f scope symbol) := by
  refine Tracks.bind ?_ fun sign => ?_
  · unfold initializerSign
    split
    · exact (Tracks.expect ⟨by simp, fun _ _ _ => rfl⟩).bind fun _ => .pure _
    · exact .eat ⟨by simp, fun _ _ _ => rfl⟩
  · cases sign with
    | none => exact .pure _
    | some sign =>
      exact (tracks scope).bind fun _ => (Tracks.refuse _ rfl _).bind fun _ =>
        (Tracks.markInitialized _).bind fun _ => .pure _

/-- Declarations are followed up to their end. -/
theorem declaration_tracks : Tracks scope (declaration f scope) := by
  intro s lexicon matched
  rw [declaration, bind_eq]
  cases begins : declarationWord s with
  | error fault t => exact declarationWord_agrees matched.toStands begins
  | ok isConst t =>
    have word := declarationWord_ok_iff.mp begins
    dsimp only
    rw [bind_eq]
    cases run : declaredSymbol scope isConst t with
    | error fault u => exact declaredSymbol_failed matched word run
    | ok symbol u =>
      obtain ⟨declares, _⟩ := declaredSymbol_declares word run
      obtain ⟨next, matched, same⟩ := declares.tracked matched
      exact .after same (((initializer_tracks tracks symbol).bind fun _ =>
        (Tracks.expect ⟨by simp, fun _ _ _ => rfl⟩).bind fun _ => .pure _) u next
        matched)

theorem giveBack_tracks : Tracks scope (giveBack f scope) := by
  refine Tracks.expectReturn.bind fun site => Tracks.bind ?_ fun _ =>
    (Tracks.expect ⟨by simp, fun _ _ _ => rfl⟩).bind fun _ => .pure _
  refine (Tracks.check _).bind fun isBare => ?_
  split
  · exact (Tracks.refuse _ rfl _).bind fun _ => .pure _
  · exact (tracks scope).bind fun _ => (Tracks.refuse _ rfl _).bind fun _ => .pure _

theorem evaluation_tracks : Tracks scope (evaluation f scope) :=
  (tracks scope).bind fun _ =>
    (Tracks.expect ⟨by simp, fun _ _ _ => rfl⟩).bind fun _ => .pure _

end

/-- A jump out of a loop is about no name. -/
theorem loopJump_tracked {kind : Kind} (calm : kind.Calm) (current : s.current = .ok kind)
    (matched : s.Matches scope lexicon) (jump : Stmt) :
    Tracked scope lexicon s (loopJump scope jump s) := by
  obtain ⟨matched, same⟩ := calm.take ⟨current, rfl⟩ matched
  rw [loopJump, bind_eq, next_eq, current]
  exact .after same (((Tracks.refuse _ rfl _).bind fun _ =>
    (Tracks.expect ⟨by simp, fun _ _ _ => rfl⟩).bind fun _ => .pure _) _ lexicon matched)

/-- What is read further in agrees with the names in the bodies of functions. A block begins and
ends in the scope around it. -/
structure ReadersTrack (inner : Readers) : Prop where
  expression : ∀ scope, Tracks scope (inner.expression scope)
  block : ∀ scope body : Scope, body.signature = scope.signature → body.rank = scope.rank + 1 →
    scope.rank ≠ 0 → Tracks scope (inner.nested .block body)
  conditional : ∀ scope : Scope, scope.rank ≠ 0 → Tracks scope (inner.nested .conditional scope)
  iteration : ∀ scope : Scope, scope.rank ≠ 0 → Tracks scope (inner.nested .iteration scope)

section

variable {inner : Readers} (tracks : ReadersTrack inner) (inside : scope.rank ≠ 0)

include tracks inside

/-- Each kind of statement is followed by its own routine. -/
theorem statement_tracks : Tracks scope (statement inner scope) := by
  intro s lexicon matched
  rw [statement, bind_eq, peek_eq]
  cases current : s.current with
  | error cause => exact faultAgrees_here s lexicon (matched.lexical_current current)
  | ok kind =>
    have evaluates : Tracks scope (evaluation inner.expression scope) :=
      evaluation_tracks tracks.expression
    have declares : Tracks scope (declaration inner.expression scope) :=
      declaration_tracks tracks.expression
    cases kind with
    | keyword word =>
      cases word with
      | letWord | constWord => exact declares s lexicon matched
      | ifWord => exact tracks.conditional scope inside s lexicon matched
      | whileWord => exact tracks.iteration scope inside s lexicon matched
      | returnWord => exact giveBack_tracks tracks.expression s lexicon matched
      | breakWord | continueWord =>
        exact loopJump_tracked ⟨by simp, fun _ _ _ => rfl⟩ current matched _
      | _ => exact evaluates s lexicon matched
    | mark mark =>
      cases mark with
      | openBrace => exact tracks.block scope scope.inner rfl rfl inside s lexicon matched
      | semicolon =>
        have calm : Kind.Calm (.mark .semicolon) := ⟨by simp, fun _ _ _ => rfl⟩
        exact ⟨lexicon, calm.take ⟨current, rfl⟩ matched⟩
      | _ => exact evaluates s lexicon matched
    | _ => exact evaluates s lexicon matched

/-- The statements of a block, up to its end. -/
theorem statements_track (before : List Stmt) :
    Tracks scope (repeatUntil (statementOrEnd inner scope) before) := by
  refine .repeatUntil (fun before => (Tracks.check _).bind fun ends => ?_) before
  split
  · exact .pure _
  · exact (statement_tracks tracks inside).bind fun _ => .pure _

omit inside in
theorem test_tracks (site : Nat) : Tracks scope (test inner scope site) :=
  (tracks.expression scope).bind fun _ => (Tracks.refuse _ rfl _).bind fun _ => .pure _

/-- An `else` is a block of its own, or another conditional. -/
theorem alternative_tracks : Tracks scope (alternative inner scope) := by
  refine (Tracks.eat ⟨by simp, fun _ _ _ => rfl⟩).bind fun site => ?_
  cases site with
  | none => exact .pure _
  | some site =>
    refine (Tracks.check _).bind fun isIf => ?_
    split
    · exact tracks.conditional scope inside
    · exact tracks.block scope scope.inner rfl rfl inside

end

section

variable {inner : Option Readers} {t : State}
  (tracks : ∀ readers, inner = some readers → ReadersTrack readers)

include tracks

/-- A block that is read is scanned from its opening brace to the closing one. -/
theorem block_tracked {body : Scope} {result : Stmt × Nat} (deep : body.rank ≠ 0)
    (opened : ∀ u, s.Takes (.mark .openBrace) u → u.Matches body lexicon.opened)
    (run : block inner body s = .ok result t) :
    ∃ (next : Lexicon) (u : State), u.Matches body next ∧ t = u.closed body.rank ∧
      lexicon.scan s.position s.rest = next.closed.scan t.position t.rest := by
  simp only [block, bind_ok_iff, expect_ok_iff, enter_ok_iff, modify_ok_iff, pure_ok_iff] at run
  obtain ⟨_, u, ⟨opening, _⟩, readers, _, ⟨allowed, rfl⟩, stmts, v, statements, closingSite, w,
    ⟨closing, rfl⟩, _, _, rfl, rfl, rfl⟩ := run
  have tracked := statements_track (tracks readers allowed) deep [] u _ (opened u opening)
  rw [statements] at tracked
  obtain ⟨next, matched, same⟩ := tracked
  refine ⟨next, w, matched.take closing, rfl, ?_⟩
  rw [opening.scan_go (by simp) rfl, same]
  exact closing.scan_go (by simp) rfl

/-- A fault inside a block is the one that the scan finds there. -/
theorem block_failed {body : Scope} {fault : Fault Nat} (deep : body.rank ≠ 0)
    (stands : s.Stands lexicon)
    (opened : ∀ u, s.Takes (.mark .openBrace) u → u.Matches body lexicon.opened)
    (run : block inner body s = .error fault t) :
    FaultAgrees (lexicon.scan s.position s.rest).2 fault t.position := by
  simp only [block, bind_error_iff, expect_ok_iff, enter_ok_iff] at run
  rcases run with unopened | ⟨_, u, ⟨opening, rfl⟩, run⟩
  · exact expect_agrees stands unopened
  rw [opening.scan_go (by simp) rfl]
  rcases run with tooDeep | ⟨readers, _, ⟨allowed, rfl⟩, run⟩
  · cases inner with
    | some readers => cases tooDeep
    | none =>
      cases tooDeep
      exact faultAgrees_here _ _ rfl
  have tracked := statements_track (tracks readers allowed) deep [] u _ (opened u opening)
  rcases run with failed | ⟨stmts, v, statements, run⟩
  · rwa [failed] at tracked
  rw [statements] at tracked
  obtain ⟨next, matched, same⟩ := tracked
  rw [same]
  rcases run with unclosed | ⟨_, w, _, impossible | ⟨_, _, _, impossible⟩⟩
  · exact expect_agrees matched.toStands unclosed
  · cases impossible
  · cases impossible

/-- A block drops its names at its end, in the reader and in the scan. -/
theorem nestedBlock_tracks {body : Scope} (same : body.signature = scope.signature)
    (deeper : body.rank = scope.rank + 1) (inside : scope.rank ≠ 0) :
    Tracks scope (block inner body) := by
  intro s lexicon matched
  have deep : body.rank ≠ 0 := by omega
  have opened (u : State) (opening : s.Takes (.mark .openBrace) u) :
      u.Matches body lexicon.opened :=
    (matched.take opening).opened same deeper inside
  cases run : block inner body s with
  | error fault t => exact block_failed tracks deep matched.toStands opened run
  | ok result t =>
    obtain ⟨next, u, matched, rfl, scans⟩ := block_tracked tracks deep opened run
    exact ⟨next.closed, (matched.closed same deeper inside).1, scans⟩

/-- Both branches are in the scope around the conditional. -/
theorem conditional_tracks (inside : scope.rank ≠ 0) : Tracks scope (conditional inner scope) := by
  refine (Tracks.expect ⟨by simp, fun _ _ _ => rfl⟩).bind fun site => ?_
  cases allowed : inner with
  | none => exact .fail rfl site
  | some readers =>
    have further := tracks readers allowed
    exact (test_tracks further site).bind fun _ =>
      (further.block scope scope.inner rfl rfl inside).bind fun _ =>
        (alternative_tracks further inside).bind fun _ => .pure _

/-- The body of a loop is in the scope around the loop. -/
theorem iteration_tracks (inside : scope.rank ≠ 0) : Tracks scope (iteration inner scope) := by
  refine (Tracks.expect ⟨by simp, fun _ _ _ => rfl⟩).bind fun site => ?_
  cases allowed : inner with
  | none => exact .fail rfl site
  | some readers =>
    have further := tracks readers allowed
    exact (test_tracks further site).bind fun _ =>
      (further.block scope scope.innerLoop rfl rfl inside).bind fun _ => .pure _

end

/-- What the limit leaves further in agrees with the names. -/
theorem readersBelow_track {limit : Nat} {readers : Readers}
    (allowed : readersBelow limit = some readers) : ReadersTrack readers := by
  induction limit generalizing readers with
  | zero => cases allowed
  | succ limit ih =>
    cases allowed
    have further : ∀ readers, readersBelow limit = some readers → ReadersTrack readers :=
      fun _ => ih
    refine ⟨expression_tracks limit, ?_, ?_, ?_⟩
    · intro scope body signature deeper inside
      dsimp only
      rw [nested_eq]
      exact (nestedBlock_tracks further signature deeper inside).bind fun _ => .pure _
    · intro scope inside
      dsimp only
      rw [nested_eq]
      exact conditional_tracks further inside
    · intro scope inside
      dsimp only
      rw [nested_eq]
      exact iteration_tracks further inside

end Analysis

end C0
