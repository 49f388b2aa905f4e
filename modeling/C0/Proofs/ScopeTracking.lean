import C0.Proofs.Scoping

namespace C0

/-- A failure after so many readings is the fault that a scan of the names finds. Or it has nothing
to do with names, and the scan finds no fault in what was read, unless it is at the very token that
could not be read. -/
def FaultAgrees (found : Option (Fault Nat)) (fault : Fault Nat) (position : Nat) : Prop :=
  found = some fault ∨ fault.cause.isScope = false ∧ ∀ other, found = some other →
    position ≤ other.site ∨ other.site = fault.site ∧ position = fault.site + 1

section

variable {α β : Type}

/-- What a step comes to agrees with the names: a scan from the new place on finds what it found
before, and there something holds of the state and of what names mean. Or the failure agrees. -/
def Follows (post : α → State → Lexicon → Prop) (lexicon : Lexicon) (s : State) :
    EStateM.Result (Fault Nat) State α → Prop
  | .ok a t => ∃ next, post a t next ∧
      lexicon.scan s.position s.rest = next.scan t.position t.rest
  | .error fault t => FaultAgrees (lexicon.scan s.position s.rest).2 fault t.position

/-- What a step comes to agrees with the names, and they still match. -/
abbrev Tracked (scope : Scope) (lexicon : Lexicon) (s : State)
    (result : EStateM.Result (Fault Nat) State α) : Prop :=
  Follows (fun _ t next => t.Matches scope next) lexicon s result

/-- A step that agrees with the names from every state where they match. -/
def Tracks (scope : Scope) (m : Analysis α) : Prop :=
  ∀ s lexicon, s.Matches scope lexicon → Tracked scope lexicon s (m s)

variable {scope : Scope} {lexicon next : Lexicon} {s t : State}

/-- What the scan passes with the reader may be passed beforehand. -/
theorem Follows.after {post : α → State → Lexicon → Prop}
    {result : EStateM.Result (Fault Nat) State α}
    (same : lexicon.scan s.position s.rest = next.scan t.position t.rest)
    (follows : Follows post next t result) : Follows post lexicon s result := by
  cases result with
  | ok a u =>
    obtain ⟨last, holds, same'⟩ := follows
    exact ⟨last, holds, same.trans same'⟩
  | error fault u =>
    unfold Follows at follows ⊢
    rwa [same]

theorem Follows.bind {middle : α → State → Lexicon → Prop} {post : β → State → Lexicon → Prop}
    {m : Analysis α} {f : α → Analysis β} (first : Follows middle lexicon s (m s))
    (rest : ∀ a t next, middle a t next → Follows post next t (f a t)) :
    Follows post lexicon s ((m >>= f) s) := by
  rw [Analysis.bind_eq]
  cases run : m s with
  | ok a t =>
    rw [run] at first
    obtain ⟨next, holds, same⟩ := first
    exact .after same (rest a t next holds)
  | error fault t => rwa [run] at first

theorem Tracks.bind {m : Analysis α} {f : α → Analysis β} (first : Tracks scope m)
    (rest : ∀ a, Tracks scope (f a)) : Tracks scope (m >>= f) :=
  fun s lexicon matched => (first s lexicon matched).bind fun a t next matched =>
    rest a t next matched

/-- A failure that has nothing to do with names agrees when nothing else was read. -/
theorem faultAgrees_here (s : State) (lexicon : Lexicon) {fault : Fault Nat}
    (plain : fault.cause.isScope = false) :
    FaultAgrees (lexicon.scan s.position s.rest).2 fault s.position :=
  .inr ⟨plain, fun _ found => .inl (Lexicon.scan_site found)⟩

/-- A token that cannot be read is blamed itself. -/
theorem faultAgrees_token (s : State) (lexicon : Lexicon) {cause : Cause}
    (plain : cause.isScope = false) :
    FaultAgrees (lexicon.scan s.position s.rest).2 ⟨cause, s.position⟩ s.advanced.position := by
  refine .inr ⟨plain, fun other found => ?_⟩
  have after := Lexicon.scan_site found
  by_cases same : other.site = s.position
  · exact .inr ⟨same, rfl⟩
  · exact .inl (by simp only [State.advanced]; omega)

theorem State.current_error {cause : Cause} (current : s.current = .error cause) :
    ∃ rest, s.rest = .error cause :: rest := by
  unfold State.current at current
  cases readings : s.rest with
  | nil => simp [readings] at current
  | cons reading rest =>
    rw [readings] at current
    exact ⟨rest, by rw [← current]; rfl⟩

/-- A reading that is no token is no matter of names. -/
theorem State.Stands.lexical_current {cause : Cause} (stands : s.Stands lexicon)
    (current : s.current = .error cause) : cause.isScope = false := by
  obtain ⟨rest, readings⟩ := State.current_error current
  exact stands.lexical cause (by simp [readings])

theorem Tracks.pure (a : α) : Tracks scope (pure a) :=
  fun _ lexicon matched => ⟨lexicon, matched, rfl⟩

/-- A fault that is not about a name may come anywhere: the scan is allowed to go on. -/
theorem Tracks.fail {cause : Cause} (plain : cause.isScope = false) (site : Nat) :
    Tracks scope (Analysis.fail cause site : Analysis α) :=
  fun s lexicon _ => faultAgrees_here s lexicon plain

theorem Tracks.refuse (bad : Prop) [Decidable bad] {cause : Cause} (plain : cause.isScope = false)
    (site : Nat) : Tracks scope (Analysis.refuse bad cause site) := by
  unfold Analysis.refuse
  split
  · exact .fail plain site
  · exact .pure ()

/-- So may a check for such faults. -/
theorem Tracks.orFail {checked : Except (Fault Nat) α}
    (plain : ∀ fault, checked = .error fault → fault.cause.isScope = false) :
    Tracks scope (Analysis.orFail checked) := by
  cases checked with
  | ok a => exact .pure a
  | error fault => exact fun s lexicon _ => faultAgrees_here s lexicon (plain fault rfl)

theorem Tracks.peek : Tracks scope Analysis.peek := by
  intro s lexicon matched
  rw [Analysis.peek_eq]
  cases current : s.current with
  | ok kind => exact ⟨lexicon, matched, rfl⟩
  | error cause => exact faultAgrees_here s lexicon (matched.lexical_current current)

/-- A token that is read is scanned. -/
theorem State.Takes.scan {kind : Kind} (takes : s.Takes kind t) (more : kind ≠ .eof)
    (lexicon : Lexicon) :
    lexicon.scan s.position s.rest = lexicon.scan s.position (.ok kind :: t.rest) := by
  rw [takes.rest more]

/-- The scan makes its move at the token that the reader takes. -/
theorem State.Takes.scan_go {kind : Kind} (takes : s.Takes kind t) (more : kind ≠ .eof)
    (moves : lexicon.move s.position kind t.rest = .go next 0) :
    lexicon.scan s.position s.rest = next.scan t.position t.rest := by
  rw [takes.scan more, Lexicon.scan_cons_go moves, takes.position]
  rfl

/-- A token that says nothing of names. -/
def Kind.Calm (kind : Kind) : Prop :=
  kind ≠ .eof ∧ ∀ lexicon site rest, Lexicon.move lexicon site kind rest = .go lexicon 0

/-- A token that is about no name changes no scope. -/
theorem Kind.Calm.take {kind : Kind} (calm : kind.Calm) (takes : s.Takes kind t)
    (matched : s.Matches scope lexicon) : t.Matches scope lexicon ∧
      lexicon.scan s.position s.rest = lexicon.scan t.position t.rest :=
  ⟨matched.take takes, takes.scan_go calm.1 (calm.2 lexicon s.position t.rest)⟩

/-- A token that is demanded and not there agrees, as nothing else was read. -/
theorem Analysis.demand_agrees {f : Word → Analysis α} {fault : Fault Nat}
    (demands : ∀ word t, (∃ a, f word t = .ok a t) ∨
      f word t = .error ⟨.unexpectedToken, word.site⟩ t)
    (stands : s.Stands lexicon) (run : (Analysis.next >>= f) s = .error fault t) :
    FaultAgrees (lexicon.scan s.position s.rest).2 fault t.position := by
  rw [Analysis.bind_eq, Analysis.next_eq] at run
  cases current : s.current with
  | error cause =>
    simp only [current, EStateM.Result.error.injEq] at run
    obtain ⟨rfl, rfl⟩ := run
    exact faultAgrees_here s lexicon (stands.lexical_current current)
  | ok kind =>
    simp only [current] at run
    rcases demands ⟨kind, s.position⟩ s.advanced with ⟨a, found⟩ | missing
    · rw [found] at run
      cases run
    · rw [missing] at run
      cases run
      exact faultAgrees_token s lexicon rfl

/-- Where the reader misses a token, the scan has refused nothing so far. -/
theorem Analysis.expect_agrees {kind : Kind} {fault : Fault Nat} (stands : s.Stands lexicon)
    (run : Analysis.expect kind s = .error fault t) :
    FaultAgrees (lexicon.scan s.position s.rest).2 fault t.position := by
  refine demand_agrees (fun word t => ?_) stands run
  by_cases same : word.kind = kind
  · exact .inl ⟨word.site, by simp [same]⟩
  · refine .inr ?_
    simp only [bind_eq, refuse, ne_eq, same, not_false_eq_true, if_true]
    rfl

theorem Analysis.expectIdentifier_agrees {fault : Fault Nat} (stands : s.Stands lexicon)
    (run : Analysis.expectIdentifier s = .error fault t) :
    FaultAgrees (lexicon.scan s.position s.rest).2 fault t.position := by
  refine demand_agrees (fun word t => ?_) stands run
  cases word.kind with
  | identifier name => exact .inl ⟨_, rfl⟩
  | _ => exact .inr rfl

theorem Analysis.expectType_agrees {fault : Fault Nat} (stands : s.Stands lexicon)
    (run : Analysis.expectType s = .error fault t) :
    FaultAgrees (lexicon.scan s.position s.rest).2 fault t.position := by
  refine demand_agrees (fun word t => ?_) stands run
  cases word.kind with
  | type ty => exact .inl ⟨_, rfl⟩
  | _ => exact .inr rfl

/-- A token that is asked for is passed by both, or missed by the reader. -/
theorem Follows.expect {kind : Kind} {holds : State → Lexicon → Prop} (stands : s.Stands lexicon)
    (passes : ∀ t, s.Takes kind t → ∃ next, holds t next ∧
      lexicon.scan s.position s.rest = next.scan t.position t.rest) :
    Follows (fun _ => holds) lexicon s (Analysis.expect kind s) := by
  cases run : Analysis.expect kind s with
  | error fault t => exact Analysis.expect_agrees stands run
  | ok site t => exact passes t (Analysis.expect_ok_iff.mp run).1

/-- A token that may be missing is passed by both, or by neither. -/
theorem Follows.eat {kind : Kind} {holds : State → Lexicon → Prop} (stands : s.Stands lexicon)
    (here : holds s lexicon) (passes : ∀ t, s.Takes kind t → ∃ next, holds t next ∧
      lexicon.scan s.position s.rest = next.scan t.position t.rest) :
    Follows (fun _ => holds) lexicon s (Analysis.eat kind s) := by
  rw [Analysis.eat_eq]
  cases current : s.current with
  | error cause => exact faultAgrees_here s lexicon (stands.lexical_current current)
  | ok found =>
    by_cases same : found = kind
    · simp only [same, if_true]
      exact passes s.advanced ⟨same ▸ current, rfl⟩
    · simp only [same, if_false]
      exact ⟨lexicon, here, rfl⟩

theorem Follows.check {holds : State → Lexicon → Prop} (stands : s.Stands lexicon)
    (here : holds s lexicon) (kind : Kind) :
    Follows (fun _ => holds) lexicon s (Analysis.check kind s) := by
  rw [Analysis.check, Analysis.bind_eq, Analysis.peek_eq]
  cases current : s.current with
  | error cause => exact faultAgrees_here s lexicon (stands.lexical_current current)
  | ok found => exact ⟨lexicon, here, rfl⟩

theorem Tracks.expect {kind : Kind} (calm : kind.Calm) : Tracks scope (Analysis.expect kind) :=
  fun _ lexicon matched => .expect matched.toStands fun _ takes =>
    ⟨lexicon, calm.take takes matched⟩

/-- At the word `return` the scan mentions the slot of the value. -/
theorem Tracks.expectReturn : Tracks scope (Analysis.expect (.keyword .returnWord)) :=
  fun _ lexicon matched => .expect matched.toStands fun _ takes =>
    ⟨lexicon.mention (.argument 0), (matched.take takes).mention _, takes.scan_go (by simp) rfl⟩

theorem Tracks.eat {kind : Kind} (calm : kind.Calm) : Tracks scope (Analysis.eat kind) :=
  fun _ lexicon matched => .eat matched.toStands matched fun _ takes =>
    ⟨lexicon, calm.take takes matched⟩

theorem Tracks.check (kind : Kind) : Tracks scope (Analysis.check kind) :=
  fun _ _ matched => .check matched.toStands matched kind

/-- After a token of any kind, which is either scanned or blamed. -/
theorem Tracks.next_bind {f : Word → Analysis α}
    (rest : ∀ s kind lexicon, s.current = .ok kind → s.Matches scope lexicon →
      Tracked scope lexicon s (f ⟨kind, s.position⟩ s.advanced)) :
    Tracks scope (Analysis.next >>= f) := by
  intro s lexicon matched
  rw [Analysis.bind_eq, Analysis.next_eq]
  cases current : s.current with
  | error cause => exact faultAgrees_here s lexicon (matched.lexical_current current)
  | ok kind => exact rest s kind lexicon current matched

theorem Tracks.expectType : Tracks scope Analysis.expectType := by
  intro s lexicon matched
  cases run : Analysis.expectType s with
  | error fault t => exact Analysis.expectType_agrees matched.toStands run
  | ok word t =>
    have calm : Kind.Calm (.type word.ty) := ⟨by simp, fun _ _ _ => rfl⟩
    exact ⟨lexicon, calm.take (Analysis.expectType_ok_iff.mp run).1 matched⟩

/-- Entries without a name are nothing to the scan. -/
theorem Tracks.register {entry : Entry} (nameless : ∀ name, entry.isNamed name = false) :
    Tracks scope (Analysis.register entry) := by
  intro s lexicon matched
  cases run : Analysis.register entry s with
  | ok address t =>
    have same := Analysis.register_ok_iff.mp run
    have unread : t.position = s.position ∧ t.rest = s.rest := by
      simp only [State.register, Prod.mk.injEq] at same
      obtain ⟨_, rfl⟩ := same
      exact ⟨rfl, rfl⟩
    exact ⟨lexicon, matched.register nameless same, by rw [unread.1, unread.2]⟩
  | error fault t => cases run

/-- The scan does not ask which symbols have values. -/
theorem Tracks.markInitialized (v : Variable) : Tracks scope (Analysis.markInitialized v) := by
  intro s lexicon matched
  have run : Analysis.markInitialized v s = .ok () (s.initialized v) := by simp
  have unread : (s.initialized v).position = s.position ∧ (s.initialized v).rest = s.rest := by
    unfold State.initialized
    cases v.rank <;> exact ⟨rfl, rfl⟩
  rw [run]
  exact ⟨lexicon, matched.initialized v, by rw [unread.1, unread.2]⟩

/-- A loop agrees with the names if each of its steps does. -/
theorem Follows.repeatUntil {step : α → Analysis (α ⊕ β)} {during : α → State → Lexicon → Prop}
    {post : β → State → Lexicon → Prop}
    (stands : ∀ a s lexicon, during a s lexicon → s.Stands lexicon)
    (steps : ∀ a s lexicon, during a s lexicon → Follows (Sum.elim during post) lexicon s (step a s))
    {a : α} (holds : during a s lexicon) :
    Follows post lexicon s (Analysis.repeatUntil step a s) := by
  have atMost (n : Nat) : Follows post lexicon s (Analysis.repeatAtMost step n a s) := by
    induction n generalizing a s lexicon with
    | zero =>
      rw [Analysis.repeatAtMost, Analysis.bind_eq, Analysis.peek_eq]
      cases current : s.current with
      | error cause =>
        exact faultAgrees_here s lexicon ((stands a s lexicon holds).lexical_current current)
      | ok kind => exact faultAgrees_here s lexicon rfl
    | succ n ih =>
      refine (steps a s lexicon holds).bind fun result t next holds => ?_
      cases result with
      | inl value => exact ih holds
      | inr result => exact ⟨next, holds, rfl⟩
  exact atMost (s.rest.length + 1)

/-- A loop is followed turn by turn. The induction is on its turns. -/
theorem Tracks.repeatUntil {step : α → Analysis (α ⊕ β)} (steps : ∀ a, Tracks scope (step a))
    (a : α) : Tracks scope (Analysis.repeatUntil step a) := by
  intro s lexicon matched
  refine Follows.repeatUntil (fun _ _ _ (matched : State.Matches _ scope _) => matched.toStands)
    (fun a s lexicon matched => ?_) matched
  have tracked := steps a s lexicon matched
  cases run : step a s with
  | error fault t => rwa [run] at tracked
  | ok result t =>
    rw [run] at tracked
    cases result <;> exact tracked

end

namespace Analysis

variable {α : Type} {scope : Scope} {lexicon next : Lexicon} {s t : State}

/-- A name that is used as a variable is looked up as the scan does. -/
theorem resolve_tracked {name : String} {kind : Kind} {f : Variable → Analysis α}
    (matched : s.Matches scope lexicon) (takes : s.Takes (.identifier name) t)
    (current : t.current = .ok kind) (notCall : kind ≠ .mark .openParen)
    (rest : ∀ v, Tracks scope (f v)) :
    Tracked scope lexicon s ((resolve scope name s.position >>= f) t) := by
  have found := (matched.take takes).place name
  have moves : lexicon.move s.position (.identifier name) t.rest =
      (lexicon.place? name).elim (.refuse ⟨.notDeclared, s.position⟩)
        fun place => .go (lexicon.mention place) 0 := by
    have next : t.rest.head?.getD (.ok .eof) = .ok kind := current
    cases placed : lexicon.place? name <;>
      simp only [Lexicon.move, matched.outside, Bool.false_eq_true, if_false, Lexicon.nameMove,
        next, notCall, placed, Option.elim]
  rw [bind_eq, resolve_eq]
  cases resolved : t.variable? scope name with
  | none =>
    rw [resolved, Option.map_none] at found
    rw [← found] at moves
    refine .inl ?_
    rw [takes.scan (by simp), Lexicon.scan_cons_refuse moves]
  | some v =>
    rw [resolved, Option.map_some] at found
    rw [← found] at moves
    exact .after (takes.scan_go (by simp) moves)
      (rest v t _ ((matched.take takes).mention v.place))

/-- Operators are refused for their operands, not for a name. -/
theorem reduce_plain {operands : List Expr} {operator : Operator × Nat} {fault : Fault Nat}
    (failed : reduce operands operator = .error fault) : fault.cause.isScope = false := by
  unfold reduce at failed
  dsimp only at failed
  split at failed
  · split at failed
    · split at failed <;> cases failed
      rfl
    · cases failed
      rfl
  · split at failed
    · split at failed <;> cases failed
      rfl
    · cases failed
      rfl

/-- Operators that cannot be applied are no matter of names. -/
theorem reduceAll_plain {operators : List (Operator × Nat)} {operands : List Expr}
    {fault : Fault Nat} (failed : reduceAll operands operators = .error fault) :
    fault.cause.isScope = false := by
  induction operators generalizing operands with
  | nil => cases failed
  | cons operator operators ih =>
    rw [reduceAll, List.foldlM_cons] at failed
    cases first : reduce operands operator with
    | error fault' =>
      rw [first] at failed
      cases failed
      exact reduce_plain first
    | ok operands' =>
      rw [first] at failed
      exact ih failed

theorem cast_tracks (operand : Expr) : Tracks scope (cast operand) := by
  refine (Tracks.eat ⟨by simp, fun _ _ _ => rfl⟩).bind fun site => ?_
  cases site with
  | none => exact .pure _
  | some site => exact Tracks.expectType.bind fun _ => (Tracks.refuse _ rfl _).bind fun _ => .pure _

theorem matchParams_tracks (arguments : List (Expr × Nat)) (params : List Param) (site : Nat) :
    Tracks scope (matchParams arguments params site) := by
  refine (Tracks.refuse _ rfl _).bind fun _ => ?_
  cases (arguments.zip params).find? fun pair => pair.1.1.ty != pair.2.ty with
  | some pair => exact .fail rfl _
  | none => exact .pure _

section

variable {inner : Option (Scope → Analysis Expr)}
  (nested : ∀ expression, inner = some expression → Tracks scope (expression scope))

include nested

/-- What is nested agrees with the names, if the limit allows it at all. -/
theorem enter_bind_tracks {site : Nat} {f : (Scope → Analysis Expr) → Analysis α}
    (rest : ∀ expression, Tracks scope (expression scope) → Tracks scope (f expression)) :
    Tracks scope (enter inner site >>= f) := by
  cases inner with
  | none =>
    intro s lexicon _
    change FaultAgrees (lexicon.scan s.position s.rest).2 ⟨.nestingTooDeep, site⟩ s.position
    exact faultAgrees_here s lexicon rfl
  | some expression => exact rest expression (nested expression rfl)

/-- The target of an assignment is looked up before its value is read. -/
theorem assignment_tracked {name : String} (matched : s.Matches scope lexicon)
    (takes : s.Takes (.identifier name) t) (current : t.current = .ok (.mark .assign)) :
    Tracked scope lexicon s (assignment inner scope name s.position t) :=
  resolve_tracked matched takes current (by simp) fun _ => (Tracks.refuse _ rfl _).bind fun _ =>
    (Tracks.expect ⟨by simp, fun _ _ _ => rfl⟩).bind fun _ =>
      enter_bind_tracks nested fun _ tracks => tracks.bind fun _ =>
        (Tracks.refuse _ rfl _).bind fun _ => (Tracks.markInitialized _).bind fun _ => .pure _

omit nested in
theorem argument_tracks {expression : Scope → Analysis Expr}
    (tracks : Tracks scope (expression scope)) (before : List (Expr × Nat)) :
    Tracks scope (argument scope expression before) := by
  refine Tracks.peek.bind fun _ => tracks.bind fun _ =>
    (Tracks.eat ⟨by simp, fun _ _ _ => rfl⟩).bind fun site => ?_
  cases site <;> exact .pure _

/-- The arguments of a call, in the scope of the call. -/
theorem arguments_tracks : Tracks scope (arguments inner scope) := by
  refine (Tracks.expect ⟨by simp, fun _ _ _ => rfl⟩).bind fun _ =>
    enter_bind_tracks nested fun _ tracks => (Tracks.check _).bind fun isEmpty =>
      Tracks.bind ?_ fun _ =>
        (Tracks.expect ⟨by simp, fun _ _ _ => rfl⟩).bind fun _ => .pure _
  split
  · exact .pure _
  · exact .repeatUntil (argument_tracks tracks) _

/-- A text is no name, and a value is an expression. -/
theorem libraryArgument_tracks (opening : Nat) (argument : Library.Argument) :
    Tracks scope (libraryArgument inner scope opening argument) := by
  cases argument with
  | nothing => exact .pure _
  | value ty =>
    exact Tracks.peek.bind fun _ => (Tracks.refuse _ rfl _).bind fun _ =>
      enter_bind_tracks nested fun _ tracks => tracks.bind fun _ =>
        (Tracks.refuse _ rfl _).bind fun _ => .pure _
  | text =>
    refine .next_bind fun s kind lexicon current matched => ?_
    cases kind with
    | string value =>
      have calm : Kind.Calm (.string value) := ⟨by simp, fun _ _ _ => rfl⟩
      obtain ⟨matched, same⟩ := calm.take ⟨current, rfl⟩ matched
      exact .after same (((Tracks.register fun _ => rfl).bind fun _ => .pure _) _ lexicon matched)
    | _ => exact faultAgrees_token s lexicon rfl

/-- A name before a parenthesis is that of a library function, or of a function as the scan knows
it. -/
theorem call_tracked {name : String} (matched : s.Matches scope lexicon)
    (takes : s.Takes (.identifier name) t) (current : t.current = .ok (.mark .openParen)) :
    Tracked scope lexicon s (call inner scope name s.position t) := by
  have next : t.rest.head?.getD (.ok .eof) = .ok (.mark .openParen) := current
  have moves : lexicon.move s.position (.identifier name) t.rest =
      if (Library.ofName? name).isSome || lexicon.functions.contains name then .go lexicon 0
      else .refuse ⟨.notDeclared, s.position⟩ := by
    simp only [Lexicon.move, matched.outside, Bool.false_eq_true, if_false, Lexicon.nameMove, next,
      if_true]
  have matched' := matched.take takes
  unfold call
  cases known : Library.ofName? name with
  | some function =>
    simp only [known, Option.isSome_some, Bool.true_or, if_true] at moves
    refine .after (takes.scan_go (by simp) moves) (Tracks.bind (.register fun _ => rfl) (fun _ =>
      (Tracks.expect ⟨by simp, fun _ _ _ => rfl⟩).bind fun _ =>
        (libraryArgument_tracks nested _ _).bind fun _ =>
          (Tracks.expect ⟨by simp, fun _ _ _ => rfl⟩).bind fun _ => .pure _)
      t lexicon matched')
  | none =>
    have callable := matched'.callable name
    simp only [known, Option.isSome_none, Bool.false_or, ← callable] at moves
    dsimp only
    rw [bind_eq, callee_eq]
    cases found : t.callee? scope name with
    | none =>
      simp only [found, Option.isSome_none, Bool.false_eq_true, if_false] at moves
      refine .inl ?_
      rw [takes.scan (by simp), Lexicon.scan_cons_refuse moves]
    | some signature =>
      simp only [found, Option.isSome_some, if_true] at moves
      exact .after (takes.scan_go (by simp) moves) (Tracks.bind (arguments_tracks nested) (fun _ =>
        (matchParams_tracks _ _ _).bind fun _ => .pure _) t lexicon matched')

/-- A name is looked up as what the next token makes of it. -/
theorem named_tracked {name : String} (matched : s.Matches scope lexicon)
    (takes : s.Takes (.identifier name) t) :
    Tracked scope lexicon s (named inner scope name s.position t) := by
  rw [named, bind_eq, peek_eq]
  cases current : t.current with
  | error cause =>
    have next : t.rest.head?.getD (.ok .eof) = .error cause := current
    have moves : lexicon.move s.position (.identifier name) t.rest = .stop := by
      simp only [Lexicon.move, matched.outside, Bool.false_eq_true, if_false, Lexicon.nameMove, next]
    refine .inr ⟨(matched.take takes).lexical_current current, fun other found => ?_⟩
    rw [takes.scan (by simp), Lexicon.scan_cons_stop moves] at found
    cases found
  | ok kind =>
    have loads (notCall : kind ≠ .mark .openParen) :
        Tracked scope lexicon s ((resolve scope name s.position >>= fun v => pure (Expr.load v)) t) :=
      resolve_tracked matched takes current notCall fun _ => .pure _
    cases kind with
    | mark mark =>
      cases mark with
      | assign => exact assignment_tracked nested matched takes current
      | openParen => exact call_tracked nested matched takes current
      | _ => exact loads (by simp)
    | _ => exact loads (by simp)

/-- Names are all that a primary expression can be wrong about for the scan. -/
theorem primary_tracks : Tracks scope (primary inner scope) := by
  refine .next_bind fun s kind lexicon current matched => ?_
  have takes : s.Takes kind s.advanced := ⟨current, rfl⟩
  cases kind with
  | identifier name => exact named_tracked nested matched takes
  | uint | double | char =>
    exact ⟨lexicon, Kind.Calm.take ⟨by simp, fun _ _ _ => rfl⟩ takes matched⟩
  | mark mark =>
    cases mark with
    | openParen =>
      have calm : Kind.Calm (.mark .openParen) := ⟨by simp, fun _ _ _ => rfl⟩
      obtain ⟨matched, same⟩ := calm.take takes matched
      exact .after same (enter_bind_tracks nested (fun _ tracks => tracks.bind fun _ =>
        (Tracks.expect ⟨by simp, fun _ _ _ => rfl⟩).bind fun _ => .pure _) _ lexicon matched)
    | _ => exact faultAgrees_token s lexicon rfl
  | _ => exact faultAgrees_token s lexicon rfl

theorem operand_tracks : Tracks scope (operand inner scope) :=
  (primary_tracks nested).bind fun _ => .repeatUntil cast_tracks _

end

theorem negation_tracks (operators : OperatorStack Nat) : Tracks scope (negation operators) := by
  refine (Tracks.eat ⟨by simp, fun _ _ _ => rfl⟩).bind fun site => ?_
  cases site <;> exact .pure _

theorem binary?_calm {kind : Kind} {op : Operator} (known : Operator.binary? kind = some op) :
    kind.Calm := by
  cases kind with
  | mark mark =>
    cases mark with
    | plus | minus | star | slash | equal | notEqual | less | greater | lessEqual | greaterEqual =>
      exact ⟨by simp, fun _ _ _ => rfl⟩
    | _ => cases known
  | _ => cases known

/-- One turn of the expression reader. No operator is a name. -/
theorem operandAndOperator_tracks {inner : Option (Scope → Analysis Expr)}
    (nested : ∀ expression, inner = some expression → Tracks scope (expression scope))
    (before : Unfinished) : Tracks scope (operandAndOperator inner scope before) := by
  refine (Tracks.repeatUntil negation_tracks _).bind fun operators =>
    (operand_tracks nested).bind fun value => ?_
  intro s lexicon matched
  rw [bind_eq, peek_eq]
  cases current : s.current with
  | error cause => exact faultAgrees_here s lexicon (matched.lexical_current current)
  | ok kind =>
    dsimp only
    cases known : Operator.binary? kind with
    | some op =>
      obtain ⟨matched, same⟩ := (binary?_calm known).take ⟨current, rfl⟩ matched
      exact .after same (Tracks.bind (.orFail fun _ => reduceAll_plain) (fun _ => .pure _) _ lexicon
        matched)
    | none =>
      refine Tracks.bind (.orFail fun _ => reduceAll_plain) (fun operands => ?_) s lexicon matched
      split
      · exact .pure _
      · exact .fail rfl _

/-- Expressions are read with the names of the scan. -/
theorem expression_tracks (limit : Nat) (scope : Scope) :
    Tracks scope (expression limit scope) := by
  induction limit generalizing scope with
  | zero => exact .repeatUntil (operandAndOperator_tracks (by simp)) _
  | succ limit ih =>
    refine .repeatUntil (operandAndOperator_tracks ?_) _
    rintro _ ⟨rfl⟩
    exact ih scope

end Analysis

end C0
