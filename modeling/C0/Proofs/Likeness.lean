import C0.Proofs.Progress

namespace C0

open Analysis

/-- The state with other readings before it. -/
def State.withRest (s : State) (rest : List Reading) : State :=
  { s with rest }

/-- Whether only the analysis itself gives the cause, and not for a lack of depth. -/
def Cause.isPlain : Cause → Bool
  | nestingTooDeep => false
  | invalidInput => false
  | invalidLiteral => false
  | _ => true

/-- How two runs of the analysis compare that go side by side until the first one ends early. -/
structure Likeness where
  /-- What may lie before the two runs at a position. -/
  Ahead : Nat → List Reading → List Reading → Prop
  /-- Where the faults that both runs come to may lie. -/
  Site : Nat → Prop
  /-- The faults at which only the first run has to end. -/
  Early : Fault Nat → Prop
  /-- Whether the second run must come to a lack of depth later than the first one. -/
  deep : Prop
  plain : ∀ {cause site}, cause.isPlain = true → ¬ Early ⟨cause, site⟩
  look : ∀ {position rest rest'}, Ahead position rest rest' →
    (∃ cause, rest.head?.getD (.ok .eof) = .error cause ∧ Early ⟨cause, position⟩ ∧ ¬ deep) ∨
    Site position ∧ rest'.head?.getD (.ok .eof) = rest.head?.getD (.ok .eof) ∧
      ∀ cause, rest.head?.getD (.ok .eof) = .error cause →
        ¬ Early ⟨cause, position⟩ ∧ (deep → cause ≠ .nestingTooDeep)
  move : ∀ {position rest rest' kind}, Ahead position rest rest' →
    rest.head?.getD (.ok .eof) = .ok kind → kind ≠ .eof →
      Ahead (position + 1) rest.tail rest'.tail

/-- What a run comes to lies from a site on: the next state, or the lack of depth. -/
def Beyond {α : Type} (low : Nat) : EStateM.Result (Fault Nat) State α → Prop
  | .ok _ t => low ≤ t.position
  | .error fault _ => fault.cause = .nestingTooDeep → low ≤ fault.site

theorem Beyond.bind {α β : Type} {low : Nat} {m : Analysis α} {f : α → Analysis β} {s : State}
    (first : Beyond low (m s)) (rest : ∀ a t, low ≤ t.position → Beyond low (f a t)) :
    Beyond low ((m >>= f) s) := by
  rw [bind_eq]
  cases run : m s with
  | ok a t =>
    rw [run] at first
    exact rest a t first
  | error fault t => rwa [run] at first

theorem beyond_fail {α : Type} {low site : Nat} {cause : Cause} {s : State}
    (plain : cause.isPlain = true) : Beyond low ((fail cause site : Analysis α) s) := by
  intro deepest
  have same : cause = .nestingTooDeep := deepest
  simp [same, Cause.isPlain] at plain

namespace Likeness

variable {α β : Type} {L : Likeness}

/-- Both runs may come to a fault. A lack of depth is blamed on a site that another one follows. -/
structure Common (L : Likeness) (fault : Fault Nat) : Prop where
  site : L.Site fault.site
  late : ¬ L.Early fault
  inside : L.deep → fault.cause = .nestingTooDeep → L.Site (fault.site + 1)

theorem Common.plain {cause : Cause} {site : Nat} (proper : L.Site site)
    (plain : cause.isPlain = true) : L.Common ⟨cause, site⟩ := by
  refine ⟨proper, L.plain plain, fun _ deepest => ?_⟩
  have same : cause = .nestingTooDeep := deepest
  simp [same, Cause.isPlain] at plain

/-- What two runs come to: the same, or an early end of the first one. -/
inductive Results (L : Likeness) (sites : α → List Nat) : EStateM.Result (Fault Nat) State α →
    EStateM.Result (Fault Nat) State α → Prop
  | same {a t rest'} : (∀ site ∈ sites a, L.Site site) → L.Ahead t.position t.rest rest' →
      Results L sites (.ok a t) (.ok a (t.withRest rest'))
  | fault {f t t'} : L.Common f → Results L sites (.error f t) (.error f t')
  | early {f t result'} : L.Early f → (L.deep → Beyond (f.site + 1) result') →
      Results L sites (.error f t) result'

/-- Two steps are alike from some states on. They may blame the known sites, and tell the sites of
their result. A lack of depth lies no further back than told. -/
structure AlikeFrom (L : Likeness) (start : State → Prop) (back : Nat) (known : List Nat)
    (sites : α → List Nat) (m m' : Analysis α) : Prop where
  run : (∀ site ∈ known, L.Site site) → ∀ s rest', start s →
    L.Ahead s.position s.rest rest' → L.Results sites (m s) (m' (s.withRest rest'))
  safe : L.deep → ∀ s low, start s → low + back ≤ s.position → Beyond low (m' s)

/-- Two steps are alike from all states on. -/
abbrev Alike (L : Likeness) (known : List Nat) (sites : α → List Nat) (m m' : Analysis α) : Prop :=
  L.AlikeFrom (fun _ => True) 0 known sites m m'

/-- A result without sites. -/
abbrev siteless (_ : α) : List Nat :=
  []

variable {start : State → Prop} {back : Nat} {known known' : List Nat} {sites : α → List Nat}
  {sites' : β → List Nat} {m m' : Analysis α}

theorem AlikeFrom.weaken (alike : L.AlikeFrom start back known sites m m')
    (more : known ⊆ known') : L.AlikeFrom start back known' sites m m' :=
  ⟨fun given => alike.run fun site member => given site (more member), alike.safe⟩

theorem AlikeFrom.restrict {start' : State → Prop}
    (alike : L.AlikeFrom start back known sites m m') (fewer : ∀ s, start' s → start s) :
    L.AlikeFrom start' back known sites m m' :=
  ⟨fun given s rest' starts => alike.run given s rest' (fewer s starts),
    fun deep s low starts => alike.safe deep s low (fewer s starts)⟩

theorem Alike.from (alike : L.Alike known sites m m') (start : State → Prop) (back : Nat) :
    L.AlikeFrom start back known sites m m' :=
  ⟨fun given s rest' _ ahead => alike.run given s rest' trivial ahead,
    fun deep s low _ room => alike.safe deep s low trivial (by omega)⟩

theorem AlikeFrom.bind {f f' : α → Analysis β} (first : L.AlikeFrom start back known sites m m')
    (rest : ∀ a, L.Alike (sites a ++ known) sites' (f a) (f' a)) :
    L.AlikeFrom start back known sites' (m >>= f) (m' >>= f') := by
  have onward (deep : L.deep) {low : Nat} {s : State} (beyond : Beyond low (m' s)) :
      Beyond low ((m' >>= f') s) :=
    beyond.bind fun a t room => (rest a).safe deep t low trivial room
  refine ⟨fun given s rest' starts ahead => ?_, fun deep s low starts room =>
    onward deep (first.safe deep s low starts room)⟩
  have before := first.run given s rest' starts ahead
  generalize ran : m s = result at before
  generalize ran' : m' (s.withRest rest') = result' at before
  rw [bind_eq, ran]
  cases before with
  | @same a t rest'' proper ahead =>
    rw [bind_eq, ran']
    refine (rest a).run (fun site member => ?_) t rest'' trivial ahead
    exact (List.mem_append.mp member).elim (proper site) (given site)
  | fault common =>
    rw [bind_eq, ran']
    exact .fault common
  | early early beyond => exact .early early fun deep => onward deep (ran' ▸ beyond deep)

theorem AlikeFrom.pure {a : α} (placed : sites a ⊆ known) :
    L.Alike known sites (pure a) (pure a) :=
  ⟨fun given _ _ _ ahead => .same (fun site member => given site (placed member)) ahead,
    fun _ _ _ _ room => room⟩

theorem AlikeFrom.fail {cause : Cause} {site : Nat} (plain : cause.isPlain = true)
    (member : site ∈ known) :
    L.AlikeFrom start back known sites (Analysis.fail cause site) (Analysis.fail cause site) :=
  ⟨fun given _ _ _ _ => .fault (.plain (given site member) plain),
    fun _ _ _ _ _ => beyond_fail plain⟩

theorem AlikeFrom.orFail {checked : Except (Fault Nat) α}
    (plain : ∀ fault, checked = .error fault → fault.cause.isPlain = true ∧ fault.site ∈ known) :
    L.Alike known siteless (Analysis.orFail checked) (Analysis.orFail checked) := by
  cases checked with
  | ok a => exact .pure (by simp)
  | error fault => exact .fail (plain fault rfl).1 (plain fault rfl).2

theorem AlikeFrom.refuse_bind {bad : Prop} [Decidable bad] {cause : Cause} {site : Nat}
    {f f' : Unit → Analysis α} (plain : cause.isPlain = true) (member : site ∈ known)
    (rest : L.AlikeFrom start back known sites (f ()) (f' ())) :
    L.AlikeFrom start back known sites (Analysis.refuse bad cause site >>= f)
      (Analysis.refuse bad cause site >>= f') := by
  by_cases failed : bad
  · simp only [Analysis.refuse, failed, if_true]
    exact ⟨fun given _ _ _ _ => .fault (.plain (given site member) plain),
      fun _ _ _ _ _ => beyond_fail plain⟩
  · simp only [Analysis.refuse, failed, if_false]
    exact rest

theorem AlikeFrom.get_bind {f f' : State → Analysis α}
    (blind : ∀ s rest, f' (s.withRest rest) = f' s)
    (rest : ∀ s, L.Alike known sites (f s) (f' s)) :
    L.Alike known sites (get >>= f) (get >>= f') := by
  refine ⟨fun given s rest' starts ahead => ?_, fun deep s low starts room => ?_⟩
  · have same : (get >>= f') (s.withRest rest') = f' s (s.withRest rest') :=
      congrFun (blind s rest') _
    rw [same]
    exact (rest s).run given s rest' starts ahead
  · exact (rest s).safe deep s low starts room

/-- An update that the readings have no part in. -/
structure Quiet (f : State → α × State) : Prop where
  position : ∀ s, (f s).2.position = s.position
  rest : ∀ s, (f s).2.rest = s.rest
  blind : ∀ s rest, f (s.withRest rest) = ((f s).1, (f s).2.withRest rest)

theorem AlikeFrom.ofQuiet {f : State → α × State} (quiet : Quiet f) :
    L.Alike known siteless (modifyGet f) (modifyGet f) := by
  refine ⟨fun _ s rest' _ ahead => ?_, fun _ s low _ room => ?_⟩
  · have same : (modifyGet f : Analysis α) (s.withRest rest') =
        .ok (f s).1 ((f s).2.withRest rest') := by
      change EStateM.Result.ok (f (s.withRest rest')).1 (f (s.withRest rest')).2 = _
      rw [quiet.blind]
    rw [same]
    exact .same (by simp) (by rwa [quiet.position, quiet.rest])
  · change low ≤ (f s).2.position
    rw [quiet.position]
    exact room

/-- A look at the next token tells its kind. -/
theorem AlikeFrom.peek_bind {f f' : Word → Analysis α}
    (rest : ∀ kind site, L.AlikeFrom
      (fun s => start s ∧ s.position = site ∧ s.current = .ok kind) back (site :: known) sites
      (f ⟨kind, site⟩) (f' ⟨kind, site⟩)) :
    L.AlikeFrom start back known sites (peek >>= f) (peek >>= f') := by
  have onward (deep : L.deep) {low : Nat} {s : State} (starts : start s)
      (room : low + back ≤ s.position) : Beyond low ((peek >>= f') s) := by
    rw [bind_eq, peek_eq]
    cases current : s.current with
    | error cause =>
      intro _
      change low ≤ s.position
      omega
    | ok kind => exact (rest kind s.position).safe deep s low ⟨starts, rfl, current⟩ room
  refine ⟨fun given s rest' starts ahead => ?_,
    fun deep s low starts room => onward deep starts room⟩
  rw [bind_eq, peek_eq]
  rcases L.look ahead with ⟨cause, first, early, flat⟩ | ⟨here, same, late⟩
  · have current : s.current = .error cause := first
    rw [current]
    exact .early early fun deep => absurd deep flat
  · have current' : (s.withRest rest').current = s.current := same
    rw [bind_eq, peek_eq, current']
    cases current : s.current with
    | error cause =>
      obtain ⟨notEarly, shallow⟩ := late cause current
      exact .fault ⟨here, notEarly, fun deep deepest => absurd deepest (shallow deep)⟩
    | ok kind =>
      exact (rest kind s.position).run (List.forall_mem_cons.mpr ⟨here, given⟩) s rest'
        ⟨starts, rfl, current⟩ ahead

/-- A token that is known and not the end can be passed. -/
theorem AlikeFrom.advance_bind {f f' : Unit → Analysis α} {position : Nat}
    (token : ∀ s, start s → s.position = position ∧ ∃ kind, s.current = .ok kind ∧ kind ≠ .eof)
    (rest : L.AlikeFrom (·.position = position + 1) 1 known sites (f ()) (f' ())) :
    L.AlikeFrom start 0 known sites (advance >>= f) (advance >>= f') := by
  refine ⟨fun given s rest' starts ahead => ?_, fun deep s low starts room => ?_⟩
  · obtain ⟨here, kind, current, more⟩ := token s starts
    exact rest.run given s.advanced rest'.tail (by rw [State.advanced, here])
      (L.move ahead current more)
  · obtain ⟨here, _⟩ := token s starts
    refine rest.safe deep s.advanced low (by rw [State.advanced, here]) ?_
    simp only [State.advanced]
    omega

/-- A token is taken. At the end of the source both steps must fail. -/
theorem AlikeFrom.next_bind {f f' : Word → Analysis α}
    (ends : ∀ site, ∃ cause : Cause, cause.isPlain = true ∧
      f ⟨.eof, site⟩ = Analysis.fail cause site ∧ f' ⟨.eof, site⟩ = Analysis.fail cause site)
    (rest : ∀ kind site, kind ≠ .eof → L.AlikeFrom (·.position = site + 1) 1 (site :: known) sites
      (f ⟨kind, site⟩) (f' ⟨kind, site⟩)) :
    L.Alike known sites (next >>= f) (next >>= f') := by
  have split (f : Word → Analysis α) :
      next >>= f = peek >>= fun word => advance >>= fun _ => f word := by
    simp only [next, bind_assoc, pure_bind]
  rw [split, split]
  refine .peek_bind fun kind site => ?_
  by_cases more : kind = .eof
  · subst more
    obtain ⟨cause, plain, stops, stops'⟩ := ends site
    rw [stops, stops']
    exact ⟨fun given s rest' _ _ => .fault (.plain (given site (by simp)) plain),
      fun _ s low _ _ => beyond_fail plain⟩
  · exact .advance_bind (fun s starts => ⟨starts.2.1, kind, starts.2.2, more⟩) (rest kind site more)

theorem AlikeFrom.expect_bind {kind : Kind} {f f' : Nat → Analysis α} (more : kind ≠ .eof)
    (rest : ∀ site,
      L.AlikeFrom (·.position = site + 1) 1 (site :: known) sites (f site) (f' site)) :
    L.Alike known sites (expect kind >>= f) (expect kind >>= f') := by
  have split (f : Nat → Analysis α) : expect kind >>= f = next >>= fun word =>
      refuse (word.kind ≠ kind) .unexpectedToken word.site >>= fun _ => f word.site := by
    simp only [expect, bind_assoc, pure_bind]
  rw [split, split]
  refine .next_bind (fun site => ⟨.unexpectedToken, rfl, ?_, ?_⟩) fun found site _ =>
    .refuse_bind rfl (by simp) (rest site)
  · simp only [refuse, ne_eq, more.symm, not_false_eq_true, if_true]
    rfl
  · simp only [refuse, ne_eq, more.symm, not_false_eq_true, if_true]
    rfl

theorem AlikeFrom.expect {kind : Kind} (more : kind ≠ .eof) :
    L.Alike known ([·]) (expect kind) (expect kind) := by
  have same : Analysis.expect kind = Analysis.expect kind >>= Pure.pure := (bind_pure _).symm
  rw [same]
  exact .expect_bind more fun site => (AlikeFrom.pure (by simp)).from _ _

theorem AlikeFrom.expectIdentifier :
    L.Alike known ([·.site]) expectIdentifier expectIdentifier := by
  refine .next_bind (fun site => ⟨.unexpectedToken, rfl, rfl, rfl⟩) fun kind site _ => ?_
  cases kind with
  | identifier name => exact (AlikeFrom.pure (by simp)).from _ _
  | _ => exact .fail rfl (by simp)

theorem AlikeFrom.expectType : L.Alike known ([·.site]) expectType expectType := by
  refine .next_bind (fun site => ⟨.unexpectedToken, rfl, rfl, rfl⟩) fun kind site _ => ?_
  cases kind with
  | type ty => exact (AlikeFrom.pure (by simp)).from _ _
  | _ => exact .fail rfl (by simp)

theorem AlikeFrom.expectValueType :
    L.Alike known siteless expectValueType expectValueType :=
  AlikeFrom.expectType.bind fun _ => .refuse_bind rfl (by simp) (.pure (by simp))

theorem AlikeFrom.check (kind : Kind) : L.Alike known siteless (check kind) (check kind) :=
  .peek_bind fun _ _ => (AlikeFrom.pure (by simp)).from _ _

theorem AlikeFrom.eat {kind : Kind} (more : kind ≠ .eof) :
    L.Alike known Option.toList (eat kind) (eat kind) := by
  refine .peek_bind fun found site => ?_
  by_cases same : found = kind
  · simp only [same, if_true]
    refine .advance_bind (fun s starts => ⟨starts.2.1, kind, starts.2.2, more⟩) ?_
    exact (AlikeFrom.pure (by simp)).from _ _
  · simp only [same, if_false]
    exact (AlikeFrom.pure (by simp)).from _ _

section

variable {step step' : α → Analysis (α ⊕ β)}

theorem beyond_repeatAtMost (deep : L.deep)
    (steps : ∀ a, L.Alike (sites a ++ known) (Sum.elim sites sites') (step a) (step' a))
    {low : Nat} (n : Nat) (a : α) (s : State) (room : low ≤ s.position) :
    Beyond low (repeatAtMost step' n a s) := by
  induction n generalizing a s with
  | zero =>
    rw [repeatAtMost, bind_eq, peek_eq]
    cases s.current with
    | error cause => exact fun _ => room
    | ok kind => exact beyond_fail rfl
  | succ n ih =>
    refine ((steps a).safe deep s low trivial room).bind fun result t room => ?_
    cases result with
    | inl value => exact ih value t room
    | inr value => exact room

/-- Loops are alike if their steps are. How often they may repeat does not matter, for each
repetition takes a token. -/
theorem AlikeFrom.repeatUntil (progress : Progresses step) (progress' : Progresses step')
    (steps : ∀ a, L.Alike (sites a ++ known) (Sum.elim sites sites') (step a) (step' a)) (a : α)
    (placed : sites a ⊆ known) :
    L.Alike known sites' (repeatUntil step a) (repeatUntil step' a) := by
  refine ⟨fun given s rest' _ ahead => ?_, fun deep s low _ room =>
    beyond_repeatAtMost deep steps _ a s room⟩
  have bounded (n n' : Nat) (a : α) (proper : ∀ site ∈ sites a, L.Site site) (s : State)
      (rest' : List Reading) (ahead : L.Ahead s.position s.rest rest') (enough : s.rest.length < n)
      (enough' : rest'.length < n') :
      L.Results sites' (repeatAtMost step n a s) (repeatAtMost step' n' a (s.withRest rest')) := by
    induction n generalizing n' a s rest' with
    | zero => omega
    | succ n ih =>
      cases n' with
      | zero => omega
      | succ n' =>
        have before := (steps a).run
          (fun site member => (List.mem_append.mp member).elim (proper site) (given site))
          s rest' trivial ahead
        generalize ran : step a s = result at before
        generalize ran' : step' a (s.withRest rest') = result' at before
        -- Both bounds are large enough, since each turn takes a token.
        rw [repeatAtMost, repeatAtMost, bind_eq, ran]
        cases before with
        | @same next t rest'' proper ahead =>
          rw [bind_eq, ran']
          cases next with
          | inl value =>
            have shorter := progress _ _ _ _ ran
            have shorter' : rest''.length < rest'.length := progress' _ _ _ _ ran'
            exact ih n' value proper t rest'' ahead (by omega) (by omega)
          | inr value => exact .same proper ahead
        | fault common =>
          rw [bind_eq, ran']
          exact .fault common
        | early early beyond =>
          refine .early early fun deep => Beyond.bind (ran' ▸ beyond deep) fun next t room => ?_
          cases next with
          | inl value => exact beyond_repeatAtMost deep steps n' value t room
          | inr value => exact room
  exact bounded _ _ a (fun site member => given site (placed member)) s rest' ahead
    (Nat.lt_succ_self _) (Nat.lt_succ_self _)

end

/-- Nothing is compared, but the second run is still followed. -/
def dead (L : Likeness) : Likeness where
  Ahead _ _ _ := False
  Site := L.Site
  Early _ := False
  deep := L.deep
  plain _ := id
  look := False.elim
  move ahead := ahead.elim

/-- What is allowed one level further in on both sides. If only the second side may go there, the
first one ends early. -/
inductive Inner {R : Type} (Pair : Likeness → R → R → Prop) (L : Likeness) :
    Option R → Option R → Prop
  | both {r r'} : Pair L r r' → Inner Pair L (some r) (some r')
  | neither : (∀ site, ¬ L.Early ⟨.nestingTooDeep, site⟩) → Inner Pair L none none
  | second {r'} : (∀ site, L.Early ⟨.nestingTooDeep, site⟩) → Pair L.dead r' r' →
      Inner Pair L none (some r')

/-- One goes further in right behind a site. -/
theorem AlikeFrom.enter_bind {R : Type} {Pair : Likeness → R → R → Prop} {inner inner' : Option R}
    (allowed : Inner Pair L inner inner') {site : Nat} (member : site ∈ known)
    {f f' : R → Analysis α}
    (rest : ∀ (L : Likeness) r r', Pair L r r' → L.Alike known sites (f r) (f' r')) :
    L.AlikeFrom (·.position = site + 1) 1 known sites (enter inner site >>= f)
      (enter inner' site >>= f') := by
  cases allowed with
  | both pair => exact (rest L _ _ pair).from _ _
  | neither late =>
    refine ⟨fun given s rest' starts ahead =>
        .fault ⟨given site member, late site, fun deep _ => ?_⟩,
      fun _ s low starts room _ => ?_⟩
    · rcases L.look ahead with ⟨_, _, _, flat⟩ | ⟨here, _⟩
      · exact absurd deep flat
      · rwa [starts] at here
    · change low ≤ site
      omega
  | @second r' early pair =>
    have alike := rest L.dead r' r' pair
    refine ⟨fun _ s rest' starts _ => .early (early site) fun deep => ?_, fun deep s low _ room =>
      alike.safe deep s low trivial (by omega)⟩
    exact alike.safe deep (s.withRest rest') (site + 1) trivial (Nat.le_of_eq starts.symm)

end Likeness

end C0
