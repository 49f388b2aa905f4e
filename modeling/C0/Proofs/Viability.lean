import C0.Proofs.Grammar
import C0.Proofs.Progress

namespace C0

open Analysis Pattern

/-- The last token is the end of the source, and no other one is. -/
def Ended (kinds : List Kind) : Prop :=
  ∃ before, kinds = before ++ [.eof] ∧ .eof ∉ before

theorem Ended.tail {kind : Kind} {kinds : List Kind} (ended : Ended (kind :: kinds))
    (more : kind ≠ .eof) : Ended kinds := by
  obtain ⟨before, same, absent⟩ := ended
  cases before with
  | nil =>
    cases same
    exact absurd rfl more
  | cons first before =>
    cases same
    exact ⟨before, rfl, fun member => absent (List.mem_cons_of_mem _ member)⟩

/-- Just these tokens lie before the state. -/
def State.Faces (s : State) (kinds : List Kind) : Prop :=
  s.rest = kinds.map .ok ∧ Ended kinds

namespace State.Faces

variable {s t : State} {kind : Kind} {kinds : List Kind}

theorem exists_cons (faces : s.Faces kinds) : ∃ kind rest, kinds = kind :: rest := by
  obtain ⟨_, before, rfl, _⟩ := faces
  cases before with
  | nil => exact ⟨_, _, rfl⟩
  | cons kind before => exact ⟨_, _, rfl⟩

theorem current (faces : s.Faces (kind :: kinds)) : s.current = .ok kind := by
  rw [State.current, faces.1]
  rfl

theorem advanced (faces : s.Faces (kind :: kinds)) (more : kind ≠ .eof) :
    s.advanced.Faces kinds := by
  refine ⟨?_, faces.2.tail more⟩
  rw [State.advanced, faces.1]
  rfl

theorem of_rest (faces : s.Faces kinds) (same : t.rest = s.rest) : t.Faces kinds :=
  ⟨same.trans faces.1, faces.2⟩

end State.Faces

/-- What a run comes to that should read a form before another one: it reads a part of the form and
leaves the rest, so that just what may follow the part is left for the token that comes next, or it
is stuck at the first token that nothing allows. Other faults are not told about. -/
inductive Meets {α : Type} (after form : Pattern) (rest : α → Pattern) (start : Nat)
    (kinds : List Kind) : Except (Fault Nat) (α × State) → Prop
  | ok {a t read left} : kinds = read ++ left → t.Faces left →
      t.position = start + read.length →
      (∀ word, (rest a).Derives word → form.Derives (read ++ word)) →
      (∀ word, word.head? = left.head? → (seq form after).Derives (read ++ word) →
        (seq (rest a) after).Derives word) →
      Meets after form rest start kinds (.ok (a, t))
  | stuck {site read kind left} : kinds = read ++ kind :: left → site = start + read.length →
      (∃ word, form.Derives (read ++ word)) →
      (∀ word, ¬ (seq form after).Derives (read ++ kind :: word)) →
      Meets after form rest start kinds (.error ⟨.unexpectedToken, site⟩)
  | other {fault} : fault.cause ≠ .unexpectedToken →
      Meets after form rest start kinds (.error fault)

/-- From states with a token before them, a step reads what a form begins with. What it leaves of
the form depends on its result, and another form follows. -/
def ExpectsAt {α : Type} (kind : Kind) (after form : Pattern) (m : Analysis α)
    (rest : α → Pattern) : Prop :=
  ∀ s kinds, s.Faces (kind :: kinds) →
    Meets after form rest s.position (kind :: kinds) (observe m s)

/-- A step reads what a form begins with, whatever token comes first. -/
def Expects {α : Type} (after form : Pattern) (m : Analysis α) (rest : α → Pattern) : Prop :=
  ∀ kind, ExpectsAt kind after form m rest

/-- A step reads a form to its end. -/
abbrev Spells {α : Type} (after form : Pattern) (m : Analysis α) : Prop :=
  Expects after form m fun _ => empty

/-- The step reads nothing and does not judge what comes next. -/
def Silent {α : Type} (m : Analysis α) : Prop :=
  ∀ s, match observe m s with
    | .ok r => r.2.position = s.position ∧ r.2.rest = s.rest
    | .error fault => fault.cause ≠ .unexpectedToken

section

variable {α β : Type} {after after' form form' p q : Pattern} {kind : Kind} {terminal : Terminal}
  {found : Kind} {m n : Analysis α} {rest : α → Pattern} {rest' : β → Pattern} {s : State}
  {start : Nat} {kinds : List Kind}

/-- A step is told about at the token that it faces. There is one, for the end is a token too. -/
theorem Expects.meets (expects : Expects after form m rest) (faces : s.Faces kinds) :
    Meets after form rest s.position kinds (observe m s) := by
  obtain ⟨kind, kinds, rfl⟩ := faces.exists_cons
  exact expects kind s kinds faces

/-- Only the token after a part that was read tells whether the part ended where it should. -/
theorem head?_append_eq (read : List Kind) {left word : List Kind}
    (same : word.head? = left.head?) :
    (read ++ word).head? = (read ++ left).head? := by
  cases read with
  | nil => exact same
  | cons kind read => rfl

/-- Parts are read one after another: what the first one leaves of the form is the form of the
second. -/
theorem Meets.bind {result : Except (Fault Nat) (α × State)}
    {g : α × State → Except (Fault Nat) (β × State)}
    (first : Meets after form rest start kinds result)
    (later : ∀ a t left, result = .ok (a, t) → t.Faces left →
      Meets after (rest a) rest' t.position left (g (a, t))) :
    Meets after form rest' start kinds (result >>= g) := by
  cases first with
  | @ok a t read left split faces position sound complete =>
    subst split
    -- What the second part reads is put behind what the first one has read.
    have second := later a t left rfl faces
    rw [ok_bind]
    generalize g (a, t) = result at second
    cases second with
    | @ok b u more left split faces' position' sound' complete' =>
      subst split
      refine .ok (List.append_assoc ..).symm faces' ?_ ?_ ?_
      · rw [position', position, List.length_append, Nat.add_assoc]
      · intro word derived
        rw [List.append_assoc]
        exact sound _ (sound' word derived)
      · intro word same derived
        rw [List.append_assoc] at derived
        exact complete' word same (complete _ (head?_append_eq _ same) derived)
    | @stuck site more kind left split position' viable blocked =>
      subst split
      refine .stuck (List.append_assoc ..).symm ?_ ?_ ?_
      · rw [position', position, List.length_append, Nat.add_assoc]
      · obtain ⟨word, derived⟩ := viable
        exact ⟨word, by rw [List.append_assoc]; exact sound _ derived⟩
      · intro word derived
        rw [List.append_assoc] at derived
        exact blocked word (complete _ (head?_append_eq _ rfl) derived)
    | other elsewhere => exact .other elsewhere
  | stuck split position viable blocked => exact .stuck split position viable blocked
  | other elsewhere => exact .other elsewhere

theorem ExpectsAt.bind {f : α → Analysis β} (first : ExpectsAt kind after form m rest)
    (later : ∀ a, Expects after (rest a) (f a) rest') :
    ExpectsAt kind after form (m >>= f) rest' := by
  intro s kinds faces
  rw [observe_bind]
  exact (first s kinds faces).bind fun a _ _ _ faces => (later a).meets faces

theorem Expects.bind {f : α → Analysis β} (first : Expects after form m rest)
    (later : ∀ a, Expects after (rest a) (f a) rest') : Expects after form (m >>= f) rest' :=
  fun kind => (first kind).bind later

/-- What reads nothing leaves the form as it is. -/
theorem ExpectsAt.pure {a : α} (same : rest a = form) :
    ExpectsAt kind after form (pure a) rest := by
  rintro s kinds faces
  subst same
  exact .ok (List.nil_append _).symm faces rfl (fun _ derived => derived) fun _ _ derived => derived

theorem Expects.pure {a : α} (same : rest a = form) : Expects after form (pure a) rest :=
  fun _ => .pure same

/-- A token that nothing allows is blamed. -/
theorem Meets.stuckHere (blocked : (seq form after).starts kind = false) :
    Meets after form rest start (kind :: kinds) (.error ⟨.unexpectedToken, start⟩) :=
  .stuck (List.nil_append _).symm rfl form.productive fun _ => not_derives_of_starts blocked

/-- After a look the token is known, and the form is still whole. -/
theorem ExpectsAt.peek_bind {f : Word → Analysis α}
    (expects : ∀ site, ExpectsAt kind after form (f ⟨kind, site⟩) rest) :
    ExpectsAt kind after form (peek >>= f) rest := by
  intro s kinds faces
  rw [observe_bind, observe_peek, faces.current]
  exact expects s.position s kinds faces

/-- A token that was only looked at is blamed if nothing allows it. -/
theorem ExpectsAt.peek_stuck {f : Word → Analysis α}
    (fails : ∀ site, f ⟨kind, site⟩ = fail .unexpectedToken site)
    (blocked : (seq form after).starts kind = false) :
    ExpectsAt kind after form (peek >>= f) rest := by
  intro s kinds faces
  rw [observe_bind, observe_peek, faces.current]
  change Meets after form rest s.position _ (observe (f ⟨kind, s.position⟩) s)
  rw [fails]
  exact .stuckHere blocked

/-- A token that a form begins with is passed. -/
theorem ExpectsAt.advance_bind {f : Unit → Analysis α} (accepted : terminal.accepts kind = true)
    (more : kind ≠ .eof) (expects : Expects after p (f ()) rest) :
    ExpectsAt kind after (seq (token terminal) p) (advance >>= f) rest := by
  have taken : ExpectsAt kind after (seq (token terminal) p) advance fun _ => p := by
    intro s kinds faces
    refine .ok (List.singleton_append).symm (faces.advanced more) rfl (fun word derived => ?_)
      fun word _ derived => ?_
    · exact .seq (.token accepted) derived
    · rw [List.singleton_append, derives_assoc_iff, derives_token_seq_cons_iff] at derived
      exact derived.2
  exact taken.bind fun _ => expects

/-- To take a token is to look at it and to pass it. -/
theorem next_bind_eq (f : Word → Analysis α) :
    next >>= f = peek >>= fun word => advance >>= fun _ => f word := by
  simp only [next, bind_assoc, pure_bind]

/-- A token that the form begins with is taken. -/
theorem ExpectsAt.next_bind {f : Word → Analysis α} (accepted : terminal.accepts kind = true)
    (more : kind ≠ .eof) (expects : ∀ site, Expects after p (f ⟨kind, site⟩) rest) :
    ExpectsAt kind after (seq (token terminal) p) (next >>= f) rest := by
  rw [next_bind_eq]
  exact .peek_bind fun site => .advance_bind accepted more (expects site)

/-- A token that is taken may be refused at its own site. -/
theorem ExpectsAt.next_refused {f : Word → Analysis α} {cause : Cause}
    (fails : ∀ site, f ⟨kind, site⟩ = fail cause site)
    (meets : ∀ start kinds, Meets after form rest start (kind :: kinds) (.error ⟨cause, start⟩)) :
    ExpectsAt kind after form (next >>= f) rest := by
  intro s kinds faces
  rw [next_bind_eq, observe_bind, observe_peek, faces.current]
  change Meets after form rest s.position _ (observe (f ⟨kind, s.position⟩) s.advanced)
  rw [fails]
  exact meets s.position kinds

theorem ExpectsAt.next_stuck {f : Word → Analysis α}
    (fails : ∀ site, f ⟨kind, site⟩ = fail .unexpectedToken site)
    (blocked : (seq form after).starts kind = false) :
    ExpectsAt kind after form (next >>= f) rest :=
  .next_refused fails fun _ _ => .stuckHere blocked

/-- A token may be refused for another cause, whatever the form says. -/
theorem ExpectsAt.next_other {f : Word → Analysis α} {cause : Cause}
    (elsewhere : cause ≠ .unexpectedToken) (fails : ∀ site, f ⟨kind, site⟩ = fail cause site) :
    ExpectsAt kind after form (next >>= f) rest :=
  .next_refused fails fun _ _ => .other elsewhere

/-- A token of a class is taken, and any other one is refused. -/
theorem Expects.next_bind {f : Word → Analysis α} (notEnd : terminal.accepts .eof = false)
    (expects : ∀ kind site, terminal.accepts kind = true → Expects after p (f ⟨kind, site⟩) rest)
    (fails : ∀ kind site, terminal.accepts kind = false →
      f ⟨kind, site⟩ = fail .unexpectedToken site) :
    Expects after (seq (token terminal) p) (next >>= f) rest := by
  intro kind
  cases accepted : terminal.accepts kind with
  | true =>
    refine .next_bind accepted ?_ fun site => expects kind site accepted
    rintro rfl
    simp [accepted] at notEnd
  | false =>
    refine .next_stuck (fun site => fails kind site accepted) ?_
    simp [starts, nullable, accepted]

/-- A token that is asked for is there, or what stands in its place is blamed. -/
theorem Expects.expect_bind {f : Nat → Analysis α} (notEnd : kind ≠ .eof)
    (expects : ∀ site, Expects after p (f site) rest) :
    Expects after (seq (token (.exactly kind)) p) (expect kind >>= f) rest := by
  have split : expect kind >>= f = next >>= fun word =>
      refuse (word.kind ≠ kind) .unexpectedToken word.site >>= fun _ => f word.site := by
    simp only [expect, bind_assoc, pure_bind]
  rw [split]
  refine .next_bind ?_ (fun found site accepted => ?_) fun found site refused => ?_
  · simpa [Terminal.accepts] using notEnd.symm
  · obtain rfl : found = kind := by simpa [Terminal.accepts] using accepted
    simp only [refuse, ne_eq, not_true, if_false]
    exact expects site
  · have other : found ≠ kind := by simpa [Terminal.accepts] using refused
    simp only [refuse, ne_eq, other, not_false_eq_true, if_true]
    rfl

theorem Expects.expectIdentifier_bind {f : NameWord → Analysis α}
    (expects : ∀ word, Expects after p (f word) rest) :
    Expects after (seq (token .identifier) p) (expectIdentifier >>= f) rest := by
  rw [expectIdentifier, bind_assoc]
  refine .next_bind rfl (fun kind site accepted => ?_) fun kind site refused => ?_
  · cases kind with
    | identifier name => exact expects _
    | _ => cases accepted
  · cases kind with
    | identifier name => cases refused
    | _ => rfl

theorem Expects.expectType_bind {f : TypeWord → Analysis α}
    (expects : ∀ word, Expects after p (f word) rest) :
    Expects after (seq (token .type) p) (expectType >>= f) rest := by
  rw [expectType, bind_assoc]
  refine .next_bind rfl (fun kind site accepted => ?_) fun kind site refused => ?_
  · cases kind with
    | type ty => exact expects _
    | _ => cases accepted
  · cases kind with
    | type ty => cases refused
    | _ => rfl

/-- At a token, a form may be read as one of its parts if the token leaves no other choice. -/
theorem ExpectsAt.narrow (part : ∀ word, form'.Derives word → form.Derives word)
    (only : ∀ word, (seq form after).Derives (kind :: word) →
      (seq form' after).Derives (kind :: word))
    (expects : ExpectsAt kind after form' m rest) : ExpectsAt kind after form m rest := by
  -- The words that count begin with the token, and those are in the part.
  have first {read left word : List Kind} {kinds : List Kind} (split : kind :: kinds = read ++ left)
      (same : word.head? = left.head?) (derived : (seq form after).Derives (read ++ word)) :
      (seq form' after).Derives (read ++ word) := by
    have begins := head?_append_eq read same
    rw [← split, List.head?_cons, List.head?_eq_some_iff] at begins
    obtain ⟨more, listed⟩ := begins
    rw [listed] at derived ⊢
    exact only more derived
  intro s kinds faces
  have meets := expects s kinds faces
  generalize observe m s = result at meets
  cases meets with
  | ok split faces position sound complete =>
    exact .ok split faces position (fun word derived => part _ (sound word derived))
      fun word same derived => complete word same (first split same derived)
  | stuck split position viable blocked =>
    obtain ⟨word, derived⟩ := viable
    exact .stuck split position ⟨word, part _ derived⟩ fun word derived =>
      blocked word (first split rfl derived)
  | other elsewhere => exact .other elsewhere

/-- Forms with the same words are read alike. -/
theorem ExpectsAt.congr (same : ∀ word, form.Derives word ↔ form'.Derives word)
    (expects : ExpectsAt kind after form' m rest) : ExpectsAt kind after form m rest := by
  refine expects.narrow (fun word => (same word).mpr) fun word derived => ?_
  simp only [derives_seq_iff, same] at derived ⊢
  exact derived

theorem Expects.congr (same : ∀ word, form.Derives word ↔ form'.Derives word)
    (expects : Expects after form' m rest) : Expects after form m rest :=
  fun kind => (expects kind).congr same

/-- A name of the grammar is read as what stands for it. -/
theorem ExpectsAt.rule {name : Rule} (expects : ExpectsAt kind after name.body m rest) :
    ExpectsAt kind after (rule name) m rest :=
  expects.congr fun _ => derives_rule_iff

theorem Expects.rule {name : Rule} (expects : Expects after name.body m rest) :
    Expects after (.rule name) m rest :=
  fun kind => (expects kind).rule

/-- The first of two forms is read where the other cannot begin. -/
theorem ExpectsAt.first (apart : (seq q after).starts kind = false)
    (expects : ExpectsAt kind after p m rest) : ExpectsAt kind after (either p q) m rest := by
  refine expects.narrow (fun _ => .first) fun word derived => ?_
  rcases derives_either_iff.mp (derives_either_seq_iff.mp derived) with first | other
  · exact first
  · exact absurd other (not_derives_of_starts apart)

/-- The other of two forms is read where the first cannot begin. -/
theorem ExpectsAt.other (apart : (seq p after).starts kind = false)
    (expects : ExpectsAt kind after q m rest) : ExpectsAt kind after (either p q) m rest := by
  refine expects.narrow (fun _ => .other) fun word derived => ?_
  rcases derives_either_iff.mp (derives_either_seq_iff.mp derived) with first | other
  · exact absurd first (not_derives_of_starts apart)
  · exact other

/-- What may be missing is missing. -/
theorem ExpectsAt.skip (apart : (seq (seq p q) after).starts kind = false)
    (expects : ExpectsAt kind after q m rest) :
    ExpectsAt kind after (seq (maybe p) q) m rest := by
  have split : ExpectsAt kind after (either (seq empty q) (seq p q)) m rest :=
    .first apart (expects.congr fun _ => derives_empty_seq_iff)
  exact split.congr fun _ => derives_either_seq_iff

/-- What may be missing is there. -/
theorem ExpectsAt.present (apart : (seq q after).starts kind = false)
    (expects : ExpectsAt kind after (seq p q) m rest) :
    ExpectsAt kind after (seq (maybe p) q) m rest := by
  have split : ExpectsAt kind after (either (seq empty q) (seq p q)) m rest :=
    .other apart expects
  exact split.congr fun _ => derives_either_seq_iff

/-- A repetition ends. -/
theorem ExpectsAt.stop (apart : (seq (seq p (seq (many p) q)) after).starts kind = false)
    (expects : ExpectsAt kind after q m rest) : ExpectsAt kind after (seq (many p) q) m rest :=
  (ExpectsAt.first apart expects).congr fun _ => derives_many_seq_iff

/-- A repetition goes on. -/
theorem ExpectsAt.again (apart : (seq q after).starts kind = false)
    (expects : ExpectsAt kind after (seq p (seq (many p) q)) m rest) :
    ExpectsAt kind after (seq (many p) q) m rest :=
  (ExpectsAt.other apart expects).congr fun _ => derives_many_seq_iff

/-- What reads a form to its end reads the first part of a longer one. -/
theorem Spells.andThen (spells : Spells (seq q after) p m) :
    Expects after (seq p q) m fun _ => q := by
  intro kind s kinds faces
  have meets := spells kind s kinds faces
  generalize observe m s = result at meets
  cases meets with
  | @ok a t read left split faces position sound complete =>
    refine .ok split faces position (fun word derived => ?_) fun word same derived => ?_
    · have whole := sound [] .empty
      rw [List.append_nil] at whole
      exact .seq whole derived
    · rw [derives_assoc_iff] at derived
      exact derives_empty_seq_iff.mp (complete word same derived)
  | @stuck site read kind left split position viable blocked =>
    obtain ⟨word, derived⟩ := viable
    obtain ⟨more, later⟩ := q.productive
    refine .stuck split position ⟨word ++ more, ?_⟩ fun word derived => ?_
    · rw [← List.append_assoc]
      exact .seq derived later
    · rw [derives_assoc_iff] at derived
      exact blocked word derived
  | other elsewhere => exact .other elsewhere

/-- A form may be followed by more if it takes that in. -/
theorem Spells.absorb (more : ∀ word, after.Derives word → after'.Derives word)
    (absorbs : ∀ word, (seq form after').Derives word → (seq form after).Derives word)
    (spells : Spells after form m) : Spells after' form m := by
  intro kind s kinds faces
  have meets := spells kind s kinds faces
  generalize observe m s = result at meets
  cases meets with
  | ok split faces position sound complete =>
    refine .ok split faces position sound fun word same derived => ?_
    have short := derives_empty_seq_iff.mp (complete word same (absorbs _ derived))
    exact derives_empty_seq_iff.mpr (more word short)
  | stuck split position viable blocked =>
    exact .stuck split position viable fun word derived => blocked word (absorbs _ derived)
  | other elsewhere => exact .other elsewhere

/-- What reads nothing may come first. -/
theorem ExpectsAt.silent_bind {f : α → Analysis β} (silent : Silent m)
    (expects : ∀ a, ExpectsAt kind after form (f a) rest') :
    ExpectsAt kind after form (m >>= f) rest' := by
  intro s kinds faces
  have quiet := silent s
  rw [observe_bind]
  generalize observe m s = result at quiet
  cases result with
  | error fault => exact .other quiet
  | ok r =>
    obtain ⟨a, t⟩ := r
    have meets := expects a t kinds (faces.of_rest quiet.2)
    rwa [quiet.1] at meets

theorem Expects.silent_bind {f : α → Analysis β} (silent : Silent m)
    (expects : ∀ a, Expects after form (f a) rest') : Expects after form (m >>= f) rest' :=
  fun kind => .silent_bind silent fun a => expects a kind

/-- What reads nothing may come last. -/
theorem Silent.expects (silent : Silent m) (same : ∀ a, rest a = form) :
    Expects after form m rest := by
  rw [← bind_pure m]
  exact .silent_bind silent fun a => .pure (same a)

/-- A token that may be missing: with it the form goes on one way, and without it another. -/
theorem ExpectsAt.eat_bind {f : Option Nat → Analysis α}
    (taken : kind = found → ∀ site,
      ExpectsAt found after form (advance >>= fun _ => f (some site)) rest)
    (left : kind ≠ found → ExpectsAt kind after form (f none) rest) :
    ExpectsAt kind after form (eat found >>= f) rest := by
  rw [eat, bind_assoc]
  refine .peek_bind fun site => ?_
  by_cases same : kind = found
  · subst same
    simp only [if_true, bind_assoc, pure_bind]
    exact taken rfl site
  · simp only [same, if_false, pure_bind]
    exact left same

/-- To ask for a token tells only whether it is the one that is faced. -/
theorem ExpectsAt.check_bind {f : Bool → Analysis α}
    (expects : ExpectsAt kind after form (f (kind == found)) rest) :
    ExpectsAt kind after form (check found >>= f) rest := by
  rw [check, bind_assoc]
  refine .peek_bind fun site => ?_
  rw [pure_bind]
  exact expects

/-- A level is left to go down, or the fault is no wrong token. -/
theorem ExpectsAt.enter_bind {reader : Type} {inner : Option reader} {site : Nat}
    {f : reader → Analysis α}
    (expects : ∀ r, inner = some r → ExpectsAt kind after form (f r) rest) :
    ExpectsAt kind after form (enter inner site >>= f) rest := by
  cases inner with
  | some r =>
    rw [enter, pure_bind]
    exact expects r rfl
  | none => exact fun _ _ _ => .other (by simp)

/-- A loop whose step reads some of a form and leaves the form again, until it leaves the rest. -/
theorem Expects.repeatUntil_of {step : α → Analysis (α ⊕ β)} {P : α → Prop}
    (progress : Progresses step)
    (keeps : ∀ a s a' t, P a → step a s = .ok (.inl a') t → P a')
    (steps : ∀ a, P a → Expects after form (step a) (Sum.elim (fun _ => form) rest')) {a : α}
    (proper : P a) : Expects after form (repeatUntil step a) rest' := by
  intro kind s kinds faces
  generalize kind :: kinds = kinds at faces
  -- Each repetition takes a token, so the induction is on the readings that are left.
  induction size : s.rest.length using Nat.strong_induction_on generalizing a s kinds with
  | _ size ih =>
    subst size
    rw [observe_repeatUntil progress]
    refine ((steps a proper).meets faces).bind fun result t left ran faces => ?_
    cases result with
    | inl a' =>
      have run := observe_ok_iff.mp ran
      exact ih _ (progress a s a' t run) (keeps a s a' t proper run) t left faces rfl
    | inr b => exact (Expects.pure rfl).meets faces

/-- A loop whose turns all read the same form. -/
theorem Expects.repeatUntil {step : α → Analysis (α ⊕ β)} (progress : Progresses step)
    (steps : ∀ a, Expects after form (step a) (Sum.elim (fun _ => form) rest')) (a : α) :
    Expects after form (repeatUntil step a) rest' :=
  .repeatUntil_of (P := fun _ => True) progress (fun _ _ _ _ _ _ => trivial)
    (fun a _ => steps a) trivial

namespace Silent

theorem pure (a : α) : Silent (pure a) :=
  fun _ => ⟨rfl, rfl⟩

theorem bind {f : α → Analysis β} (first : Silent m) (later : ∀ a, Silent (f a)) :
    Silent (m >>= f) := by
  intro s
  have quiet := first s
  rw [observe_bind]
  generalize observe m s = result at quiet
  cases result with
  | error fault => exact quiet
  | ok r =>
    obtain ⟨a, t⟩ := r
    have quiet' := later a t
    rw [ok_bind]
    generalize observe (f a) t = result at quiet'
    cases result with
    | error fault => exact quiet'
    | ok r => exact ⟨quiet'.1.trans quiet.1, quiet'.2.trans quiet.2⟩

theorem fail {cause : Cause} {site : Nat} (elsewhere : cause ≠ .unexpectedToken) :
    Silent (fail cause site : Analysis α) :=
  fun _ => elsewhere

theorem refuse {bad : Prop} [Decidable bad] {cause : Cause} {site : Nat}
    (elsewhere : cause ≠ .unexpectedToken) : Silent (refuse bad cause site) := by
  unfold Analysis.refuse
  split
  · exact fail elsewhere
  · exact pure ()

theorem orFail {checked : Except (Fault Nat) α}
    (elsewhere : ∀ fault, checked = .error fault → fault.cause ≠ .unexpectedToken) :
    Silent (orFail checked) := by
  cases checked with
  | ok a => exact pure a
  | error fault => exact fun _ => elsewhere fault rfl

theorem get : Silent (get : Analysis State) :=
  fun _ => ⟨rfl, rfl⟩

theorem modifyGet {f : State → α × State}
    (quiet : ∀ s, (f s).2.position = s.position ∧ (f s).2.rest = s.rest) :
    Silent (modifyGet f : Analysis α) :=
  quiet

end Silent

end

end C0
