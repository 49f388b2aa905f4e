import C0.Proofs.Step

namespace C0

/-- Some readings that lie before one state lie behind the next, and nothing is read twice. -/
def State.LeadsTo (s t : State) : Prop :=
  ∃ count, t.position = s.position + count ∧ t.rest = s.rest.drop count

namespace State.LeadsTo

variable {s t u : State}

/-- Nothing lies between a state and itself. -/
theorem refl (s : State) : s.LeadsTo s :=
  ⟨0, rfl, rfl⟩

theorem trans (first : s.LeadsTo t) (rest : t.LeadsTo u) : s.LeadsTo u := by
  obtain ⟨m, position, readings⟩ := first
  obtain ⟨n, position', readings'⟩ := rest
  exact ⟨m + n, by omega, by rw [readings', readings, List.drop_drop]⟩

theorem advanced (s : State) : s.LeadsTo s.advanced :=
  ⟨1, rfl, by simp [State.advanced]⟩

/-- There are never more readings left than before. -/
theorem length_le (leads : s.LeadsTo t) : t.rest.length ≤ s.rest.length := by
  obtain ⟨count, _, readings⟩ := leads
  simp [readings]

end State.LeadsTo

namespace State.Takes

variable {s t : State} {kind : Kind}

theorem position (takes : s.Takes kind t) : t.position = s.position + 1 := by
  obtain ⟨_, rfl⟩ := takes
  rfl

/-- What is taken was the first of the readings. Only the end of a source can be taken when none is
left. -/
theorem rest (takes : s.Takes kind t) (notEnd : kind ≠ .eof) : s.rest = .ok kind :: t.rest := by
  obtain ⟨current, rfl⟩ := takes
  unfold State.current at current
  cases readings : s.rest with
  | nil =>
    simp only [readings, List.head?_nil, Option.getD_none, Except.ok.injEq] at current
    exact absurd current.symm notEnd
  | cons reading rest =>
    simp only [readings, List.head?_cons, Option.getD_some] at current
    simp [advanced, readings, current]

theorem length_lt (takes : s.Takes kind t) (notEnd : kind ≠ .eof) :
    t.rest.length < s.rest.length := by
  rw [takes.rest notEnd]
  exact Nat.lt_succ_self _

end State.Takes

namespace Analysis

variable {α β : Type}

@[simp] theorem ok_bind {ε : Type} (a : α) (f : α → Except ε β) : (.ok a >>= f) = f a :=
  rfl

@[simp] theorem error_bind {ε : Type} (e : ε) (f : α → Except ε β) :
    ((.error e : Except ε α) >>= f) = .error e :=
  rfl

/-- What a run comes to, without the state that a failure leaves behind. -/
def observe (m : Analysis α) (s : State) : Except (Fault Nat) (α × State) :=
  match m s with
  | .ok a t => .ok (a, t)
  | .error fault _ => .error fault

/-- A success is observed with its state. -/
theorem observe_ok_iff {m : Analysis α} {s t : State} {a : α} :
    observe m s = .ok (a, t) ↔ m s = .ok a t := by
  unfold observe
  cases m s <;> simp

/-- A failure is observed without its state. -/
theorem observe_error_iff {m : Analysis α} {s : State} {fault : Fault Nat} :
    observe m s = .error fault ↔ ∃ t, m s = .error fault t := by
  unfold observe
  cases m s <;> simp

/-- Steps are observed one after the other. -/
@[simp] theorem observe_bind (m : Analysis α) (f : α → Analysis β) (s : State) :
    observe (m >>= f) s = observe m s >>= fun p => observe (f p.1) p.2 := by
  change observe (EStateM.bind m f) s = _
  unfold observe EStateM.bind
  cases m s <;> rfl

@[simp] theorem observe_pure (a : α) (s : State) : observe (pure a) s = pure (a, s) :=
  rfl

@[simp] theorem observe_get (s : State) : observe (get : Analysis State) s = pure (s, s) :=
  rfl

@[simp] theorem observe_fail (cause : Cause) (site : Nat) (s : State) :
    observe (fail cause site : Analysis α) s = .error ⟨cause, site⟩ :=
  rfl

@[simp] theorem observe_advance (s : State) : observe advance s = pure ((), s.advanced) :=
  rfl

@[simp] theorem observe_orFail (checked : Except (Fault Nat) α) (s : State) :
    observe (orFail checked) s = checked >>= fun a => pure (a, s) := by
  cases checked <;> rfl

/-- What is next is observed, or the fault in its place. -/
theorem observe_peek (s : State) :
    observe peek s = match s.current with
      | .ok kind => .ok (⟨kind, s.position⟩, s)
      | .error cause => .error ⟨cause, s.position⟩ := by
  unfold observe peek State.current
  cases s.rest with
  | nil => rfl
  | cons reading rest => cases reading <;> rfl

/-- Two steps come to the same from every state. -/
def Agrees (m n : Analysis α) : Prop :=
  ∀ s, observe m s = observe n s

namespace Agrees

variable {m n : Analysis α}

theorem refl (m : Analysis α) : Agrees m m :=
  fun _ => rfl

/-- Steps agree if their parts do. -/
theorem bind {f g : α → Analysis β} (first : Agrees m n) (rest : ∀ a, Agrees (f a) (g a)) :
    Agrees (m >>= f) (n >>= g) := by
  intro s
  simp only [observe_bind, first s]
  cases observe n s with
  | ok p => exact rest p.1 p.2
  | error fault => rfl

theorem repeatAtMost {f g : α → Analysis (α ⊕ β)} (steps : ∀ a, Agrees (f a) (g a)) (n : Nat) :
    ∀ a, Agrees (repeatAtMost f n a) (repeatAtMost g n a) := by
  induction n with
  | zero => exact fun _ => refl _
  | succ n ih =>
    intro a
    refine bind (steps a) fun result => ?_
    cases result with
    | inl value => exact ih value
    | inr result => exact refl _

/-- Loops agree if their steps do. -/
theorem repeatUntil {f g : α → Analysis (α ⊕ β)} (steps : ∀ a, Agrees (f a) (g a)) (a : α) :
    Agrees (repeatUntil f a) (repeatUntil g a) :=
  bind (refl _) fun _ => repeatAtMost steps _ a

end Agrees

/-- The step never goes back. -/
def Forward (m : Analysis α) : Prop :=
  ∀ s a t, m s = .ok a t → s.LeadsTo t

/-- Each repetition of the step takes a token. -/
def Progresses (step : α → Analysis (α ⊕ β)) : Prop :=
  ∀ a s a' t, step a s = .ok (.inl a') t → t.rest.length < s.rest.length

/-- Enough repetitions are allowed as soon as there are more than readings. -/
theorem repeatAtMost_enough {step : α → Analysis (α ⊕ β)} (progress : Progresses step)
    (m n : Nat) (a : α) (s : State) (enough : s.rest.length < m) (enough' : s.rest.length < n) :
    repeatAtMost step m a s = repeatAtMost step n a s := by
  induction m generalizing n a s with
  | zero => omega
  | succ m ih =>
    cases n with
    | zero => omega
    | succ n =>
      change EStateM.bind (step a) _ s = EStateM.bind (step a) _ s
      unfold EStateM.bind
      cases run : step a s with
      | error fault t => rfl
      | ok result t =>
        cases result with
        | inl value =>
          have shorter := progress _ _ _ _ run
          exact ih n value t (by omega) (by omega)
        | inr result => rfl

/-- A loop does its step once, and starts over or ends. -/
theorem observe_repeatUntil {step : α → Analysis (α ⊕ β)} (progress : Progresses step)
    (a : α) (s : State) :
    observe (repeatUntil step a) s = observe (step a) s >>= fun p =>
      match p.1 with
      | .inl value => observe (repeatUntil step value) p.2
      | .inr result => pure (result, p.2) := by
  have bounded (value : α) (t : State) :
      observe (repeatUntil step value) t =
        observe (repeatAtMost step (t.rest.length + 1) value) t := rfl
  rw [bounded, repeatAtMost, observe_bind]
  cases run : observe (step a) s with
  | error fault => rfl
  | ok p =>
    obtain ⟨result, t⟩ := p
    cases result with
    | inl value =>
      have shorter := progress _ _ _ _ (observe_ok_iff.mp run)
      have same := repeatAtMost_enough progress s.rest.length (t.rest.length + 1) value t
        (by omega) (by omega)
      simp only [ok_bind, observe, same]
      rfl
    | inr result => rfl

/-- A loop that ends well, step by step. -/
inductive Iterates (step : α → Analysis (α ⊕ β)) : α → State → β → State → Prop
  | done {a s b t} : step a s = .ok (.inr b) t → Iterates step a s b t
  | next {a s a' t b u} : step a s = .ok (.inl a') t → Iterates step a' t b u →
      Iterates step a s b u

theorem repeatAtMost_iterates {step : α → Analysis (α ⊕ β)} {n : Nat} {a : α} {b : β} {s t : State}
    (run : repeatAtMost step n a s = .ok b t) : Iterates step a s b t := by
  induction n generalizing a s with
  | zero => simp [repeatAtMost] at run
  | succ n ih =>
    obtain ⟨result, u, first, rest⟩ := bind_ok_iff.mp run
    cases result with
    | inl value => exact .next first (ih rest)
    | inr result =>
      obtain ⟨rfl, rfl⟩ := pure_ok_iff.mp rest
      exact .done first

/-- A loop that ends has done its step until it gave a result. -/
theorem repeatUntil_iterates {step : α → Analysis (α ⊕ β)} {a : α} {b : β} {s t : State}
    (run : repeatUntil step a s = .ok b t) : Iterates step a s b t := by
  obtain ⟨_, _, here, rest⟩ := bind_ok_iff.mp run
  obtain ⟨rfl, rfl⟩ := get_ok_iff.mp here
  exact repeatAtMost_iterates rest

namespace Forward

/-- Two steps go forwards if each of them does. -/
theorem bind {m : Analysis α} {f : α → Analysis β} (first : Forward m)
    (rest : ∀ a, Forward (f a)) : Forward (m >>= f) := by
  intro s b u run
  obtain ⟨a, t, before, after⟩ := bind_ok_iff.mp run
  exact (first _ _ _ before).trans (rest a _ _ _ after)

/-- A loop goes forwards if its step does. -/
theorem repeatUntil {step : α → Analysis (α ⊕ β)} (steps : ∀ a, Forward (step a)) (a : α) :
    Forward (repeatUntil step a) := by
  intro s b t run
  have walk := repeatUntil_iterates run
  clear run
  induction walk with
  | done last => exact steps _ _ _ _ last
  | next first _ ih => exact (steps _ _ _ _ first).trans ih

end Forward

end Analysis

end C0
