import C0.Proofs.Bindings
import C0.Proofs.Likeness.Source

namespace C0

open Bindings (scanSource)

/-- A failure after so many readings shows the assignments to constants among them: the first one is
blamed, and nothing behind its left side was read. Nothing else is blamed for changing a constant. -/
def FaultExposes (flagged : List Nat) (fault : Fault Nat) (position : Nat) : Prop :=
  (∀ site ∈ flagged, site < position → fault = ⟨.changeConst, site⟩ ∧ position = site + 1) ∧
    (fault.cause = .changeConst → fault.site ∈ flagged ∧ fault.site < position)

/-- What holds at a place of the bindings there, of the symbols in sight and of what comes next. -/
abbrev Assertion := Bindings → List Symbol → Reading → Prop

/-- An assertion holds of a state that stands at a place of a source, and no assignment to a constant
lies behind. -/
structure Seen (source : String) (holds : Assertion) (s : State) : Prop where
  ahead : s.rest <:+ (lexemes source).map Lexeme.reading
  found : ∃ bindings : Bindings, holds bindings s.cores s.current ∧
    bindings.scan s.position s.rest = scanSource source

section

variable {α β : Type}

/-- What a run comes to: an assertion holds, or the failure shows the assignments to constants. -/
def Leaves (source : String) (post : α → Assertion) : EStateM.Result (Fault Nat) State α → Prop
  | .ok a t => Seen source (post a) t
  | .error fault t => FaultExposes (scanSource source) fault t.position

/-- From where an assertion holds, a step leads to where another one holds. -/
def Ensures (source : String) (pre : Assertion) (m : Analysis α) (post : α → Assertion) : Prop :=
  ∀ s, Seen source pre s → Leaves source post (m s)

variable {source : String} {pre pre' middle : Assertion} {post post' : α → Assertion}
  {s t : State} {kind : Kind}

namespace Seen

theorem mono (seen : Seen source pre s)
    (implies : ∀ bindings, pre bindings s.cores s.current → pre' bindings s.cores s.current) :
    Seen source pre' s := by
  obtain ⟨ahead, bindings, holds, same⟩ := seen
  exact ⟨ahead, bindings, implies bindings holds, same⟩

theorem of_same (seen : Seen source pre s) (position : t.position = s.position)
    (rest : t.rest = s.rest) (cores : t.cores = s.cores) : Seen source pre t := by
  obtain ⟨ahead, bindings, holds, same⟩ := seen
  refine ⟨rest ▸ ahead, bindings, ?_, by rw [position, rest, same]⟩
  rwa [cores, State.current, rest]

/-- A failure that is no matter of constants shows none, as none lies behind. -/
theorem exposes (seen : Seen source pre s) {fault : Fault Nat} (plain : fault.cause ≠ .changeConst) :
    FaultExposes (scanSource source) fault s.position := by
  obtain ⟨_, bindings, _, same⟩ := seen
  refine ⟨fun site member before => ?_, fun changed => absurd changed plain⟩
  rw [← same] at member
  exact absurd (Bindings.le_of_mem_scan member) (Nat.not_le.mpr before)

/-- A reading that is no token is no matter of constants. -/
theorem unreadable (seen : Seen source pre s) {cause : Cause} (current : s.current = .error cause) :
    FaultExposes (scanSource source) ⟨cause, s.position⟩ s.position := by
  refine seen.exposes ?_
  have member : .error cause ∈ s.rest := by
    unfold State.current at current
    cases readings : s.rest with
    | nil => simp [readings] at current
    | cons reading rest =>
      rw [readings] at current
      exact current ▸ List.mem_cons_self ..
  rcases Scanner.lexemes_error (seen.ahead.mem member) with rfl | rfl <;> simp

/-- A token that is no assignment to a constant is passed. -/
theorem take (seen : Seen source pre s) (takes : s.Takes kind t)
    (calm : ∀ bindings, pre bindings s.cores (.ok kind) → bindings.breaks kind t.rest = false)
    (moves : ∀ bindings, pre bindings s.cores (.ok kind) →
      pre' (bindings.next kind) s.cores t.current) : Seen source pre' t := by
  obtain ⟨ahead, bindings, holds, same⟩ := seen
  rw [takes.1] at holds
  refine ⟨?_, bindings.next kind, ?_, ?_⟩
  · obtain ⟨_, rfl⟩ := takes
    exact (List.tail_suffix _).trans ahead
  · rw [takes.cores]
    exact moves bindings holds
  · rw [← same, Bindings.scan_take takes (calm bindings holds)]

end Seen

theorem Leaves.bind {m : Analysis α} {f : α → Analysis β} {last : β → Assertion}
    (first : Leaves source post (m s)) (later : ∀ a, Ensures source (post a) (f a) last) :
    Leaves source last ((m >>= f) s) := by
  rw [Analysis.bind_eq]
  cases run : m s with
  | ok a t =>
    rw [run] at first
    exact later a t first
  | error fault t => rwa [run] at first

/-- Where an assertion holds, a name is not the beginning of an operand. -/
def Assertion.Calm (pre : Assertion) : Prop :=
  ∀ bindings cores name, pre bindings cores (.ok (.identifier name)) → bindings.stance ≠ .operand

theorem Assertion.Calm.breaks (calm : pre.Calm) {bindings : Bindings} {cores : List Symbol}
    {rest : List Reading} (holds : pre bindings cores (.ok kind)) :
    bindings.breaks kind rest = false := by
  cases kind with
  | identifier name => simp [Bindings.breaks, calm bindings cores name holds]
  | _ => rfl

namespace Ensures

theorem weaken {m : Analysis α} (ensures : Ensures source pre m post)
    (before : ∀ bindings cores reading, pre' bindings cores reading → pre bindings cores reading)
    (after : ∀ a bindings cores reading, post a bindings cores reading →
      post' a bindings cores reading) : Ensures source pre' m post' := by
  intro s seen
  have leaves := ensures s (seen.mono fun bindings => before bindings _ _)
  cases run : m s with
  | ok a t =>
    rw [run] at leaves
    exact Seen.mono leaves fun bindings => after a bindings _ _
  | error fault t => rwa [run] at leaves

theorem before {m : Analysis α} (ensures : Ensures source pre m post)
    (implies : ∀ bindings cores reading, pre' bindings cores reading → pre bindings cores reading) :
    Ensures source pre' m post :=
  ensures.weaken implies fun _ _ _ _ => id

theorem bind {m : Analysis α} {f : α → Analysis β} {last : β → Assertion}
    (first : Ensures source pre m post) (later : ∀ a, Ensures source (post a) (f a) last) :
    Ensures source pre (m >>= f) last :=
  fun s seen => (first s seen).bind later

theorem pure {a : α} (holds : ∀ bindings cores reading, pre bindings cores reading →
    post a bindings cores reading) : Ensures source pre (pure a) post :=
  fun _ seen => seen.mono fun bindings => holds bindings _ _

theorem fail {cause : Cause} {site : Nat} (plain : cause ≠ .changeConst) :
    Ensures source pre (Analysis.fail cause site) post :=
  fun _ seen => seen.exposes plain

theorem refuse {bad : Prop} [Decidable bad] {cause : Cause} {site : Nat}
    (plain : cause ≠ .changeConst) :
    Ensures source pre (Analysis.refuse bad cause site) fun _ => pre := by
  unfold Analysis.refuse
  split
  · exact fail plain
  · exact pure fun _ _ _ => id

theorem orFail {checked : Except (Fault Nat) α}
    (plain : ∀ fault, checked = .error fault → fault.cause ≠ .changeConst) :
    Ensures source pre (Analysis.orFail checked) fun _ => pre := by
  cases checked with
  | ok a => exact pure fun _ _ _ => id
  | error fault => exact fun s seen => seen.exposes (plain fault rfl)

/-- A step that reads nothing and keeps the symbols keeps every assertion. -/
theorem quiet {m : Analysis α} (runs : ∀ s, ∃ a t, m s = .ok a t ∧ t.position = s.position ∧
    t.rest = s.rest ∧ t.cores = s.cores) : Ensures source pre m fun _ => pre := by
  intro s seen
  obtain ⟨a, t, run, position, rest, cores⟩ := runs s
  rw [run]
  exact seen.of_same position rest cores

theorem get : Ensures source pre (get : Analysis State) fun _ => pre :=
  quiet fun s => ⟨s, s, rfl, rfl, rfl, rfl⟩

theorem register {entry : Entry} : Ensures source pre (Analysis.register entry) fun _ => pre :=
  quiet fun _ => ⟨_, _, rfl, rfl, rfl, rfl⟩

theorem markInitialized {v : Variable} :
    Ensures source pre (Analysis.markInitialized v) fun _ => pre := by
  refine quiet fun s => ⟨(), s.initialized v, by simp, ?_, ?_, s.cores_initialized v⟩
  all_goals
    unfold State.initialized
    cases v.rank <;> rfl

theorem peek_bind {f : Word → Analysis α}
    (later : ∀ kind site, Ensures source
      (fun bindings cores reading => pre bindings cores reading ∧ reading = .ok kind)
      (f ⟨kind, site⟩) post) : Ensures source pre (Analysis.peek >>= f) post := by
  intro s seen
  rw [Analysis.bind_eq, Analysis.peek_eq]
  cases current : s.current with
  | error cause => exact seen.unreadable current
  | ok kind => exact later kind s.position s (seen.mono fun bindings holds => ⟨holds, current⟩)

theorem check : Ensures source pre (Analysis.check kind) fun isKind bindings cores reading =>
    pre bindings cores reading ∧ (isKind = true → reading = .ok kind) := by
  refine peek_bind fun found site => pure ?_
  rintro bindings cores reading ⟨holds, rfl⟩
  exact ⟨holds, fun same => congrArg _ (eq_of_beq same)⟩

theorem enter_bind {inner : Option α} {site : Nat} {f : α → Analysis β} {last : β → Assertion}
    (later : ∀ reader, inner = some reader → Ensures source pre (f reader) last) :
    Ensures source pre (Analysis.enter inner site >>= f) last := by
  cases inner with
  | some reader => exact later reader rfl
  | none =>
    intro s seen
    change FaultExposes (scanSource source) ⟨.nestingTooDeep, site⟩ s.position
    exact seen.exposes (by simp)

theorem repeatUntil {during : β → Assertion} {step : β → Analysis (β ⊕ α)}
    (steps : ∀ b, Ensures source (during b) (step b) (Sum.elim during post)) (b : β) :
    Ensures source (during b) (Analysis.repeatUntil step b) post := by
  have atMost (n : Nat) (b : β) :
      Ensures source (during b) (Analysis.repeatAtMost step n b) post := by
    induction n generalizing b with
    | zero => exact peek_bind fun _ _ => fail (by simp)
    | succ n ih =>
      refine (steps b).bind fun result => ?_
      cases result with
      | inl value => exact ih value
      | inr result => exact pure fun _ _ _ => id
  exact fun s => atMost (s.rest.length + 1) b s

/-- A token is taken, whatever it is. -/
theorem next_bind {f : Word → Analysis α} (calm : pre.Calm)
    (later : ∀ kind site, Ensures source
      (fun bindings cores _ => ∃ earlier, pre earlier cores (.ok kind) ∧ bindings = earlier.next kind)
      (f ⟨kind, site⟩) post) : Ensures source pre (Analysis.next >>= f) post := by
  intro s seen
  rw [Analysis.bind_eq, Analysis.next_eq]
  cases current : s.current with
  | error cause => exact seen.unreadable current
  | ok kind =>
    refine later kind s.position s.advanced (seen.take ⟨current, rfl⟩ (fun _ => calm.breaks) ?_)
    exact fun bindings holds => ⟨bindings, holds, rfl⟩

theorem expect (calm : pre.Calm) (moves : ∀ bindings cores reading, pre bindings cores (.ok kind) →
    middle (bindings.next kind) cores reading) :
    Ensures source pre (Analysis.expect kind) fun _ => middle := by
  refine next_bind calm fun found site => ?_
  by_cases same : found = kind
  · subst same
    refine (refuse (by simp)).bind fun _ => pure ?_
    rintro _ cores reading ⟨bindings, holds, rfl⟩
    exact moves bindings cores reading holds
  · -- The token was passed before it is refused, and it does not begin an operand.
    intro s seen
    have refused : (Analysis.refuse (found ≠ kind) .unexpectedToken site >>= fun _ =>
        Pure.pure site) s = .error ⟨.unexpectedToken, site⟩ s := by
      rw [Analysis.refuse, if_pos same]
      rfl
    rw [refused]
    exact seen.exposes (by simp)

theorem expectIdentifier {named : NameWord → Assertion} (calm : pre.Calm)
    (moves : ∀ word bindings cores reading, pre bindings cores (.ok (.identifier word.name)) →
      named word (bindings.next (.identifier word.name)) cores reading) :
    Ensures source pre Analysis.expectIdentifier named := by
  refine next_bind calm fun kind site => ?_
  cases kind with
  | identifier name =>
    refine pure ?_
    rintro _ cores reading ⟨bindings, holds, rfl⟩
    exact moves ⟨name, site⟩ bindings cores reading holds
  | _ => exact fail (by simp)

theorem expectType (calm : pre.Calm)
    (moves : ∀ ty bindings cores reading, pre bindings cores (.ok (.type ty)) →
      middle (bindings.next (.type ty)) cores reading) :
    Ensures source pre Analysis.expectType fun _ => middle := by
  refine next_bind calm fun kind site => ?_
  cases kind with
  | type ty =>
    refine pure ?_
    rintro _ cores reading ⟨bindings, holds, rfl⟩
    exact moves ty bindings cores reading holds
  | _ => exact fail (by simp)

theorem expectValueType (calm : pre.Calm)
    (moves : ∀ ty bindings cores reading, pre bindings cores (.ok (.type ty)) →
      middle (bindings.next (.type ty)) cores reading) :
    Ensures source pre Analysis.expectValueType fun _ => middle :=
  (expectType calm moves).bind fun _ => (refuse (by simp)).bind fun _ => pure fun _ _ _ => id

/-- A token that was looked at is passed. -/
theorem advance (known : ∀ name, kind ≠ .identifier name)
    (moves : ∀ bindings cores reading, pre bindings cores (.ok kind) →
      middle (bindings.next kind) cores reading) :
    Ensures source (fun bindings cores reading => pre bindings cores reading ∧ reading = .ok kind)
      Analysis.advance fun _ => middle := by
  intro s seen
  have current : s.current = .ok kind := by
    obtain ⟨_, _, ⟨_, current⟩, _⟩ := seen
    exact current
  exact seen.take ⟨current, rfl⟩ (fun _ _ => Bindings.breaks_of_ne known)
    fun bindings holds => moves bindings _ _ holds.1

theorem eat (known : ∀ name, kind ≠ .identifier name)
    (moves : ∀ bindings cores reading, pre bindings cores (.ok kind) →
      middle (bindings.next kind) cores reading) :
    Ensures source pre (Analysis.eat kind) fun site => site.elim pre fun _ => middle := by
  intro s seen
  rw [Analysis.eat_eq]
  cases current : s.current with
  | error cause => exact seen.unreadable current
  | ok found =>
    by_cases same : found = kind
    · simp only [same, if_true]
      exact seen.take ⟨same ▸ current, rfl⟩ (fun _ _ => Bindings.breaks_of_ne known)
        fun bindings => moves bindings _ _
    · simp only [same, if_false]
      exact seen

end Ensures

end

end C0
