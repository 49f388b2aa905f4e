import C0.Analysis.Program
import Mathlib.Algebra.Ring.Nat
import Mathlib.Data.List.Basic
import Mathlib.Tactic.Common

namespace C0

namespace State

/-- The reading before the state. After the last one there are only ends. -/
def current (s : State) : Reading :=
  s.rest.head?.getD (.ok .eof)

/-- The state behind the current reading. -/
def advanced (s : State) : State :=
  { s with position := s.position + 1, rest := s.rest.tail }

/-- The state after one entry got an address. -/
def registered (s : State) (entry : Entry) : State :=
  (s.register entry).2

/-- A token of a kind lies before one state and behind the next. -/
def Takes (s : State) (kind : Kind) (t : State) : Prop :=
  s.current = .ok kind ∧ t = s.advanced

end State

namespace Analysis

variable {α β : Type} {s t : State}

/-- The second of two steps starts where the first one ends. -/
theorem bind_eq (m : Analysis α) (f : α → Analysis β) (s : State) :
    (m >>= f) s = match m s with
      | .ok a t => f a t
      | .error fault t => .error fault t := by
  change EStateM.bind m f s = _
  unfold EStateM.bind
  cases m s <;> rfl

theorem get_bind_eq (f : State → Analysis α) (s : State) : (get >>= f) s = f s s := rfl

/-- To look at a token leaves the state as it is. -/
theorem peek_eq (s : State) :
    peek s = match s.current with
      | .ok kind => .ok ⟨kind, s.position⟩ s
      | .error cause => .error ⟨cause, s.position⟩ s := by
  unfold peek State.current
  cases s.rest with
  | nil => rfl
  | cons reading rest => cases reading <;> rfl

/-- To take a token goes one reading on. -/
theorem next_eq (s : State) :
    next s = match s.current with
      | .ok kind => .ok ⟨kind, s.position⟩ s.advanced
      | .error cause => .error ⟨cause, s.position⟩ s := by
  rw [next, bind_eq, peek_eq]
  cases s.current <;> rfl

/-- A token of another kind is refused after it was taken. -/
theorem expect_eq (kind : Kind) (s : State) :
    expect kind s = match s.current with
      | .ok found =>
        if found = kind then .ok s.position s.advanced
        else .error ⟨.unexpectedToken, s.position⟩ s.advanced
      | .error cause => .error ⟨cause, s.position⟩ s := by
  rw [expect, bind_eq, next_eq]
  cases s.current with
  | error cause => rfl
  | ok found =>
    by_cases same : found = kind
    · subst same
      simp only [refuse, ne_eq, not_true, if_true, if_false]
      rfl
    · simp only [refuse, ne_eq, same, not_false_eq_true, if_true, if_false]
      rfl

/-- A token of another kind is left where it is. -/
theorem eat_eq (kind : Kind) (s : State) :
    eat kind s = match s.current with
      | .ok found => if found = kind then .ok (some s.position) s.advanced else .ok none s
      | .error cause => .error ⟨cause, s.position⟩ s := by
  rw [eat, bind_eq, peek_eq]
  cases s.current with
  | error cause => rfl
  | ok found => by_cases same : found = kind <;> simp only [same, if_true, if_false] <;> rfl

/-- Two steps succeed if both do. -/
@[simp] theorem bind_ok_iff {m : Analysis α} {f : α → Analysis β} {b : β} :
    (m >>= f) s = .ok b t ↔ ∃ a u, m s = .ok a u ∧ f a u = .ok b t := by
  change EStateM.bind m f s = _ ↔ _
  unfold EStateM.bind
  cases m s with
  | ok a u => simp [and_assoc]
  | error fault u => simp

@[simp] theorem pure_ok_iff {a b : α} : (pure a : Analysis α) s = .ok b t ↔ a = b ∧ s = t := by
  change EStateM.Result.ok a s = _ ↔ _
  simp

@[simp] theorem map_ok_iff {m : Analysis α} {f : α → β} {b : β} :
    (f <$> m) s = .ok b t ↔ ∃ a, m s = .ok a t ∧ f a = b := by
  change EStateM.map f m s = _ ↔ _
  unfold EStateM.map
  cases m s with
  | ok a u => simp [and_comm]
  | error fault u => simp

@[simp] theorem get_ok_iff {u : State} : (get : Analysis State) s = .ok u t ↔ s = u ∧ s = t := by
  change EStateM.Result.ok s s = _ ↔ _
  simp

@[simp] theorem modify_ok_iff {f : State → State} {x : Unit} :
    (modify f : Analysis Unit) s = .ok x t ↔ f s = t := by
  change EStateM.Result.ok () (f s) = _ ↔ _
  simp

@[simp] theorem modifyGet_ok_iff {f : State → α × State} {a : α} :
    (modifyGet f : Analysis α) s = .ok a t ↔ f s = (a, t) := by
  change EStateM.Result.ok (f s).1 (f s).2 = _ ↔ _
  simp [Prod.ext_iff]

@[simp] theorem fail_ok_iff {cause : Cause} {site : Nat} {a : α} :
    (fail cause site : Analysis α) s = .ok a t ↔ False := by
  change EStateM.Result.error _ s = _ ↔ _
  simp

/-- A check succeeds if nothing bad holds, and changes nothing. -/
@[simp] theorem refuse_ok_iff {bad : Prop} [Decidable bad] {cause : Cause} {site : Nat} {x : Unit} :
    refuse bad cause site s = .ok x t ↔ ¬bad ∧ s = t := by
  unfold refuse
  split <;> simp [*]

@[simp] theorem orFail_ok_iff {checked : Except (Fault Nat) α} {a : α} :
    orFail checked s = .ok a t ↔ checked = .ok a ∧ s = t := by
  cases checked with
  | ok value => simp [orFail]
  | error fault =>
    change EStateM.Result.error fault s = _ ↔ _
    simp

/-- A level is entered if one is left. -/
@[simp] theorem enter_ok_iff {inner : Option α} {site : Nat} {a : α} :
    enter inner site s = .ok a t ↔ inner = some a ∧ s = t := by
  cases inner <;> simp [enter]

@[simp] theorem advance_ok_iff {x : Unit} : advance s = .ok x t ↔ s.advanced = t := by
  change EStateM.Result.ok () s.advanced = _ ↔ _
  simp

/-- A token is looked at, and stays. -/
@[simp] theorem peek_ok_iff {word : Word} :
    peek s = .ok word t ↔ s.current = .ok word.kind ∧ word.site = s.position ∧ s = t := by
  unfold peek State.current
  cases s.rest with
  | nil => cases word; simp [eq_comm, and_assoc]
  | cons reading rest => cases word; cases reading <;> simp [eq_comm, and_assoc]

/-- The next token is taken, whatever it is. -/
@[simp] theorem next_ok_iff {word : Word} :
    next s = .ok word t ↔ s.Takes word.kind t ∧ word.site = s.position := by
  simp only [next, bind_ok_iff, peek_ok_iff, advance_ok_iff, pure_ok_iff, State.Takes]
  grind

@[simp] theorem check_ok_iff {kind : Kind} {b : Bool} :
    check kind s = .ok b t ↔ (∃ found, s.current = .ok found ∧ b = (found == kind)) ∧ s = t := by
  simp only [check, bind_ok_iff, peek_ok_iff, pure_ok_iff]
  constructor
  · rintro ⟨word, u, ⟨current, _, rfl⟩, rfl, rfl⟩
    exact ⟨⟨word.kind, current, rfl⟩, rfl⟩
  · rintro ⟨⟨found, current, rfl⟩, rfl⟩
    exact ⟨⟨found, s.position⟩, s, ⟨current, rfl, rfl⟩, rfl, rfl⟩

/-- A token of the kind is taken. -/
@[simp] theorem expect_ok_iff {kind : Kind} {site : Nat} :
    expect kind s = .ok site t ↔ s.Takes kind t ∧ site = s.position := by
  simp only [expect, bind_ok_iff, next_ok_iff, refuse_ok_iff, pure_ok_iff]
  constructor
  · rintro ⟨word, u, ⟨takes, atSite⟩, _, v, ⟨same, rfl⟩, rfl, rfl⟩
    exact ⟨by simpa only [not_not.mp same] using takes, atSite⟩
  · rintro ⟨takes, rfl⟩
    exact ⟨⟨kind, s.position⟩, t, ⟨takes, rfl⟩, (), t, ⟨by simp, rfl⟩, rfl, rfl⟩

/-- A token that may be there is taken, or another one lies before the state. -/
theorem eat_ok_iff {kind : Kind} {site : Option Nat} :
    eat kind s = .ok site t ↔ (s.Takes kind t ∧ site = some s.position) ∨
      (site = none ∧ s = t ∧ ∃ found, s.current = .ok found ∧ found ≠ kind) := by
  simp only [eat, bind_ok_iff, peek_ok_iff, State.Takes]
  constructor
  · rintro ⟨word, u, ⟨current, atSite, rfl⟩, run⟩
    split at run
    · rename_i same
      simp only [bind_ok_iff, advance_ok_iff, pure_ok_iff] at run
      obtain ⟨_, _, rfl, rfl, rfl⟩ := run
      exact .inl ⟨⟨same ▸ current, rfl⟩, by rw [atSite]⟩
    · rename_i other
      obtain ⟨rfl, rfl⟩ := pure_ok_iff.mp run
      exact .inr ⟨rfl, rfl, word.kind, current, other⟩
  · rintro (⟨⟨current, rfl⟩, rfl⟩ | ⟨rfl, rfl, found, current, other⟩)
    · exact ⟨⟨kind, s.position⟩, s, ⟨current, rfl, rfl⟩, by simp⟩
    · exact ⟨⟨found, s.position⟩, s, ⟨current, rfl, rfl⟩, by simp [other]⟩

/-- A token of the kind is taken where it is wanted. -/
@[simp] theorem eat_some_iff {kind : Kind} {site : Nat} :
    eat kind s = .ok (some site) t ↔ s.Takes kind t ∧ site = s.position := by
  simp [eat_ok_iff]

/-- A token of another kind stays. -/
@[simp] theorem eat_none_iff {kind : Kind} :
    eat kind s = .ok none t ↔ s = t ∧ ∃ found, s.current = .ok found ∧ found ≠ kind := by
  simp [eat_ok_iff]

/-- An identifier is taken, and its name is told. -/
@[simp] theorem expectIdentifier_ok_iff {word : NameWord} :
    expectIdentifier s = .ok word t ↔
      s.Takes (.identifier word.name) t ∧ word.site = s.position := by
  simp only [expectIdentifier, bind_ok_iff, next_ok_iff]
  constructor
  · rintro ⟨⟨kind, site⟩, u, ⟨takes, atSite⟩, run⟩
    cases kind with
    | identifier name =>
      obtain ⟨rfl, rfl⟩ := pure_ok_iff.mp run
      exact ⟨takes, atSite⟩
    | _ => simp at run
  · rintro ⟨takes, atSite⟩
    exact ⟨⟨.identifier word.name, s.position⟩, t, ⟨takes, rfl⟩, by simp [← atSite]⟩

@[simp] theorem expectType_ok_iff {word : TypeWord} :
    expectType s = .ok word t ↔ s.Takes (.type word.ty) t ∧ word.site = s.position := by
  simp only [expectType, bind_ok_iff, next_ok_iff]
  constructor
  · rintro ⟨⟨kind, site⟩, u, ⟨takes, atSite⟩, run⟩
    cases kind with
    | type ty =>
      obtain ⟨rfl, rfl⟩ := pure_ok_iff.mp run
      exact ⟨takes, atSite⟩
    | _ => simp at run
  · rintro ⟨takes, atSite⟩
    exact ⟨⟨.type word.ty, s.position⟩, t, ⟨takes, rfl⟩, by simp [← atSite]⟩

/-- A type is taken, and it has values. -/
@[simp] theorem expectValueType_ok_iff {ty : Ty} :
    expectValueType s = .ok ty t ↔ s.Takes (.type ty) t ∧ ty ≠ .void := by
  simp only [expectValueType, bind_ok_iff, expectType_ok_iff, refuse_ok_iff, pure_ok_iff]
  constructor
  · rintro ⟨word, u, ⟨takes, _⟩, _, v, ⟨notVoid, rfl⟩, rfl, rfl⟩
    exact ⟨takes, notVoid⟩
  · rintro ⟨takes, notVoid⟩
    exact ⟨⟨ty, s.position⟩, t, ⟨takes, rfl⟩, (), t, ⟨notVoid, rfl⟩, rfl, rfl⟩

@[simp] theorem register_ok_iff {entry : Entry} {address : Nat} :
    register entry s = .ok address t ↔ s.register entry = (address, t) := by
  simp [register]

end Analysis

end C0
