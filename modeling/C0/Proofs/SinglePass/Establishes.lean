import C0.Proofs.SinglePass.Routines

namespace C0

namespace SinglePass

variable {α β : Type} {pre pre' : Bench → Prop} {post mid : α → Bench → Prop}

/-- Where a step succeeds that starts with something, it ends with something. -/
def Establishes (pre : Bench → Prop) (step : SinglePass α) (post : α → Bench → Prop) : Prop :=
  ∀ b x b', pre b → step b = .ok x b' → post x b'

namespace Establishes

variable {step : SinglePass α} {rest : α → SinglePass β} {post' : β → Bench → Prop}

theorem bind (first : Establishes pre step mid) (later : ∀ x, Establishes (mid x) (rest x) post') :
    Establishes pre (step >>= rest) post' := by
  intro b y b'' starts done
  rw [bind_eq] at done
  cases ran : step b with
  | ok x b' =>
    rw [ran] at done
    exact later x b' y b'' (first b x b' starts ran) done
  | error stop b' =>
    rw [ran] at done
    cases done

theorem pure {x : α} (holds : ∀ b, pre b → post x b) : Establishes pre (pure x) post := by
  rintro b _ _ starts ⟨⟩
  exact holds b starts

/-- More may be asked for, and less be told. -/
theorem weaken (establishes : Establishes pre step post) (fewer : ∀ b, pre' b → pre b)
    {post' : α → Bench → Prop} (more : ∀ x b, post x b → post' x b) : Establishes pre' step post' :=
  fun b x b' starts done => more x b' (establishes b x b' (fewer b starts) done)

theorem fail {cause : Cause} {span : Span} : Establishes pre (fail cause span) post :=
  fun _ _ _ _ done => by cases done

theorem alarm {bad : Alarm} : Establishes pre (alarm bad) post :=
  fun _ _ _ _ done => by cases done

/-- After a check, what it refuses does not hold. -/
theorem refuse {bad : Prop} [Decidable bad] {cause : Cause} {span : Span} :
    Establishes pre (refuse bad cause span) fun _ b => ¬ bad ∧ pre b := by
  unfold SinglePass.refuse
  split
  · exact fail
  next fine => exact pure fun _ starts => ⟨fine, starts⟩

/-- Where a step is not refused, nothing has changed. -/
theorem refuse_bind {bad : Prop} [Decidable bad] {cause : Cause} {span : Span}
    {rest : Unit → SinglePass β} (later : Establishes pre (rest ()) post') :
    Establishes pre (SinglePass.refuse bad cause span >>= rest) post' :=
  refuse.bind fun _ => later.weaken (fun _ holds => holds.2) fun _ _ => id

/-- What was made so far is known, and unchanged. -/
theorem get : Establishes pre get fun found b => b = found ∧ pre b := by
  rintro b _ _ starts ⟨⟩
  exact ⟨rfl, starts⟩

/-- After a check that gives a value, the value is the checked one. -/
theorem orFail {checked : Except Diagnostic α} (holds : ∀ x b, checked = .ok x → pre b → post x b) :
    Establishes pre (orFail checked) post := by
  cases checked with
  | ok x => exact pure fun b => holds x b rfl
  | error fault => exact fun _ _ _ _ done => by cases done

/-- A change has to bring about what is told. -/
theorem modifyGet {change : Bench → α × Bench}
    (holds : ∀ b, pre b → post (change b).1 (change b).2) :
    Establishes pre (modifyGet change) post := by
  rintro b _ _ starts ⟨⟩
  exact holds b starts

theorem modify {change : Bench → Bench} (holds : ∀ b, pre b → pre' (change b)) :
    Establishes pre (modify change) fun _ => pre' := by
  rintro b _ _ starts ⟨⟩
  exact holds b starts

/-- A step on the desk alone. -/
theorem onDesk {change : Desk → Except Alarm (α × Desk)}
    (holds : ∀ b x desk, pre b → change b.desk = .ok (x, desk) → post x { b with desk }) :
    Establishes pre (onDesk change) post := by
  intro b x b' starts done
  unfold SinglePass.onDesk at done
  cases changed : change b.desk with
  | ok result =>
    rw [changed] at done
    cases done
    exact holds b _ _ starts changed
  | error alarm =>
    rw [changed] at done
    cases done

theorem before (establishes : Establishes pre step post) (fewer : ∀ b, pre' b → pre b) :
    Establishes pre' step post :=
  establishes.weaken fewer fun _ _ => id

theorem after (establishes : Establishes pre step post) {post' : α → Bench → Prop}
    (more : ∀ x b, post x b → post' x b) : Establishes pre step post' :=
  establishes.weaken (fun _ => id) more

/-- What every repetition keeps holds as long as a step is repeated. -/
theorem repeatUntil {step : α → SinglePass (α ⊕ β)} {again : α → Bench → Prop}
    {done : β → Bench → Prop} (steps : ∀ x, Establishes (again x) (step x) (Sum.elim again done))
    (x : α) : Establishes (again x) (repeatUntil step x) done := by
  have bounded (n : Nat) (x : α) : Establishes (again x) (repeatAtMost step n x) done := by
    induction n generalizing x with
    | zero => exact alarm
    | succ n ih =>
      refine (steps x).bind fun result => ?_
      cases result with
      | inl x => exact ih x
      | inr y => exact pure fun _ => id
  intro b y b' starts ran
  exact bounded _ x b y b' starts ran

end Establishes

section

variable {keeping : Keeping}

/-- What is kept of a number is the number, however it is kept. -/
theorem keep_keeps {number : Nat} :
    Establishes pre (keep keeping number) fun kept b => kept = number ∧ pre b := by
  unfold keep
  dsimp only
  split
  next same => exact .pure fun _ starts => ⟨same, starts⟩
  next => exact .alarm

theorem keepOffset_keeps {site target : Nat} :
    Establishes pre (keepOffset keeping site target) fun _ => pre := by
  unfold keepOffset
  dsimp only
  split
  · exact .pure fun _ => id
  · exact .alarm

theorem keepOffsets_keep {sites : List Nat} {target : Nat} :
    Establishes pre (sites.forM (keepOffset keeping · target)) fun _ => pre := by
  induction sites with
  | nil => exact .pure fun _ => id
  | cons site sites ih => exact keepOffset_keeps.bind fun _ => ih

theorem param?_keeps {signature : Signature} {name : String} :
    Establishes pre (param? keeping signature name) fun _ => pre := by
  unfold param?
  split
  · exact keep_keeps.bind fun _ => .pure fun _ holds => holds.2
  · exact .pure fun _ => id

theorem resolve_keeps {rank : Nat} {name : String} {span : Span} :
    Establishes pre (resolve keeping rank name span) fun _ => pre := by
  refine Establishes.get.bind fun found => Establishes.before ?_ fun _ holds => holds.2
  split
  · exact .pure fun _ => id
  · refine param?_keeps.bind fun place => ?_
    split
    · exact keep_keeps.bind fun _ => .pure fun _ holds => holds.2
    · split
      · exact .pure fun _ => id
      · exact .fail

theorem isTaken_keeps {rank : Nat} {name : String} :
    Establishes pre (isTaken keeping rank name) fun _ => pre := by
  refine Establishes.get.bind fun found => Establishes.before ?_ fun _ holds => holds.2
  split
  · exact .pure fun _ => id
  · exact param?_keeps.bind fun _ => .pure fun _ => id

end

theorem slice_keeps {span : Span} : Establishes pre (slice span) fun _ => pre := by
  refine Establishes.get.bind fun b => ?_
  split
  · exact .pure fun _ holds => holds.2
  · exact .alarm

theorem callee_keeps {name : String} {span : Span} :
    Establishes pre (callee name span) fun _ => pre := by
  refine Establishes.get.bind fun found => ?_
  split
  · exact .pure fun _ holds => holds.2
  · split
    · exact .pure fun _ holds => holds.2
    · exact .fail

theorem matchParams_keeps {arguments : List (Ty × Span)} {params : List Param}
    {span : Span} : Establishes pre (matchParams arguments params span) fun _ => pre := by
  refine .refuse_bind ?_
  split
  · exact .fail
  · exact .pure fun _ => id

end SinglePass

end C0
