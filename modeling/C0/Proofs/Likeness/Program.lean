import C0.Proofs.Likeness.Statement

namespace C0

open Analysis

namespace Likeness

variable {L : Likeness} {known : List Nat}

theorem param_alike (before : Signature) :
    L.Alike known (Sum.elim siteless siteless) (param before) (param before) := by
  refine (AlikeFrom.eat (by simp)).bind fun const => AlikeFrom.expectIdentifier.bind fun word =>
    (AlikeFrom.expect (by simp)).bind fun _ => AlikeFrom.expectValueType.bind fun ty =>
      AlikeFrom.bind (.orFail fun fault failed => ?_) fun signature =>
        (AlikeFrom.eat (by simp)).bind fun comma => ?_
  · unfold Signature.addParam at failed
    split at failed <;> cases failed
    exact ⟨rfl, by simp⟩
  · cases comma <;> exact .pure (by simp)

theorem params_alike (before : Signature) :
    L.Alike known siteless (params before) (params before) := by
  refine (AlikeFrom.expect (by simp)).bind fun opening => (AlikeFrom.check _).bind fun isEmpty => ?_
  have listed : L.Alike (siteless isEmpty ++ ([opening] ++ known)) siteless
      (if isEmpty then pure before else repeatUntil param before)
      (if isEmpty then pure before else repeatUntil param before) := by
    split
    · exact .pure (by simp)
    · exact .repeatUntil param_progresses param_progresses param_alike before (by simp)
  exact listed.bind fun _ => (AlikeFrom.expect (by simp)).bind fun _ => .pure (by simp)

theorem functionHead_alike : L.Alike known siteless functionHead functionHead :=
  (AlikeFrom.expect (by simp)).bind fun _ => AlikeFrom.expectIdentifier.bind fun _ =>
    .get_bind (fun _ _ => rfl) fun _ => .refuse_bind rfl (by simp) <|
      (register_alike _).bind fun _ => (params_alike _).bind fun _ =>
        (AlikeFrom.expect (by simp)).bind fun _ => AlikeFrom.expectType.bind fun _ =>
          .pure (by simp)

section

variable {limit limit' : Nat}

theorem function_alike
    (allowed : Inner ReadersPair L (readersBelow limit) (readersBelow limit')) :
    L.Alike known siteless (function limit) (function limit') := by
  refine functionHead_alike.bind fun signature =>
    AlikeFrom.bind (.ofQuiet ⟨fun _ => rfl, fun _ => rfl, fun _ _ => rfl⟩) fun _ =>
      (block_alike allowed).bind fun result => .get_bind (fun _ _ => rfl) fun s => ?_
  cases Definition.ofBody? signature s.frame result.1 with
  | none => exact .fail rfl (by simp)
  | some definition =>
    exact AlikeFrom.bind (.ofQuiet ⟨fun _ => rfl, fun _ => rfl, fun _ _ => rfl⟩) fun _ =>
      .ofQuiet ⟨fun _ => rfl, fun _ => rfl, fun _ _ => rfl⟩

theorem globalDeclaration_alike (pair : L.ExprPair (expression limit) (expression limit')) :
    L.Alike known siteless (globalDeclaration limit) (globalDeclaration limit') :=
  (declaration_alike pair).bind fun _ => .ofQuiet ⟨fun _ => rfl, fun _ => rfl, fun _ _ => rfl⟩

variable (pair : L.ExprPair (expression limit) (expression limit'))
  (allowed : Inner ReadersPair L (readersBelow limit) (readersBelow limit'))

include pair allowed

theorem itemOrEnd_alike (before : Unit) :
    L.Alike known (Sum.elim siteless siteless) (itemOrEnd limit before)
      (itemOrEnd limit' before) := by
  refine .peek_bind fun kind site => ?_
  have goesOn {m m' : Analysis Unit} (alike : L.Alike (site :: known) siteless m m') :
      L.Alike (site :: known) (Sum.elim siteless siteless) (Sum.inl (β := Unit) <$> m)
        (Sum.inl (β := Unit) <$> m') := by
    rw [map_eq_pure_bind, map_eq_pure_bind]
    exact alike.bind fun _ => .pure (by simp)
  cases kind with
  | keyword word =>
    cases word with
    | fnWord => exact (goesOn (function_alike allowed)).from _ _
    | letWord | constWord => exact (goesOn (globalDeclaration_alike pair)).from _ _
    | _ => exact .fail rfl (by simp)
  | eof => exact (AlikeFrom.pure (by simp)).from _ _
  | _ => exact .fail rfl (by simp)

theorem items_alike :
    L.Alike known siteless (repeatUntil (itemOrEnd limit) ()) (repeatUntil (itemOrEnd limit') ()) :=
  .repeatUntil (itemOrEnd_progresses limit) (itemOrEnd_progresses limit')
    (itemOrEnd_alike pair allowed) () (by simp)

end

/-- What two runs over a whole program come to: the same, or an early end of the first one. -/
inductive Outcomes {α : Type} (L : Likeness) : EStateM.Result (Fault Nat) State α →
    EStateM.Result (Fault Nat) State α → Prop
  | same {a t t'} : Outcomes L (.ok a t) (.ok a t')
  | fault {f t t'} : L.Common f → Outcomes L (.error f t) (.error f t')
  | early {f t result'} : L.Early f → (L.deep → Beyond (f.site + 1) result') →
      Outcomes L (.error f t) result'

/-- What lies before a run has no part in what it makes of the items behind it. -/
theorem finish_withRest (eof : Nat) (s : State) (rest : List Reading) :
    (∃ checked t t', finish eof s = .ok checked t ∧
        finish eof (s.withRest rest) = .ok checked t' ∧ t'.position = s.position) ∨
      ∃ t t', finish eof s = .error ⟨.notDeclared, eof⟩ t ∧
        finish eof (s.withRest rest) = .error ⟨.notDeclared, eof⟩ t' := by
  have same : (s.withRest rest).definitions = s.definitions := rfl
  simp only [finish, get_bind_eq, same]
  cases s.definitions.find? (·.signature.name == mainName) with
  | none => exact .inr ⟨_, _, rfl, rfl⟩
  | some main => exact .inl ⟨_, _, _, rfl, rfl, rfl⟩

theorem beyond_end {low : Nat} {s : State} (room : low ≤ s.position) :
    Beyond low ((expect .eof >>= finish) s) := by
  refine Beyond.bind ?_ fun eof t room => ?_
  · rw [expect_eq]
    cases s.current with
    | error cause => exact fun _ => room
    | ok found =>
      dsimp only
      split
      · exact Nat.le_succ_of_le room
      · exact beyond_fail rfl
  · rcases finish_withRest eof t t.rest with ⟨_, _, _, _, done, behind⟩ | ⟨_, _, _, failed⟩
    · have done' : finish eof t = _ := done
      rw [done']
      exact Nat.le_trans room (Nat.le_of_eq behind.symm)
    · have failed' : finish eof t = _ := failed
      rw [failed']
      exact fun deepest => by simp at deepest

theorem end_outcomes {s : State} {rest' : List Reading}
    (ahead : L.Ahead s.position s.rest rest') :
    L.Outcomes ((expect .eof >>= finish) s) ((expect .eof >>= finish) (s.withRest rest')) := by
  rw [bind_eq, expect_eq]
  rcases L.look ahead with ⟨cause, first, early, flat⟩ | ⟨here, same, late⟩
  · have current : s.current = .error cause := first
    rw [current]
    exact .early early fun deep => absurd deep flat
  · have current' : (s.withRest rest').current = s.current := same
    rw [bind_eq, expect_eq, current']
    cases current : s.current with
    | error cause =>
      obtain ⟨notEarly, shallow⟩ := late cause current
      exact .fault ⟨here, notEarly, fun deep deepest => absurd deepest (shallow deep)⟩
    | ok found =>
      by_cases ends : found = .eof
      · simp only [ends, if_true]
        rcases finish_withRest s.position s.advanced rest'.tail with
          ⟨checked, t, t', done, done', _⟩ | ⟨t, t', failed, failed'⟩
        · have done'' : finish s.position (s.withRest rest').advanced = .ok checked t' := done'
          rw [done]
          exact done'' ▸ .same
        · have failed'' : finish s.position (s.withRest rest').advanced = _ := failed'
          rw [failed]
          exact failed'' ▸ .fault (.plain here rfl)
      · simp only [ends, if_false]
        exact .fault (.plain here rfl)

/-- Two runs over a whole program. -/
theorem program_outcomes {limit limit' : Nat}
    (pair : L.ExprPair (expression limit) (expression limit'))
    (allowed : Inner ReadersPair L (readersBelow limit) (readersBelow limit')) {s : State}
    {rest' : List Reading} (ahead : L.Ahead s.position s.rest rest') :
    L.Outcomes (program limit s) (program limit' (s.withRest rest')) := by
  have items : L.Alike [] siteless _ _ := items_alike pair allowed
  have before := items.run (by simp) s rest' trivial ahead
  generalize ran : repeatUntil (itemOrEnd limit) () s = result at before
  generalize ran' : repeatUntil (itemOrEnd limit') () (s.withRest rest') = result' at before
  rw [program, bind_eq, ran]
  cases before with
  | same _ ahead =>
    rw [program, bind_eq, ran']
    exact end_outcomes ahead
  | fault common =>
    rw [program, bind_eq, ran']
    exact .fault common
  | early early beyond =>
    exact .early early fun deep =>
      Beyond.bind (ran' ▸ beyond deep) fun _ t room => beyond_end room

/-- Two runs with the same limit, of which neither ends for want of depth alone. -/
theorem program_outcomes_same (late : ∀ site, ¬ L.Early ⟨.nestingTooDeep, site⟩) (limit : Nat)
    {s : State} {rest' : List Reading} (ahead : L.Ahead s.position s.rest rest') :
    L.Outcomes (program limit s) (program limit (s.withRest rest')) :=
  program_outcomes (expression_pair late limit) (readersBelow_inner late limit) ahead

/-- Two runs of which the first one may have to end at the smaller limit. -/
theorem program_outcomes_of_lt (early : ∀ site, L.Early ⟨.nestingTooDeep, site⟩)
    {limit limit' : Nat} (less : limit < limit') {s : State} {rest' : List Reading}
    (ahead : L.Ahead s.position s.rest rest') :
    L.Outcomes (program limit s) (program limit' (s.withRest rest')) :=
  program_outcomes (expression_pair_of_lt early less) (readersBelow_inner_of_lt early less) ahead

end Likeness

end C0
