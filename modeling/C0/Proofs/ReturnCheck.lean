import C0.Proofs.Falling
import C0.Proofs.Likeness.Source
import C0.Proofs.Reading.Weight

namespace C0

open Analysis
open Relation (ReflTransGen)

/-- A function or a declaration is read from one state to the next. -/
def ItemStep (limit : Nat) (s t : State) : Prop :=
  itemOrEnd limit () s = .ok (.inl ()) t

/-- The items of a source before a function are read, then its head and its body up to the closing
brace. What becomes of the function is not told. -/
structure ReadsBody (source : String) (limit : Nat) (signature : Signature) (body : Stmt)
    (closing : Nat) (first last : State) : Prop where
  items : ReflTransGen (ItemStep limit) (.ofSource source) first
  body : ∃ s, functionHead first = .ok signature s ∧
    block (readersBelow limit) ⟨signature, 1, false⟩ s.withoutLocals = .ok (body, closing) last

section

variable {source : String} {limit : Nat} {s t : State}

theorem ItemStep.readsItems (steps : ReflTransGen (ItemStep limit) (.ofSource source) s) :
    ReadsItems (.ofSource source) s := by
  induction steps with
  | refl => exact .start
  | tail _ step ih => exact itemOrEnd_reads step ih

/-- A program goes on after an item as it would begin there. -/
theorem ItemStep.observe_program (step : ItemStep limit s t) :
    observe (program limit) s = observe (program limit) t := by
  simp only [program, observe_bind]
  rw [observe_repeatUntil (itemOrEnd_progresses limit), observe_ok_iff.mpr step]
  rfl

theorem ItemStep.observe_start (steps : ReflTransGen (ItemStep limit) s t) :
    observe (program limit) s = observe (program limit) t := by
  induction steps with
  | refl => rfl
  | tail _ step ih => exact ih.trans step.observe_program

theorem ItemStep.leadsTo (steps : ReflTransGen (ItemStep limit) s t) : s.LeadsTo t := by
  induction steps with
  | refl => exact .refl s
  | tail _ step ih => exact ih.trans (itemOrEnd_moves step).1

/-- What lies before an item is complete if it was so before the item before. -/
theorem ItemStep.ahead {low high : Nat} (step : ItemStep limit s t)
    (ahead : (Likeness.window low high False).Ahead s.position s.rest s.rest) :
    (Likeness.window low high False).Ahead t.position t.rest t.rest := by
  have late (site : Nat) : ¬ (Likeness.window low high False).Early ⟨.nestingTooDeep, site⟩ :=
    fun early => early.1
  have alike : (Likeness.window low high False).Alike [] _ (itemOrEnd limit ()) _ :=
    Likeness.itemOrEnd_alike (Likeness.expression_pair late limit)
      (Likeness.readersBelow_inner late limit) ()
  have results := alike.run (by simp) s s.rest trivial ahead
  rw [show itemOrEnd limit () s = _ from step] at results
  generalize itemOrEnd limit () (s.withRest s.rest) = result' at results
  cases results with
  | same _ ahead =>
    obtain ⟨after, total, complete, shallow, _⟩ := ahead
    exact ⟨after, total, complete, shallow, [], by simp⟩

theorem ItemStep.ahead_ofSource (steps : ReflTransGen (ItemStep limit) (.ofSource source) s) :
    (Likeness.window 0 (tokenCount source + 1) False).Ahead s.position s.rest s.rest := by
  induction steps with
  | refl =>
    have start := Likeness.window_ofSource source False []
    rwa [List.append_nil] at start
  | tail _ step ih => exact step.ahead ih

end

namespace ReadsBody

variable {source : String} {limit closing : Nat} {signature : Signature} {body : Stmt}
  {first last : State}

/-- The steps that lead to the closing brace, and what lies around it. -/
theorem steps (reads : ReadsBody source limit signature body closing first last) :
    ∃ s t u, ReadsHead first signature s ∧ s.withoutLocals.Takes (.mark .openBrace) t ∧
      ReadsStmt ⟨signature, 1, false⟩ t body u ∧ u.current = .ok (.mark .closeBrace) ∧
      u.position = closing ∧ last = u.advanced.closed 1 := by
  obtain ⟨s, head, inside⟩ := reads.body
  obtain ⟨t, u, v, opening, stmt, ⟨current, rfl⟩, site, same⟩ := body_reads inside
  exact ⟨s, t, u, functionHead_reads head, opening, stmt, current, site.symm, same⟩

theorem alone (reads : ReadsBody source limit signature body closing first last) (jump : Jump) :
    body.sites jump 0 = [] := by
  obtain ⟨_, _, _, _, _, stmt, _⟩ := reads.steps
  exact stmt.no_sites rfl jump 0

/-- A body has at most two instructions for each byte of the source, and room for one more. -/
theorem short (reads : ReadsBody source limit signature body closing first last)
    (small : source.utf8ByteSize < 2 ^ 30) : body.size + 1 < 2 ^ 31 := by
  obtain ⟨s, t, u, head, opening, stmt, _⟩ := reads.steps
  have items := (ItemStep.readsItems reads.items).budget_le
  have start := State.budget_ofSource source
  have ofHead := head.spends
  have same : s.withoutLocals.ahead = s.ahead := rfl
  have one := opening.spends (by simp)
  have ofBody := stmt.spends
  have within : first.ahead ≤ first.budget := Nat.le_add_left _ _
  omega

theorem leadsTo_closing (reads : ReadsBody source limit signature body closing first last) :
    ∃ u, (State.ofSource source).LeadsTo u ∧ u.current = .ok (.mark .closeBrace) ∧
      u.position = closing := by
  obtain ⟨s, t, u, head, opening, stmt, current, site, _⟩ := reads.steps
  have toHead := State.StmtStep.leadsTo (State.Step.stmtSteps head.steps)
  have toBody : s.LeadsTo s.withoutLocals := ⟨0, rfl, rfl⟩
  have toClosing := State.StmtStep.leadsTo (opening.stmtSteps (by simp) stmt.steps)
  exact ⟨u, (ItemStep.leadsTo reads.items).trans (toHead.trans (toBody.trans toClosing)), current,
    site⟩

/-- The body ends at a closing brace of the source. -/
theorem closing_reading (reads : ReadsBody source limit signature body closing first last) :
    closing < tokenCount source + 1 ∧
      (scanResult source closing).reading = .ok (.mark .closeBrace) := by
  obtain ⟨u, ⟨count, position, rest⟩, current, site⟩ := reads.leadsTo_closing
  have start : (State.ofSource source).position = 0 ∧
      (State.ofSource source).rest = (lexemes source).map Lexeme.reading := ⟨rfl, rfl⟩
  rw [start.1, Nat.zero_add] at position
  rw [State.current, rest, start.2, List.head?_drop, (lexemes_eq_scanResult source).1,
    List.map_map, ← position, site] at current
  by_cases inside : closing < tokenCount source + 1
  · rw [List.getElem?_map, List.getElem?_range inside] at current
    exact ⟨inside, current⟩
  · rw [List.getElem?_eq_none (by simpa using inside)] at current
    simp at current

theorem function_eq (reads : ReadsBody source limit signature body closing first last) :
    function limit first = match Definition.ofBody? signature last.frame body with
      | some definition => .ok () (last.defined definition)
      | none => .error ⟨.notAllRoutesReturn, closing⟩ last := by
  obtain ⟨s, head, inside⟩ := reads.body
  have afterHead : function limit first =
      (block (readersBelow limit) ⟨signature, 1, false⟩ >>= fun result => do
        match Definition.ofBody? signature (← get).frame result.1 with
        | some definition =>
          report (.compiled definition.routine)
          addDefinition definition
        | none => fail .notAllRoutesReturn result.2) s.withoutLocals := by
    rw [function, bind_eq, head]
    rfl
  rw [afterHead, bind_eq, inside]
  change (match Definition.ofBody? signature last.frame body with
    | some definition => (report (.compiled definition.routine) >>= fun _ =>
        addDefinition definition : Analysis Unit)
    | none => fail .notAllRoutesReturn closing) last = _
  cases Definition.ofBody? signature last.frame body <;> rfl

theorem itemOrEnd_eq (reads : ReadsBody source limit signature body closing first last) :
    itemOrEnd limit () first = (Sum.inl <$> function limit) first := by
  obtain ⟨s, _, _, head, _⟩ := reads.steps
  have begins : first.current = .ok (.keyword .fnWord) := by
    cases head with
    | bare word | params word => exact word.1
  rw [itemOrEnd, bind_eq, peek_eq, begins]

/-- The function is accepted as its layout tells. -/
theorem ofBody?_eq (reads : ReadsBody source limit signature body closing first last)
    (small : source.utf8ByteSize < 2 ^ 30) :
    Routine.ofBody? signature last.frame body =
      if body.falls = true then
        if signature.returnType = .void then
          some ((Routine.laid signature last.frame body).push (.plain .ret))
        else none
      else some (Routine.laid signature last.frame body) :=
  Routine.ofBody?_eq signature last.frame reads.alone (by have := reads.short small; omega)

/-- A body that falls without a value ends the compilation at its closing brace. -/
theorem compile_of_none {options : Options}
    (reads : ReadsBody source options.maxNestingDepth signature body closing first last)
    (refused : Definition.ofBody? signature last.frame body = none) :
    compile source options = .error ⟨.notAllRoutesReturn, (scanResult source closing).span⟩ := by
  have item : itemOrEnd options.maxNestingDepth () first =
      .error ⟨.notAllRoutesReturn, closing⟩ last := by
    rw [reads.itemOrEnd_eq]
    change EStateM.map _ _ first = _
    rw [EStateM.map, reads.function_eq, refused]
  have observed : observe (program options.maxNestingDepth) (.ofSource source) =
      .error ⟨.notAllRoutesReturn, closing⟩ := by
    rw [ItemStep.observe_start reads.items]
    simp only [program, observe_bind]
    rw [observe_repeatUntil (itemOrEnd_progresses _), observe_error_iff.mpr ⟨last, item⟩]
    rfl
  obtain ⟨t, failed⟩ := observe_error_iff.mp observed
  exact compile_eq_of_error failed (Nat.le_of_lt_succ reads.closing_reading.1)

/-- After a function that is accepted, no fault lies at its closing brace. -/
theorem compile_ne_of_some {options : Options} {definition : Definition} {cause : Cause}
    (reads : ReadsBody source options.maxNestingDepth signature body closing first last)
    (made : Definition.ofBody? signature last.frame body = some definition) :
    compile source options ≠ .error ⟨cause, (scanResult source closing).span⟩ := by
  have step : ItemStep options.maxNestingDepth first (last.defined definition) := by
    have ran : function options.maxNestingDepth first = .ok () (last.defined definition) := by
      rw [reads.function_eq, made]
    rw [ItemStep, reads.itemOrEnd_eq]
    exact map_ok_iff.mpr ⟨(), ran, rfl⟩
  have reached := reads.items.tail step
  have position : (last.defined definition).position = closing + 1 := by
    obtain ⟨_, _, u, _, _, _, _, site, rfl⟩ := reads.steps
    rw [← site]
    rfl
  obtain ⟨_, total, complete, shallow, more, same⟩ := ItemStep.ahead_ofSource reached
  have outcomes := Likeness.program_outcomes_same
    (L := .window (closing + 1) (tokenCount source + 1) False) (fun _ early => early.1)
    options.maxNestingDepth (s := last.defined definition)
    ⟨Nat.le_of_eq position.symm, total, complete, shallow, more, same⟩
  have observed := ItemStep.observe_start reached
  intro blamed
  rw [compile, analyze_eq] at blamed
  cases ran : program options.maxNestingDepth (.ofSource source) with
  | ok checked t =>
    rw [ran] at blamed
    simp [Except.map] at blamed
  | error fault t =>
    rw [observe_error_iff.mpr ⟨t, ran⟩] at observed
    obtain ⟨t', ran'⟩ := observe_error_iff.mp observed.symm
    have site : closing + 1 ≤ fault.site ∧ fault.site < tokenCount source + 1 := by
      rw [ran'] at outcomes
      generalize program _ (State.withRest _ _) = result' at outcomes
      cases outcomes with
      | fault common => exact common.site
      | early early => exact absurd early.1 id
    have apart : (scanResult source closing).span.start <
        (scanResult source fault.site).span.start :=
      Scanner.results_lt (by omega) fun k less => (lexemes_eq_scanResult source).2.2 k (by omega)
    rw [ran] at blamed
    have spans : spanAt (lexemes source) fault.site = (scanResult source closing).span :=
      congrArg Fault.site (Except.error.inj blamed)
    rw [spanAt_lexemes (by omega)] at spans
    have starts := congrArg Span.start spans
    omega

end ReadsBody

theorem Definition.routine_eq_of_ofBody? {signature : Signature} {frame : Frame} {body : Stmt}
    {definition : Definition} (made : Definition.ofBody? signature frame body = some definition) :
    Routine.ofBody? signature frame body = some definition.routine := by
  obtain ⟨rfl, rfl, rfl⟩ := ofBody?_eq_some made
  exact definition.laidOut

theorem Definition.ofBody?_eq_none {signature : Signature} {frame : Frame} {body : Stmt} :
    Definition.ofBody? signature frame body = none ↔
      Routine.ofBody? signature frame body = none := by
  unfold Definition.ofBody?
  split <;> simp [*]

/-- All routes through a function of an accepted source return. -/
theorem analyze_allRoutesReturn {source : String} {options : Options} {checked : CheckedProgram}
    {definition : Definition} (small : source.utf8ByteSize < 2 ^ 30)
    (accepted : analyze source options = .ok checked) (member : definition ∈ checked.definitions) :
    definition.routine.allRoutesReturn = true := by
  obtain ⟨s, t, items, reads⟩ := analyze_definition accepted member
  have start := State.budget_ofSource source
  have within := items.budget_le
  have more : s.ahead ≤ s.budget := Nat.le_add_left _ _
  cases reads with
  | @function t u v w head opening body closing frame =>
    have ofHead := head.spends
    have same : t.withoutLocals.ahead = t.ahead := rfl
    have one := opening.spends (by simp)
    have ofBody := body.spends
    exact Routine.allRoutesReturn_ofBody? _ _ (fun jump => body.no_sites rfl jump 0)
      definition.laidOut (by omega)

/-- The check of returns follows the form of a body. A function with a value is refused at its
closing brace if and only if its body falls, and one without gets a return at its end if and only if
its body falls. All routes through the functions of a compiled program, which come before its entry,
return. -/
theorem compile_return_check (source : String) (options : Options)
    (small : source.utf8ByteSize < 2 ^ 30) :
    (∀ signature body closing first last,
      ReadsBody source options.maxNestingDepth signature body closing first last →
      (scanResult source closing).reading = .ok (.mark .closeBrace) ∧
      (signature.returnType ≠ .void →
        (compile source options =
          .error ⟨.notAllRoutesReturn, (scanResult source closing).span⟩ ↔ body.falls = true)) ∧
      (signature.returnType = .void → ∃ definition,
        function options.maxNestingDepth first = .ok () (last.defined definition) ∧
        definition.signature = signature ∧ definition.body = body ∧
        definition.routine =
          if body.falls = true then (Routine.laid signature last.frame body).push (.plain .ret)
          else Routine.laid signature last.frame body) ∧
      (Routine.laid signature last.frame body).allRoutesReturn = !body.falls ∧
      ((Routine.laid signature last.frame body).allRoutesReturn = true →
        (Routine.laid signature last.frame body).returned = true)) ∧
    ∀ program, compile source options = .ok program →
      ∀ routine ∈ program.routines.dropLast, routine.allRoutesReturn = true := by
  constructor
  · intro signature body closing first last reads
    have short : body.size < 2 ^ 31 := Nat.lt_of_succ_lt (reads.short small)
    have laidOut := reads.ofBody?_eq small
    refine ⟨reads.closing_reading.2, fun valued => ?_, fun void => ?_,
      Routine.allRoutesReturn_laid _ _ reads.alone short,
      Routine.returned_of_allRoutesReturn_laid _ _ reads.alone short⟩
    -- A function with a value is refused just where it has no routine.
    · rw [if_neg valued] at laidOut
      constructor
      · intro refused
        by_contra stays
        rw [if_neg stays] at laidOut
        cases made : Definition.ofBody? signature last.frame body with
        | none => simp [Definition.ofBody?_eq_none.mp made] at laidOut
        | some definition => exact reads.compile_ne_of_some made refused
      · intro falls
        rw [if_pos falls] at laidOut
        exact reads.compile_of_none (Definition.ofBody?_eq_none.mpr laidOut)
    -- A function without one has a routine in any case.
    · rw [if_pos void] at laidOut
      cases made : Definition.ofBody? signature last.frame body with
      | none =>
        rw [Definition.ofBody?_eq_none.mp made] at laidOut
        split at laidOut <;> simp at laidOut
      | some definition =>
        obtain ⟨sameSignature, _, sameBody⟩ := ofBody?_eq_some made
        refine ⟨definition, by rw [reads.function_eq, made], sameSignature, sameBody, ?_⟩
        rw [Definition.routine_eq_of_ofBody? made, ← apply_ite some] at laidOut
        exact Option.some.inj laidOut
  · intro program compiled routine member
    obtain ⟨checked, accepted, rfl⟩ := exists_checked_of_compile compiled
    rw [CheckedProgram.program, List.dropLast_concat, List.mem_map] at member
    obtain ⟨definition, inside, rfl⟩ := member
    exact analyze_allRoutesReturn small accepted inside

/-- A loop that always returns falls, so the function around it is refused. -/
theorem compile_return_check_loop :
    let source := "fn f() -> int \x7b while 1 \x7b return 1; \x7d \x7d"
    source.utf8ByteSize < 2 ^ 30 ∧ ∃ signature body last,
      ReadsBody source 256 signature body 14 (.ofSource source) last ∧
      signature.returnType ≠ .void ∧ body.falls = true ∧
      compile source {} = .error ⟨.notAllRoutesReturn, (scanResult source 14).span⟩ := by
  intro source
  have small : source.utf8ByteSize < 2 ^ 30 := by decide +kernel
  have computed : (match functionHead (.ofSource source) with
      | .ok signature s =>
        match block (readersBelow 256) ⟨signature, 1, false⟩ s.withoutLocals with
        | .ok (body, closing) _ => signature.returnType == .int && body.falls && closing == 14
        | .error _ _ => false
      | .error _ _ => false) = true := by decide +kernel
  cases head : functionHead (.ofSource source) with
  | error fault s => simp [head] at computed
  | ok signature s =>
    cases inside : block (readersBelow 256) ⟨signature, 1, false⟩ s.withoutLocals with
    | error fault last => simp [head, inside] at computed
    | ok result last =>
      simp only [head, inside, Bool.and_eq_true, beq_iff_eq] at computed
      obtain ⟨⟨typed, falls⟩, site⟩ := computed
      have valued : signature.returnType ≠ .void := by simp [typed]
      have reads : ReadsBody source 256 signature result.1 14 (.ofSource source) last :=
        ⟨.refl, s, head, by rw [inside, ← site]⟩
      exact ⟨small, signature, result.1, last, reads, valued, falls,
        (((compile_return_check source {} small).1 _ _ _ _ _ reads).2.1 valued).mpr falls⟩

end C0
