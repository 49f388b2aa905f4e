import C0.Proofs.Reading.Steps
import C0.Proofs.SinglePass.Agreement

namespace C0

/-- A loop without a bound: it does its step until that gives a result or fails. The number counts
how often it starts over. -/
inductive Turns {ε σ α β : Type} (step : α → EStateM ε σ (α ⊕ β)) :
    Nat → α → σ → EStateM.Result ε σ β → Prop
  | ends {a s b t} : step a s = .ok (.inr b) t → Turns step 0 a s (.ok b t)
  | fails {a s e t} : step a s = .error e t → Turns step 0 a s (.error e t)
  | again {n a s a' t result} : step a s = .ok (.inl a') t → Turns step n a' t result →
      Turns step (n + 1) a s result

namespace Analysis

variable {α β : Type}

/-- A loop ends by itself. It starts over no more often than there are tokens unread, so its bound
is never reached. -/
def LoopEnds (step : α → Analysis (α ⊕ β)) : Prop :=
  ∀ a s, ∃ turns ≤ s.rest.length, Turns step turns a s (repeatUntil step a s)

/-- A loop whose step takes a token when it starts over does what it does without a bound. -/
theorem Progresses.loopEnds {step : α → Analysis (α ⊕ β)} (progress : Progresses step) :
    LoopEnds step := by
  have bounded (n : Nat) (a : α) (s : State) (enough : s.rest.length < n) :
      ∃ turns ≤ s.rest.length, Turns step turns a s (repeatAtMost step n a s) := by
    induction n generalizing a s with
    | zero => omega
    | succ n ih =>
      rw [repeatAtMost, bind_eq]
      cases run : step a s with
      | error fault t => exact ⟨0, Nat.zero_le _, .fails run⟩
      | ok result t =>
        cases result with
        | inr b => exact ⟨0, Nat.zero_le _, .ends run⟩
        | inl a' =>
          have fewer := progress a s a' t run
          obtain ⟨turns, few, rest⟩ := ih a' t (by omega)
          exact ⟨turns + 1, by omega, .again run rest⟩
  exact fun a s => bounded _ a s (Nat.lt_succ_self _)

/-- A loop takes a token if its step does. -/
theorem Shortens.repeatUntil {step : α → Analysis (α ⊕ β)} (steps : ∀ a, Shortens (step a))
    (a : α) : Shortens (repeatUntil step a) := by
  intro s b t run
  have walk := repeatUntil_iterates run
  clear run
  induction walk with
  | done last => exact steps _ _ _ _ last
  | next first _ ih =>
    obtain ⟨leads, shorter⟩ := steps _ _ _ _ first
    exact ⟨leads.trans ih.1, ih.2.trans shorter⟩

section

variable {inner : Option (Scope → Analysis Expr)} {scope : Scope}
  (nested : ∀ expression, inner = some expression → ∀ scope, Forward (expression scope))

include nested

theorem primary_shortens : Shortens (primary inner scope) := by
  intro s e t run
  obtain ⟨kind, u, more, takes, leads⟩ := primary_takes nested run
  exact ⟨primary_forward nested _ _ _ run,
    Nat.lt_of_le_of_lt leads.length_le (takes.length_lt more)⟩

theorem operand_shortens : Shortens (operand inner scope) :=
  (primary_shortens nested).bind fun _ => .repeatUntil cast_forward _

theorem operandAndOperator_shortens (before : Unfinished) :
    Shortens (operandAndOperator inner scope before) :=
  .after (.repeatUntil negation_forward _) fun operators =>
    (operand_shortens nested).bind fun value => settle_forward before operators value

end

theorem expression_shortens (limit : Nat) (scope : Scope) : Shortens (expression limit scope) := by
  rw [expression_eq]
  exact .repeatUntil (operandAndOperator_shortens (expressionBelow_forward limit)) _

end Analysis

/-- The tokens between two states, which are all taken from one to the other. None of them is the
end of the source. -/
structure State.Consumes (s : State) (kinds : List Kind) (t : State) : Prop where
  proper : .eof ∉ kinds
  rest : s.rest = kinds.map .ok ++ t.rest
  position : t.position = s.position + kinds.length

namespace State.Consumes

variable {s t u : State} {kinds kinds' : List Kind}

theorem refl (s : State) : s.Consumes [] s :=
  ⟨by simp, rfl, rfl⟩

theorem trans (first : s.Consumes kinds t) (second : t.Consumes kinds' u) :
    s.Consumes (kinds ++ kinds') u := by
  refine ⟨?_, ?_, ?_⟩
  · rw [List.mem_append, not_or]
    exact ⟨first.proper, second.proper⟩
  · rw [first.rest, second.rest, List.map_append, List.append_assoc]
  · rw [second.position, first.position, List.length_append, Nat.add_assoc]

theorem of_takes {kind : Kind} (takes : s.Takes kind t) (more : kind ≠ .eof) :
    s.Consumes [kind] t :=
  ⟨by simpa using more.symm, takes.rest more, takes.position⟩

/-- A step that takes no token. -/
theorem of_same (position : t.position = s.position) (rest : t.rest = s.rest) :
    s.Consumes [] t :=
  ⟨by simp, rest.symm, position⟩

theorem ne_nil (consumes : s.Consumes kinds t) (shorter : t.rest.length < s.rest.length) :
    kinds ≠ [] := by
  rintro rfl
  simp [consumes.rest] at shorter

end State.Consumes

theorem State.Step.consumes {s t : State} (step : s.Step t) : ∃ kinds, s.Consumes kinds t := by
  cases step with
  | take more takes => exact ⟨_, .of_takes takes more⟩
  | register => exact ⟨[], .of_same rfl rfl⟩
  | @mark v =>
    refine ⟨[], ?_⟩
    unfold State.initialized
    cases v.rank <;> exact .of_same rfl rfl

theorem State.StmtStep.consumes {s t : State} (steps : Relation.ReflTransGen State.StmtStep s t) :
    ∃ kinds, s.Consumes kinds t := by
  induction steps with
  | refl => exact ⟨[], .refl s⟩
  | tail _ step ih =>
    obtain ⟨kinds, before⟩ := ih
    cases step with
    | inside step =>
      obtain ⟨more, after⟩ := step.consumes
      exact ⟨_, before.trans after⟩
    | @allocate scope =>
      refine ⟨_, before.trans (.of_same ?_ ?_)⟩ <;> unfold State.allocate <;> split <;> rfl
    | declare => exact ⟨_, before.trans (.of_same rfl rfl)⟩
    | @publish symbol =>
      refine ⟨_, before.trans (.of_same ?_ ?_)⟩ <;> unfold State.published <;> split <;> rfl
    | close => exact ⟨_, before.trans (.of_same rfl rfl)⟩

/-- The loops that read with so many levels left end by themselves. -/
structure Analysis.Loops (limit : Nat) : Prop where
  operands : ∀ scope, LoopEnds (operandAndOperator (expressionBelow limit) scope)
  arguments : ∀ scope, LoopEnds (argument scope (expression limit))
  statements : ∀ scope, LoopEnds (statementOrEnd ⟨expression limit, nested limit⟩ scope)
  items : LoopEnds (itemOrEnd limit)

theorem Analysis.loops (limit : Nat) : Loops limit where
  operands _ :=
    (Layered.operandAndOperator_progresses (expressionBelow_forward limit)).loopEnds
  arguments scope := (argument_progresses (expression_forward limit scope)).loopEnds
  statements scope :=
    (statementOrEnd_progresses ⟨expression_forward limit, nested_shortens limit⟩ scope).loopEnds
  items := (itemOrEnd_progresses limit).loopEnds

/-- Compilation ends for every source. With the loops bounded by the tokens unread, a limit bounds
how many calls of the routines are active at once, whatever the source: a single pass that is
allowed no more comes to what the compilation comes to. No loop needs its bound: each one starts
over at most as often as there are tokens unread. An expression or a statement that is read takes at
least one token, none of them the end of the source. -/
theorem compile_terminates :
    (∀ (source : String) (limit active : Nat), 8 * (limit + 2) ≤ active →
      (passOver .exact active source ⟨limit⟩).1 = (compile source ⟨limit⟩).mapError .fault) ∧
    (∀ limit, Analysis.Loops limit) ∧
    (Analysis.LoopEnds Analysis.negation ∧ Analysis.LoopEnds Analysis.cast ∧
      Analysis.LoopEnds Analysis.param) ∧
    (∀ limit scope s value t, Analysis.expression limit scope s = .ok value t →
      ∃ kinds ≠ [], s.Consumes kinds t) ∧
    ∀ limit scope s stmt t,
      Analysis.statement ⟨Analysis.expression limit, Analysis.nested limit⟩ scope s = .ok stmt t →
      ∃ kinds ≠ [], s.Consumes kinds t := by
  refine ⟨fun source limit active enough => (passOver_eq_compile source ⟨limit⟩ enough).1,
    Analysis.loops, ⟨Analysis.negation_progresses.loopEnds, Analysis.cast_progresses.loopEnds,
      Analysis.param_progresses.loopEnds⟩, fun limit scope s value t run => ?_,
    fun limit scope s stmt t run => ?_⟩
  · obtain ⟨kinds, consumes⟩ :=
      State.StmtStep.consumes (Analysis.expression_reads run).stmtSteps
    have shorter := (Analysis.expression_shortens limit scope s value t run).2
    exact ⟨kinds, consumes.ne_nil shorter, consumes⟩
  · have reads : ReadsStmt scope s stmt t := Analysis.statement_reads
      (fun _ _ _ _ => Analysis.expression_reads) (fun _ _ _ _ _ => Analysis.nested_reads) run
    obtain ⟨kinds, consumes⟩ := State.StmtStep.consumes reads.steps
    have moves : Analysis.ReadersMove ⟨Analysis.expression limit, Analysis.nested limit⟩ :=
      ⟨Analysis.expression_forward limit, Analysis.nested_shortens limit⟩
    have shorter := (Analysis.statement_shortens moves scope s stmt t run).2
    exact ⟨kinds, consumes.ne_nil shorter, consumes⟩

end C0
