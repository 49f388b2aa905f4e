import C0.Proofs.Reading.Steps
import C0.Proofs.Routes
import C0.Proofs.Simulation

namespace C0

/-- What a function executes by the structure of its body. A body without value that is run to its
end returns there. -/
inductive Definition.Executes (definition : Definition) (tests : List Bool) :
    List Instruction → Ending → Prop
  | stop {trace ending} : definition.body.Executes tests trace (.stop ending) →
      Executes definition tests trace ending
  | through {trace rest} : definition.body.Executes tests trace (.onward rest) →
      definition.signature.returnType = .void →
      Executes definition tests (trace ++ [.plain .ret]) .returned

/-- Outside loops there is no jump that has no loop. -/
theorem ReadsStmt.no_sites {scope : Scope} {s t : State} {stmt : Stmt}
    (reads : ReadsStmt scope s stmt t) (outside : scope.inLoop = false) (jump : Jump) (base : Nat) :
    stmt.sites jump base = [] := by
  induction reads generalizing base with
  | seq _ _ ihFirst ihRest => simp [Stmt.sites, ihFirst outside, ihRest outside]
  | block _ _ _ ih => exact ih outside base
  | conditional _ _ _ _ _ _ ih =>
    have inYes := ih outside
    simp only [Stmt.sites] at inYes ⊢
    simp [inYes]
  | alternative _ _ _ _ _ _ ihYes ihNo =>
    have inYes := ihYes outside
    simp only [Stmt.sites] at inYes ⊢
    simp [inYes, ihNo outside]
  | leave inside | again inside => simp [outside] at inside
  | _ => rfl

theorem Stmt.Executes.ending {stmt : Stmt} {tests : List Bool} {trace : List Instruction}
    {ending : Ending} (run : stmt.Executes tests trace (.stop ending)) :
    ending = .returned ∨ ending = .waiting := by
  generalize same : Exit.stop ending = exit at run
  induction run with
  | choiceWaits | loopWaits => exact .inr (Exit.stop.inj same)
  | giveBack => exact .inl (Exit.stop.inj same)
  | seq _ _ _ ih | round _ _ _ _ ih => exact ih same
  | cut _ _ ih | block _ ih | yes _ ih | no _ ih | stopped _ ih => exact ih same
  | _ => simp at same

namespace Definition

variable {definition : Definition} {tests rest : List Bool} {trace : List Instruction}
  {ending : Ending} {exit : Exit}

/-- The code of a function begins with that of its body. -/
theorem holds_body (definition : Definition) :
    definition.body.size ≤ definition.routine.code.toList.length ∧
      Holds definition.routine.code.toList 0
        (definition.body.assembled (fun _ _ => openBranch) 0) := by
  rcases Routine.ofBody?_code definition.laidOut with ⟨_, code⟩ | ⟨_, code⟩
  · rw [code, Stmt.assembled_length]
    exact ⟨Nat.le_refl _, holds_self _⟩
  · rw [code, List.length_append, Stmt.assembled_length]
    exact ⟨Nat.le_add_right _ _, (holds_append.mp (holds_self _)).1⟩

theorem reaches_body (run : definition.body.Executes tests trace exit)
    (short : definition.routine.code.size < 2 ^ 31) :
    Reaches definition.routine.code.toList (fun _ _ => openBranch) (definition.body.sites · 0)
      definition.body.size (.on 0 tests) trace exit := by
  obtain ⟨room, holds⟩ := definition.holds_body
  rw [← Nat.zero_add definition.body.size] at room ⊢
  exact run.reaches (by simpa using short) _ 0 holds room

/-- A body that is run to its end belongs to a function without value, and a return follows it:
no route through the code may lead past its end. -/
theorem runs_through (run : definition.body.Executes tests trace (.onward rest))
    (short : definition.routine.code.size < 2 ^ 31) :
    definition.signature.returnType = .void ∧
      Runs definition.routine.code.toList (.on 0 tests) (trace ++ [.plain .ret]) .returned := by
  have path : Leads definition.routine.code.toList (.on 0 tests) trace
      (.on definition.body.size rest) := reaches_body run short
  rcases Routine.ofBody?_code definition.laidOut with ⟨returns, code⟩ | ⟨void, code⟩
  · obtain ⟨inside, closed, start⟩ := Routine.allRoutesReturn_closed returns
    obtain ⟨instruction, here, _⟩ := closed _ (path.inside closed start)
    have past : definition.routine.code.toList[definition.body.size]? = none := by
      rw [code, List.getElem?_eq_none_iff, Stmt.assembled_length]
    have here' : definition.routine.code.toList[definition.body.size]? = some instruction := here
    simp [past] at here'
  · refine ⟨void, path.runs (.last (move_ret ?_))⟩
    rw [code, List.getElem?_append_right (by simp)]
    simp

theorem Executes.runs (run : definition.Executes tests trace ending)
    (short : definition.routine.code.size < 2 ^ 31) :
    Runs definition.routine.code.toList (.on 0 tests) trace ending := by
  cases run with
  | stop run => exact reaches_body run short
  | through run _ => exact (runs_through run short).2

/-- A function that was read executes something by its structure, and ends. -/
theorem executes_total {s t : State} (reads : ReadsFunction definition s t)
    (short : definition.routine.code.size < 2 ^ 31) (tests : List Bool) :
    ∃ trace ending, definition.Executes tests trace ending := by
  obtain ⟨trace, exit, run, _⟩ := definition.body.executes_total tests
  cases exit with
  | onward rest => exact ⟨_, _, .through run (runs_through run short).1⟩
  | jump jump rest =>
    cases reads with
    | function _ _ body =>
      obtain ⟨site, member, _⟩ := reaches_body run short
      simp [body.no_sites rfl] at member
  | stop ending => exact ⟨_, _, .stop run⟩

/-- The body of a function is what its tokens read as. The compiled code of the function executes
what its body does by its structure, and ends in the same way, for all outcomes of the tests. -/
theorem runs_iff_executes {source : String} {options : Options} {checked : CheckedProgram}
    (accepted : analyze source options = .ok checked) (member : definition ∈ checked.definitions)
    (short : definition.routine.code.size < 2 ^ 31) (tests : List Bool) :
    (∃ s t, ReadsItems (.ofSource source) s ∧ ReadsFunction definition s t) ∧
      (∃! outcome : List Instruction × Ending, definition.Executes tests outcome.1 outcome.2) ∧
      ∀ trace ending,
        (Runs definition.routine.code.toList (.on 0 tests) trace ending ↔
          definition.Executes tests trace ending) ∧
        (definition.Executes tests trace ending → ending = .returned ∨ ending = .waiting) := by
  obtain ⟨s, t, before, reads⟩ := analyze_definition accepted member
  obtain ⟨first, last, run⟩ := executes_total reads short tests
  refine ⟨⟨s, t, before, reads⟩, ⟨(first, last), run, ?_⟩, fun trace ending =>
    ⟨⟨fun run' => ?_, fun run' => run'.runs short⟩, fun run' => ?_⟩⟩
  · rintro ⟨trace, ending⟩ run'
    obtain ⟨rfl, rfl⟩ := (run'.runs short).unique (run.runs short)
    rfl
  · obtain ⟨rfl, rfl⟩ := run'.unique (run.runs short)
    exact run
  · cases run' with
    | stop run' => exact run'.ending
    | through => exact .inl rfl

/-- A loop that is continued by one jump in it and left by the other. -/
theorem runs_iff_executes_jumps : ∃ checked : CheckedProgram, ∃ definition ∈ checked.definitions,
    analyze ("fn main() -> void \x7b let i: int = 0; while i < 9 \x7b i = i + 1; " ++
      "if i == 3 \x7b continue; \x7d else if i == 5 \x7b break; \x7d \x7d \x7d") {} = .ok checked ∧
    definition.routine.code.size = 37 ∧
    (∃ s t, ReadsItems (.ofSource
        ("fn main() -> void \x7b let i: int = 0; while i < 9 \x7b i = i + 1; " ++
          "if i == 3 \x7b continue; \x7d else if i == 5 \x7b break; \x7d \x7d \x7d")) s ∧
      ReadsFunction definition s t) ∧
    (∃! outcome : List Instruction × Ending,
      definition.Executes [true, true, true, false, true] outcome.1 outcome.2) ∧
    ∀ trace ending,
      (Runs definition.routine.code.toList (.on 0 [true, true, true, false, true]) trace ending ↔
        definition.Executes [true, true, true, false, true] trace ending) ∧
      (definition.Executes [true, true, true, false, true] trace ending →
        ending = .returned ∨ ending = .waiting) := by
  generalize text : "fn main() -> void \x7b let i: int = 0; while i < 9 \x7b i = i + 1; " ++
      "if i == 3 \x7b continue; \x7d else if i == 5 \x7b break; \x7d \x7d \x7d" = source
  have sized : (match analyze source {} with
      | .ok checked => checked.definitions.any (·.routine.code.size == 37)
      | .error _ => false) = true := by
    subst text
    decide +kernel
  cases accepted : analyze source {} with
  | error fault => simp [accepted] at sized
  | ok checked =>
    simp only [accepted, List.any_eq_true, beq_iff_eq] at sized
    obtain ⟨definition, member, size⟩ := sized
    exact ⟨checked, definition, member, rfl, size,
      runs_iff_executes accepted member (by omega) [true, true, true, false, true]⟩

end Definition

end C0
