import C0.Proofs.Reading.Program
import Mathlib.Logic.Relation

namespace C0

open Relation (ReflTransGen)

/-- The single things that happen to a state while an expression is read. -/
inductive State.Step : State → State → Prop
  | take {s t kind} : kind ≠ .eof → s.Takes kind t → Step s t
  | register {s entry} : Step s (s.registered entry)
  | mark {s v} : Step s (s.initialized v)

/-- The single things that happen to a state while a statement is read. -/
inductive State.StmtStep : State → State → Prop
  | inside {s t} : s.Step t → StmtStep s t
  | allocate {s scope} : StmtStep s (s.allocate scope).2
  | declare {s symbol} : StmtStep s (s.declared symbol)
  | publish {s symbol} : StmtStep s (s.published symbol)
  | close {s rank} : StmtStep s (s.closed rank)

namespace State

variable {s t u : State}

theorem Takes.steps {kind : Kind} (takes : s.Takes kind t) (more : kind ≠ .eof)
    (rest : ReflTransGen Step t u) : ReflTransGen Step s u :=
  .head (.take more takes) rest

/-- What happens while an expression is read happens while a statement is. -/
theorem Step.stmtSteps (steps : ReflTransGen Step s t) : ReflTransGen StmtStep s t :=
  ReflTransGen.mono (fun _ _ => State.StmtStep.inside) _ _ steps

theorem steps_of_register {entry : Entry} {address : Nat} (same : s.register entry = (address, t))
    (rest : ReflTransGen Step t u) : ReflTransGen Step s u := by
  have step : s.Step (s.registered entry) := .register
  rw [State.registered, same] at step
  exact .head step rest

end State

theorem Reads.steps {scope : Scope} {s t : State} {phrase : Phrase}
    (reads : Reads scope s phrase t) : ReflTransGen State.Step s t := by
  induction reads with
  | int takes | double takes | char takes | load takes => exact takes.steps (by simp) .refl
  | assign takes _ _ sign _ _ ih =>
    exact takes.steps (by simp) (sign.steps (by simp) (ih.tail .mark))
  | call takes _ _ opening _ closing _ ih =>
    exact takes.steps (by simp) (opening.steps (by simp) (ih.tail (.take (by simp) closing)))
  | libraryNothing takes _ known opening _ closing =>
    exact takes.steps (by simp) (State.steps_of_register known
      (opening.steps (by simp) (closing.steps (by simp) .refl)))
  | libraryValue takes _ known opening _ _ closing ih =>
    exact takes.steps (by simp) (State.steps_of_register known
      (opening.steps (by simp) (ih.tail (.take (by simp) closing))))
  | libraryText takes _ known opening _ literal placed closing =>
    exact takes.steps (by simp) (State.steps_of_register known
      (opening.steps (by simp) (literal.steps (by simp) (State.steps_of_register placed
        (closing.steps (by simp) .refl)))))
  | group opening _ closing ih => exact opening.steps (by simp) (ih.tail (.take (by simp) closing))
  | cast _ word typed _ _ ih =>
    exact (ih.tail (.take (by simp) word)).tail (.take (by simp) typed)
  | negate sign _ _ ih => exact sign.steps (by simp) ih
  | @binary _ _ _ _ kind op _ _ _ sign known _ _ _ ihLeft ihRight =>
    have more : kind ≠ .eof := by
      rintro rfl
      simp [Operator.binary?] at known
    exact ihLeft.trans (sign.steps more ihRight)
  | noArguments => exact .refl
  | lastArgument _ ih => exact ih
  | nextArgument _ comma _ _ ih ihRest => exact ih.trans (comma.steps (by simp) ihRest)

theorem Reads.stmtSteps {scope : Scope} {s t : State} {phrase : Phrase}
    (reads : Reads scope s phrase t) : ReflTransGen State.StmtStep s t :=
  State.Step.stmtSteps reads.steps

namespace State

variable {s t u : State}

theorem Takes.stmtSteps {kind : Kind} (takes : s.Takes kind t) (more : kind ≠ .eof)
    (rest : ReflTransGen StmtStep t u) : ReflTransGen StmtStep s u :=
  .head (.inside (.take more takes)) rest

end State

theorem Declares.steps {scope : Scope} {symbol : Symbol} {s t : State}
    (declares : Declares scope symbol s t) : ReflTransGen State.StmtStep s t := by
  cases declares with
  | @head t u v w x word named _ colon typed _ allocated =>
    have slot : w.StmtStep (w.allocate scope).2 := .allocate
    rw [allocated] at slot
    exact word.stmtSteps (by simp [Symbol.word]) (named.stmtSteps (by simp) (colon.stmtSteps
      (by simp) (typed.stmtSteps (by simp) (.head slot (.head .declare (.single .publish))))))

theorem ReadsDeclaration.steps {scope : Scope} {symbol : Symbol} {s t : State} {value : Option Expr}
    (reads : ReadsDeclaration scope symbol s value t) : ReflTransGen State.StmtStep s t := by
  cases reads with
  | bare declares _ ends => exact declares.steps.trans (ends.stmtSteps (by simp) .refl)
  | given declares sign value _ ends =>
    exact declares.steps.trans (sign.stmtSteps (by simp) (value.stmtSteps.trans
      (.head (.inside .mark) (ends.stmtSteps (by simp) .refl))))

theorem ReadsStmt.steps {scope : Scope} {s t : State} {stmt : Stmt}
    (reads : ReadsStmt scope s stmt t) : ReflTransGen State.StmtStep s t := by
  induction reads with
  | skip => exact .refl
  | seq _ _ ihFirst ihRest => exact ihFirst.trans ihRest
  | empty ends => exact ends.stmtSteps (by simp) .refl
  | declare reads => exact reads.steps
  | evaluate reads ends => exact reads.stmtSteps.trans (ends.stmtSteps (by simp) .refl)
  | block opening _ closing ih =>
    exact opening.stmtSteps (by simp) (ih.trans (closing.stmtSteps (by simp) (.single .close)))
  | conditional word test _ _ _ _ ih => exact word.stmtSteps (by simp) (test.stmtSteps.trans ih)
  | alternative word test _ _ other _ ihYes ihNo =>
    exact word.stmtSteps (by simp) (test.stmtSteps.trans (ihYes.trans
      (other.stmtSteps (by simp) ihNo)))
  | iteration word test _ opening _ closing ih =>
    exact word.stmtSteps (by simp) (test.stmtSteps.trans (opening.stmtSteps (by simp)
      (ih.trans (closing.stmtSteps (by simp) (.single .close)))))
  | leave _ word ends | again _ word ends =>
    exact word.stmtSteps (by simp) (ends.stmtSteps (by simp) .refl)
  | giveBackNothing word ends _ => exact word.stmtSteps (by simp) (ends.stmtSteps (by simp) .refl)
  | giveBack word value _ _ ends =>
    exact word.stmtSteps (by simp) (value.stmtSteps.trans (ends.stmtSteps (by simp) .refl))

theorem ReadsParam.steps {before : Signature} {param : Param} {s t : State}
    (reads : ReadsParam before param s t) : ReflTransGen State.Step s t := by
  cases reads with
  | const _ word named colon typed =>
    exact word.steps (by simp) (named.steps (by simp) (colon.steps (by simp)
      (typed.steps (by simp) .refl)))
  | plain _ named colon typed =>
    exact named.steps (by simp) (colon.steps (by simp) (typed.steps (by simp) .refl))

theorem ReadsParams.steps {before after : Signature} {s t : State}
    (reads : ReadsParams before s after t) : ReflTransGen State.Step s t := by
  induction reads with
  | last reads => exact reads.steps
  | next reads comma _ ih => exact reads.steps.trans (comma.steps (by simp) ih)

theorem ReadsHead.steps {s t : State} {signature : Signature} (reads : ReadsHead s signature t) :
    ReflTransGen State.Step s t := by
  cases reads with
  | bare word named _ known opening closing arrow typed =>
    exact word.steps (by simp) (named.steps (by simp) (State.steps_of_register known
      (opening.steps (by simp) (closing.steps (by simp) (arrow.steps (by simp)
        (typed.steps (by simp) .refl))))))
  | params word named _ known opening params closing arrow typed =>
    exact word.steps (by simp) (named.steps (by simp) (State.steps_of_register known
      (opening.steps (by simp) (params.steps.trans (closing.steps (by simp) (arrow.steps (by simp)
        (typed.steps (by simp) .refl)))))))

namespace State

variable {s t : State}

/-- The functions and the declarations of globals that were read. -/
def items (s : State) : List Definition × List Stmt :=
  (s.definitions, s.initializers)

theorem Step.items (step : s.Step t) : t.items = s.items := by
  cases step with
  | take _ takes =>
    obtain ⟨_, rfl⟩ := takes
    rfl
  | register => rfl
  | @mark v =>
    unfold State.initialized
    cases v.rank <;> rfl

theorem StmtStep.items (step : s.StmtStep t) : t.items = s.items := by
  cases step with
  | inside step => exact step.items
  | @allocate scope =>
    unfold State.allocate
    split <;> rfl
  | declare => rfl
  | @publish symbol =>
    unfold State.published
    split <;> rfl
  | close => rfl

theorem StmtStep.same_items (steps : ReflTransGen StmtStep s t) : t.items = s.items := by
  induction steps with
  | refl => rfl
  | tail _ step ih => exact step.items.trans ih

theorem entries_registered (s : State) (entry : Entry) :
    s.directory.entries <+: (s.registered entry).directory.entries := by
  simp only [registered, register, Directory.register]
  cases s.directory.address? entry with
  | some address => exact List.prefix_rfl
  | none => exact List.prefix_append _ _

theorem Step.entries (step : s.Step t) : s.directory.entries <+: t.directory.entries := by
  cases step with
  | take _ takes =>
    obtain ⟨_, rfl⟩ := takes
    exact List.prefix_rfl
  | register => exact entries_registered s _
  | @mark v =>
    unfold initialized
    cases v.rank <;> exact List.prefix_rfl

theorem StmtStep.entries (step : s.StmtStep t) : s.directory.entries <+: t.directory.entries := by
  cases step with
  | inside step => exact step.entries
  | @allocate scope =>
    unfold State.allocate
    split <;> exact List.prefix_rfl
  | declare => exact List.prefix_rfl
  | @publish symbol =>
    unfold published
    split
    · exact entries_registered s _
    · exact List.prefix_rfl
  | close => exact List.prefix_rfl

theorem StmtStep.more_entries (steps : ReflTransGen StmtStep s t) :
    s.directory.entries <+: t.directory.entries := by
  induction steps with
  | refl => exact List.prefix_rfl
  | tail _ step ih => exact ih.trans step.entries

theorem Step.leadsTo (step : s.Step t) : s.LeadsTo t := by
  cases step with
  | take _ takes =>
    obtain ⟨_, rfl⟩ := takes
    exact .advanced s
  | register => exact ⟨0, rfl, rfl⟩
  | @mark v =>
    unfold initialized
    cases v.rank <;> exact ⟨0, rfl, rfl⟩

/-- Nothing is read twice. -/
theorem StmtStep.leadsTo (steps : ReflTransGen StmtStep s t) : s.LeadsTo t := by
  induction steps with
  | refl => exact .refl s
  | tail _ step ih =>
    refine ih.trans ?_
    cases step with
    | inside step => exact step.leadsTo
    | @allocate scope =>
      unfold State.allocate
      split <;> exact ⟨0, rfl, rfl⟩
    | declare => exact ⟨0, rfl, rfl⟩
    | @publish symbol =>
      unfold published
      split <;> exact ⟨0, rfl, rfl⟩
    | close => exact ⟨0, rfl, rfl⟩

theorem StmtStep.rest_suffix (steps : ReflTransGen StmtStep s t) : t.rest <:+ s.rest := by
  obtain ⟨count, _, rest⟩ := StmtStep.leadsTo steps
  rw [rest]
  exact List.drop_suffix count s.rest

end State

/-- A function is read token by token, up to the point where it is added to the program. -/
theorem ReadsFunction.steps {definition : Definition} {s t : State}
    (reads : ReadsFunction definition s t) : ∃ u v, ReflTransGen State.StmtStep s u ∧
      ReflTransGen State.StmtStep u.withoutLocals v ∧ t = v.defined definition := by
  cases reads with
  | @function t u v w head opening body closing =>
    exact ⟨t, w.closed 1, State.Step.stmtSteps head.steps, opening.stmtSteps (by simp)
      (body.steps.trans (closing.stmtSteps (by simp) (.single .close))), rfl⟩

theorem ReadsFunction.items {definition : Definition} {s t : State}
    (reads : ReadsFunction definition s t) :
    t.definitions = s.definitions ++ [definition] ∧ t.initializers = s.initializers := by
  obtain ⟨u, v, head, body, rfl⟩ := reads.steps
  have inHead : u.items = s.items := State.StmtStep.same_items head
  have same : v.items = s.items := (State.StmtStep.same_items body).trans inHead
  simp only [State.items, Prod.mk.injEq] at same
  simp only [State.defined, same, and_self]

theorem ReadsFunction.entries {definition : Definition} {s t : State}
    (reads : ReadsFunction definition s t) : s.directory.entries <+: t.directory.entries := by
  obtain ⟨u, v, head, body, rfl⟩ := reads.steps
  have inBody := State.StmtStep.more_entries body
  exact (State.StmtStep.more_entries head).trans inBody

theorem ReadsDeclaration.items {scope : Scope} {symbol : Symbol} {s t : State}
    {value : Option Expr} (reads : ReadsDeclaration scope symbol s value t) :
    t.definitions = s.definitions ∧ t.initializers = s.initializers :=
  Prod.mk.inj (State.StmtStep.same_items reads.steps)

/-- A function of a program was read somewhere between its start and its end. -/
theorem ReadsItems.of_mem_definitions {origin s : State} {definition : Definition}
    (items : ReadsItems origin s) (fresh : origin.definitions = [])
    (member : definition ∈ s.definitions) :
    ∃ t u, ReadsItems origin t ∧ ReadsFunction definition t u ∧ ReadsItems u s := by
  induction items with
  | start => simp [fresh] at member
  | @function t u last items reads ih =>
    rw [reads.items.1, List.mem_append, List.mem_singleton] at member
    rcases member with before | rfl
    · obtain ⟨v, w, first, found, rest⟩ := ih before
      exact ⟨v, w, first, found, rest.function reads⟩
    · exact ⟨t, u, items, reads, .start⟩
  | @global t u symbol value items reads ih =>
    simp only [State.withInitializer, reads.items.1] at member
    obtain ⟨v, w, first, found, rest⟩ := ih member
    exact ⟨v, w, first, found, rest.global reads⟩

/-- A function of an accepted source was read somewhere in the source. -/
theorem analyze_definition {source : String} {options : Options} {checked : CheckedProgram}
    {definition : Definition} (accepted : analyze source options = .ok checked)
    (member : definition ∈ checked.definitions) :
    ∃ s t, ReadsItems (.ofSource source) s ∧ ReadsFunction definition s t := by
  obtain ⟨s, t, main, items, ⟨_, rfl⟩, _, rfl⟩ := analyze_reads accepted
  obtain ⟨u, v, before, reads, _⟩ := items.of_mem_definitions rfl member
  exact ⟨u, v, before, reads⟩

end C0
