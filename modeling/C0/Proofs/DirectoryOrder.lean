import C0.Proofs.Entities
import C0.Proofs.ReturnCheck

namespace C0

open Relation (ReflTransGen)

/-- The entries that got addresses according to a log, with these addresses, in their order. -/
def registrations (log : List Event) : List (Entry × Nat) :=
  log.filterMap fun
    | .registered address entry => some (entry, address)
    | _ => none

/-- The log of a state tells the addresses of all its entries. -/
def State.Recorded (s : State) : Prop :=
  registrations s.log = s.directory.entries.zipIdx

namespace State.Recorded

variable {s t : State}

theorem of_same (recorded : s.Recorded) (log : t.log = s.log) (directory : t.directory = s.directory) :
    t.Recorded := by
  unfold Recorded
  rw [log, directory]
  exact recorded

theorem registered (recorded : s.Recorded) (entry : Entry) : (s.registered entry).Recorded := by
  unfold Recorded at *
  cases found : s.directory.address? entry with
  | some address =>
    have known : s.directory.register entry = (address, s.directory) := by
      simp only [Directory.register, found]
    have inside : address < s.directory.size := (List.idxOf?_eq_some_iff.mp found).1
    simp [State.registered, register, known, Nat.ne_of_lt inside, recorded]
  | none =>
    have new : s.directory.register entry =
        (s.directory.size, ⟨s.directory.entries ++ [entry]⟩) := by
      simp only [Directory.register, found]
    simp only [State.registered, register, new, if_true, registrations, List.filterMap_append,
      List.zipIdx_append] at *
    rw [recorded]
    simp [Directory.size]

theorem step (recorded : s.Recorded) (step : s.Step t) : t.Recorded := by
  cases step with
  | take _ takes =>
    obtain ⟨_, rfl⟩ := takes
    exact recorded.of_same rfl rfl
  | register => exact recorded.registered _
  | @mark v =>
    unfold State.initialized
    cases v.rank <;> exact recorded.of_same rfl rfl

theorem stmtSteps (recorded : s.Recorded) (steps : ReflTransGen State.StmtStep s t) :
    t.Recorded := by
  induction steps with
  | refl => exact recorded
  | tail _ step ih =>
    cases step with
    | inside step => exact ih.step step
    | @allocate scope =>
      unfold State.allocate
      split <;> exact ih.of_same rfl rfl
    | declare => exact ih.of_same rfl rfl
    | @publish symbol =>
      unfold State.published
      split
      · exact (ih.registered (.global symbol.name)).of_same rfl rfl
      · exact ih
    | close => exact ih.of_same rfl rfl

/-- The definition of a function is reported, which gives no address. -/
theorem defined (recorded : s.Recorded) (definition : Definition) :
    (s.defined definition).Recorded := by
  unfold Recorded at *
  simpa [State.defined, registrations] using recorded

end State.Recorded

theorem ReadsItems.recorded {origin s : State} (items : ReadsItems origin s)
    (start : origin.Recorded) : s.Recorded := by
  induction items with
  | start => exact start
  | function _ reads ih =>
    obtain ⟨u, v, head, body, rfl⟩ := reads.steps
    have begins : u.withoutLocals.Recorded := (ih.stmtSteps head).of_same rfl rfl
    exact (begins.stmtSteps body).defined _
  | global _ reads ih => exact (ih.stmtSteps reads.steps).of_same rfl rfl

/-- The single things that happen to a state while a program is read. -/
inductive State.RunStep : State → State → Prop
  | inside {s t : State} : s.StmtStep t → RunStep s t
  | enter {s : State} : RunStep s s.withoutLocals
  | define {s : State} {definition : Definition} : RunStep s (s.defined definition)
  | global {s : State} {initializer : Stmt} : RunStep s (s.withInitializer initializer)
  | finish {s t : State} : s.Takes .eof t → RunStep s t
  | synthesize {s : State} {entry : Routine} :
      RunStep s { s with log := s.log ++ [.synthesized entry] }

namespace State.RunStep

variable {s t : State}

theorem of_stmtSteps (steps : ReflTransGen State.StmtStep s t) : ReflTransGen RunStep s t :=
  ReflTransGen.mono (fun _ _ => .inside) _ _ steps

/-- No single step takes an entry away or moves it. -/
theorem entries (step : s.RunStep t) : s.directory.entries <+: t.directory.entries := by
  cases step with
  | inside step => exact step.entries
  | finish takes =>
    obtain ⟨_, rfl⟩ := takes
    exact List.prefix_rfl
  | _ => exact List.prefix_rfl

theorem more_entries (steps : ReflTransGen RunStep s t) :
    s.directory.entries <+: t.directory.entries := by
  induction steps with
  | refl => exact List.prefix_rfl
  | tail _ step ih => exact ih.trans step.entries

end State.RunStep

/-- Functions and declarations are read step by step. -/
theorem ReadsItems.runSteps {origin s : State} (items : ReadsItems origin s) :
    ReflTransGen State.RunStep origin s := by
  induction items with
  | start => exact .refl
  | function _ reads ih =>
    obtain ⟨u, v, head, body, rfl⟩ := reads.steps
    have toBody := (ih.trans (State.RunStep.of_stmtSteps head)).tail .enter
    exact (toBody.trans (State.RunStep.of_stmtSteps body)).tail .define
  | global _ reads ih => exact (ih.trans (State.RunStep.of_stmtSteps reads.steps)).tail .global

/-- The log of an accepted source ends with the address of the entry function and its making, and
the state at the end is reached step by step. -/
theorem Analysis.program_log {limit : Nat} {checked : CheckedProgram} {s t : State}
    (run : program limit s = .ok checked t) :
    ∃ u, ReadsItems s u ∧ u.current = .ok .eof ∧
      checked.directory = (u.registered (.routine entryName)).directory ∧
      t.log = (u.registered (.routine entryName)).log ++ [.synthesized checked.entry] ∧
      ReflTransGen State.RunStep s t ∧ t.directory = checked.directory := by
  simp only [program, finish, bind_ok_iff, expect_ok_iff, get_ok_iff] at run
  obtain ⟨_, u, items, _, v, ⟨⟨current, rfl⟩, _⟩, _, _, ⟨rfl, rfl⟩, run⟩ := run
  cases found : u.advanced.definitions.find? (·.signature.name == mainName) with
  | none => simp [found] at run
  | some main =>
    simp only [found, bind_ok_iff, register_ok_iff, get_ok_iff, report, modify_ok_iff,
      pure_ok_iff] at run
    obtain ⟨address, w, registered, _, _, ⟨rfl, rfl⟩, _, _, rfl, rfl, rfl⟩ := run
    obtain ⟨_, rfl⟩ := Prod.mk.inj registered
    have reads := items_read (repeatUntil_iterates items) .start
    have toEnd := reads.runSteps.tail (.finish ⟨current, rfl⟩)
    exact ⟨u, reads, current, rfl, rfl, (toEnd.tail (.inside (.inside .register))).tail .synthesize,
      rfl⟩

/-- The directory has what the tokens of the source name, each once, in the order in which the
tokens name it first, and the entry function at the end. The log tells the same addresses in this
order. What has an address at the end of a function or a declaration keeps it to the end. The run
goes by single steps, and what has an address after any of them keeps it in every later state. -/
theorem analyze_directory {source : String} {options : Options} {checked : CheckedProgram}
    (accepted : analyze source options = .ok checked) :
    checked.directory.entries =
      (entities 0 ((lexemes source).map Lexeme.reading)).eraseDups ++ [.routine entryName] ∧
    registrations (compilationLog source options) = checked.directory.entries.zipIdx ∧
    (∀ s, ReflTransGen (ItemStep options.maxNestingDepth) (.ofSource source) s →
      s.directory.entries <+: checked.directory.entries) ∧
    ∃ t, Analysis.program options.maxNestingDepth (.ofSource source) = .ok checked t ∧
      ReflTransGen State.RunStep (.ofSource source) t ∧
      ∀ s s', ReflTransGen State.RunStep s s' → ReflTransGen State.RunStep s' t →
        s.directory.entries <+: s'.directory.entries ∧
          s'.directory.entries <+: checked.directory.entries := by
  obtain ⟨t, run, logged⟩ := analyze_run accepted
  obtain ⟨u, items, ended, directory, log, steps, final⟩ := Analysis.program_log run
  refine ⟨?_, ?_, fun s steps => ?_, t, run, steps, fun s s' earlier later => ?_⟩
  · obtain ⟨found, registers, absent⟩ := items.registers
    -- At the end no tokens are left, so the items have named all entities.
    have nothing : entities 0 u.rest = [] := by
      unfold State.current at ended
      cases rest : u.rest with
      | nil => rfl
      | cons reading later =>
        simp only [rest, List.head?_cons, Option.getD_some] at ended
        rw [ended]
        rfl
    have all : entities 0 ((lexemes source).map Lexeme.reading) = found := by
      have named := registers.named
      rwa [nothing, List.append_nil] at named
    have before : u.directory.entries = found.eraseDups := registers.added [] rfl
    have new : ([Entry.routine entryName].removeAll found).eraseDups = [.routine entryName] := by
      simp [List.removeAll, absent, List.eraseDups_cons]
    rw [directory, all, State.entries_eraseDups_registered _ before, List.eraseDups_append, new]
  · have recorded := (items.recorded rfl).registered (.routine entryName)
    unfold State.Recorded at recorded
    rw [logged, log, directory, ← recorded]
    simp [registrations]
  · have later := ItemStep.observe_start steps
    rw [Analysis.observe_ok_iff.mpr run] at later
    obtain ⟨v, rest, _, same, _⟩ := Analysis.program_log (Analysis.observe_ok_iff.mp later.symm)
    rw [same]
    exact rest.grows.2.2.trans (State.entries_registered _ _)
  · rw [← final]
    exact ⟨State.RunStep.more_entries earlier, State.RunStep.more_entries later⟩

/-- Calls in arguments, a text that is written in two ways, and a name that a function and a text
share. -/
theorem analyze_directory_nested : ∃ checked : CheckedProgram,
    analyze ("fn f(x: int) -> int \x7b putstr(\"'\"); return x; \x7d const c: int = f(getint()); " ++
      "fn main() -> void \x7b putint(f(getint())); putstr(\"\\'\"); putstr(\"f\"); \x7d") {} = .ok checked ∧
    checked.directory.entries =
      [.routine "f", .library .putStr, .text "'", .global "c", .library .getInt, .routine "main",
        .library .putInt, .text "f", .routine entryName] := by
  generalize text : "fn f(x: int) -> int \x7b putstr(\"'\"); return x; \x7d const c: int = f(getint()); " ++
      "fn main() -> void \x7b putint(f(getint())); putstr(\"\\'\"); putstr(\"f\"); \x7d" = source
  have read : (analyze source {}).isOk = true := by
    subst text
    decide +kernel
  have found : (entities 0 ((lexemes source).map Lexeme.reading)).eraseDups =
      [.routine "f", .library .putStr, .text "'", .global "c", .library .getInt, .routine "main",
        .library .putInt, .text "f"] := by
    subst text
    decide +kernel
  cases accepted : analyze source {} with
  | error fault => simp [accepted, Except.isOk, Except.toBool] at read
  | ok checked =>
    refine ⟨checked, rfl, ?_⟩
    rw [(analyze_directory accepted).1, found]
    rfl

end C0
