import C0.Proofs.ScopeTracking.Program

namespace C0

/-- The meaning of names at the start of a source. -/
theorem State.between_ofSource (source : String) : (State.ofSource source).Between .start := by
  refine ⟨⟨⟨rfl, .nil, fun _ => rfl, fun cause member => ?_⟩, rfl, rfl, rfl, rfl, by simp [Lexicon.start],
    fun name => ?_⟩, rfl⟩
  · rcases Scanner.lexemes_error member with rfl | rfl <;> rfl
  · rw [isSome_callee?_global]
    rfl

/-- A scan of the names in a source. -/
def Lexicon.scanSource (source : String) : Lexicon × Option (Fault Nat) :=
  start.scan 0 ((lexemes source).map Lexeme.reading)

/-- The names that a function declares and the addresses that its code pushes. -/
def Definition.names (definition : Definition) : BodyNames where
  declared := definition.body.declarations.map Symbol.name
  mentions := addresses definition.routine.code.toList

section

variable {source : String} {options : Options} {checked : CheckedProgram}
  (accepted : analyze source options = .ok checked)

include accepted

/-- The names of an accepted source have no fault, and the code of its functions pushes the
addresses that lexical scoping says. -/
theorem scanSource_accepted (short : source.utf8ByteSize < 2 ^ 30) :
    (Lexicon.scanSource source).2 = none ∧
      (Lexicon.scanSource source).1.finished = checked.definitions.map Definition.names := by
  have exact : checked.definitions.map (·.body.names) = checked.definitions.map Definition.names := by
    refine List.map_congr_left fun definition member => ?_
    rw [Definition.names, Definition.addresses_eq accepted short member, Stmt.names]
  obtain ⟨_, run, _⟩ := analyze_run accepted
  obtain ⟨next, scan, finished⟩ := Analysis.program_scan (State.between_ofSource source) run
  have here : Lexicon.scanSource source = (next, none) := scan
  rw [here]
  exact ⟨rfl, finished.trans exact⟩

/-- The variables of a function have the slots 0, 1, 2, ... in the order of their declarations. -/
theorem Definition.slots {definition : Definition} (member : definition ∈ checked.definitions) :
    definition.body.declarations.map Symbol.slot = List.range definition.routine.locals := by
  obtain ⟨s, t, main, items, ⟨_, rfl⟩, _, rfl⟩ := analyze_reads accepted
  obtain ⟨u, v, before, reads, _⟩ := items.of_mem_definitions rfl member
  have locals := (Routine.ofBody?_head definition.laidOut).2
  cases reads with
  | function head opening body closing frame =>
    obtain ⟨slots, count⟩ := body.slots (by simp [Definition.scope])
    rw [opening.frame] at slots count
    rw [slots, locals, frame, closing.frame, count, List.range_eq_range']
    simp [State.withoutLocals]

end

/-- Names are resolved by lexical scoping. The code of the functions of an accepted source pushes
the addresses that a scan of the names finds, in the same order, and local variables have slots of
their own. A source that is refused for a name is refused for the first one that the scan refuses,
and one that is refused for something else is so before the scan refuses a name. -/
theorem analyze_lexical (source : String) (options : Options)
    (short : source.utf8ByteSize < 2 ^ 30) :
    (∀ checked, analyze source options = .ok checked →
      (Lexicon.scanSource source).2 = none ∧
      (Lexicon.scanSource source).1.finished = checked.definitions.map Definition.names ∧
      ∀ definition ∈ checked.definitions,
        definition.body.declarations.map Symbol.slot = List.range definition.routine.locals) ∧
    ∀ diagnostic, analyze source options = .error diagnostic → ∃ fault t,
      (Analysis.program options.maxNestingDepth).run (.ofSource source) = .error fault t ∧
      diagnostic = fault.mapSite (spanAt (lexemes source)) ∧
      FaultAgrees (Lexicon.scanSource source).2 fault t.position := by
  refine ⟨fun checked accepted => ?_, fun diagnostic refused => ?_⟩
  · obtain ⟨free, finished⟩ := scanSource_accepted accepted short
    exact ⟨free, finished, fun definition member => Definition.slots accepted member⟩
  · unfold analyze analyzeLogged at refused
    cases run : (Analysis.program options.maxNestingDepth).run
        (.initial ((lexemes source).map Lexeme.reading)) with
    | ok result t => simp [run] at refused
    | error fault t =>
      simp only [run, Except.error.injEq] at refused
      exact ⟨fault, t, run, refused.symm,
        Analysis.program_agrees (State.between_ofSource source) run⟩

/-- Variables that shadow another one and a global, a parameter, and a block that is closed. -/
theorem analyze_lexical_shadows : ∃ checked : CheckedProgram,
    analyze ("let g: int = 1; fn f(x: int) -> int \x7b let y: int = x; \x7b let y: int = g; " ++
      "y = x; \x7d return y; \x7d fn main() -> void \x7b let g: int = f(g); \x7d") {} = .ok checked ∧
    checked.definitions.map Definition.names =
      [⟨["y", "y"], [.frame 0, .argument 1, .frame 1, .static 0, .frame 1, .argument 1, .argument 0,
        .frame 0]⟩, ⟨["g"], [.frame 0, .frame 0]⟩] := by
  generalize text : "let g: int = 1; fn f(x: int) -> int \x7b let y: int = x; \x7b let y: int = g; " ++
    "y = x; \x7d return y; \x7d fn main() -> void \x7b let g: int = f(g); \x7d" = source
  have short : source.utf8ByteSize < 2 ^ 30 := by
    subst text
    decide +kernel
  have found : (Lexicon.scanSource source).1.finished =
      [⟨["y", "y"], [.frame 0, .argument 1, .frame 1, .static 0, .frame 1, .argument 1, .argument 0,
        .frame 0]⟩, ⟨["g"], [.frame 0, .frame 0]⟩] := by
    subst text
    decide +kernel
  have read : (analyze source {}).isOk = true := by
    subst text
    decide +kernel
  cases accepted : analyze source {} with
  | error fault => simp [accepted, Except.isOk, Except.toBool] at read
  | ok checked =>
    obtain ⟨_, finished, _⟩ := (analyze_lexical source {} short).1 checked accepted
    exact ⟨checked, rfl, finished.symm.trans found⟩

end C0
