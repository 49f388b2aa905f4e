import C0.Proofs.Bindings.Program
import C0.Proofs.Constness

namespace C0

open Bindings (scanSource)

/-- Each store of a program has its slot: every instruction finds the stack that it needs, and there
are as many slots under stored values as there are stores. -/
structure CheckedProgram.PairsStores (checked : CheckedProgram) : Prop where
  safe : ∀ definition ∈ checked.definitions, StackSafe (checked.setting definition)
    definition.body.constants definition.routine.code.toList
    ((checked.setting definition).stackAt definition.body.constants
      definition.routine.code.toList)
  paired : ∀ definition ∈ checked.definitions, (checked.stores definition).length =
    definition.routine.code.toList.countP Instruction.isStore
  entrySafe : ∀ p < checked.entry.code.size, checked.EntryStack p
    (checked.entrySetting.stackAt checked.entryConstants checked.entry.code.toList p)
  entryPaired : checked.entryStores.length = checked.entry.code.toList.countP Instruction.isStore

theorem CheckedProgram.pairsStores {source : String} {options : Options} {checked : CheckedProgram}
    (accepted : analyze source options = .ok checked) (short : source.utf8ByteSize < 2 ^ 30) :
    checked.PairsStores where
  safe _ member := Definition.stackSafe accepted short member
  paired _ member := length_stores accepted short member
  entrySafe _ inside := entryStack_stackAt accepted short inside
  entryPaired := length_entryStores accepted short

/-- Constants are written only where they are declared. The stores of an accepted source leave them
alone but for the ones of their declarations. A source that assigns to a constant is refused: where
the analysis comes to the left side of such an assignment, it blames that name for changing a
constant and reads no further, and it blames nothing else so. -/
theorem analyze_constants (source : String) (options : Options) :
    (∀ checked, analyze source options = .ok checked →
      compile source options = .ok checked.program ∧ scanSource source = [] ∧
      (source.utf8ByteSize < 2 ^ 30 → checked.PairsStores ∧ checked.KeepsConstants)) ∧
    ∀ diagnostic, analyze source options = .error diagnostic → ∃ fault t,
      (Analysis.program options.maxNestingDepth).run (.ofSource source) = .error fault t ∧
      diagnostic = fault.mapSite (spanAt (lexemes source)) ∧
      FaultExposes (scanSource source) fault t.position := by
  have exposes := program_exposes source options.maxNestingDepth
  refine ⟨fun checked accepted => ⟨?_, ?_, fun short => ?_⟩, fun diagnostic refused => ?_⟩
  · rw [compile, accepted]
    rfl
  · rw [analyze_eq] at accepted
    cases run : Analysis.program options.maxNestingDepth (.ofSource source) with
    | ok result t => rwa [run] at exposes
    | error fault t => simp [run] at accepted
  · exact ⟨CheckedProgram.pairsStores accepted short, CheckedProgram.keepsConstants accepted short⟩
  · rw [analyze_eq] at refused
    cases run : Analysis.program options.maxNestingDepth (.ofSource source) with
    | ok result t => simp [run] at refused
    | error fault t =>
      rw [run] at exposes
      simp only [run, Except.error.injEq] at refused
      exact ⟨fault, t, run, refused.symm, exposes⟩

/-- A constant global, a constant parameter and a constant that a variable shadows are kept. And of
two assignments to a constant that shadows a variable, the first one is blamed, deep in a
condition. -/
theorem analyze_constants_shadowed :
    (∃ checked : CheckedProgram,
      analyze ("const g: int = 1; fn f(const p: int) -> int \x7b const x: int = p; \x7b " ++
        "let x: int = g; x = p; \x7d return x; \x7d " ++
        "fn main() -> void \x7b let g: int = f(g); g = 2; \x7d") {} = .ok checked ∧
      checked.definitions.map (·.body.declarations.map Symbol.isConst) = [[true, false], [false]] ∧
      checked.KeepsConstants) ∧
    ∃ t, (Analysis.program 256).run (.ofSource ("const g: int = 1; fn f(p: int) -> void \x7b " ++
        "let g: int = 2; \x7b const g: int = p; while p < (p = f(-(g = 3))) \x7b p = g = 4; " ++
        "\x7d \x7d \x7d")) = .error ⟨.changeConst, 42⟩ t ∧ t.position = 43 := by
  constructor
  · generalize text : "const g: int = 1; fn f(const p: int) -> int \x7b const x: int = p; \x7b " ++
      "let x: int = g; x = p; \x7d return x; \x7d " ++
      "fn main() -> void \x7b let g: int = f(g); g = 2; \x7d" = source
    have short : source.utf8ByteSize < 2 ^ 30 := by
      subst text
      decide +kernel
    have read : (match analyze source {} with
        | .ok checked => checked.definitions.map (·.body.declarations.map Symbol.isConst) ==
            [[true, false], [false]]
        | .error _ => false) = true := by
      subst text
      decide +kernel
    cases accepted : analyze source {} with
    | error fault => simp [accepted] at read
    | ok checked =>
      simp only [accepted, beq_iff_eq] at read
      obtain ⟨_, _, kept⟩ := (analyze_constants source {}).1 checked accepted
      exact ⟨checked, rfl, read, (kept short).2⟩
  · generalize text : "const g: int = 1; fn f(p: int) -> void \x7b " ++
      "let g: int = 2; \x7b const g: int = p; while p < (p = f(-(g = 3))) \x7b p = g = 4; " ++
      "\x7d \x7d \x7d" = source
    have found : scanSource source = [42, 51] := by
      subst text
      decide +kernel
    have reached : (match Analysis.program 256 (.ofSource source) with
        | .error _ t => decide (42 < t.position)
        | .ok _ _ => false) = true := by
      subst text
      decide +kernel
    cases run : Analysis.program 256 (.ofSource source) with
    | ok checked t => simp [run] at reached
    | error fault t =>
      have refused : analyze source {} = .error (fault.mapSite (spanAt (lexemes source))) := by
        rw [analyze_eq, show Analysis.program ({} : Options).maxNestingDepth _ = _ from run]
      obtain ⟨_, _, same, _, exposes, _⟩ := (analyze_constants source {}).2 _ refused
      cases run.symm.trans same
      rw [run, decide_eq_true_iff] at reached
      obtain ⟨rfl, position⟩ := exposes 42 (by simp [found]) reached
      exact ⟨t, run, position⟩

end C0
