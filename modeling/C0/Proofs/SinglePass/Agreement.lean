import C0.Proofs.Likeness.Source
import C0.Proofs.SinglePass.Program

namespace C0

/-- A single pass over a source comes to what its analysis comes to, if enough calls may be active
at once. No loop is open at its end, even if it fails. -/
theorem passOver_outcome (source : String) (options : Options) {active : Nat}
    (enough : options.activeCalls ≤ active) :
    match Analysis.program options.maxNestingDepth (.ofSource source) with
    | .ok checked t => ∃ b, passOver .exact active source options = (.ok checked.program, b) ∧
        Serves source t b ∧ b.desk.loops = []
    | .error fault _ => ∃ b, passOver .exact active source options =
        (.error (.fault (fault.mapSite (locate source))), b) ∧ b.desk.loops = [] := by
  unfold Options.activeCalls at enough
  obtain ⟨inner, rfl⟩ := Nat.exists_eq_add_one.mpr (by omega : 0 < active)
  have outside : SinglePass.Outside (.ofSource source) (Bench.ofSource source).desk :=
    ⟨Desk.lay_skip.symm, rfl⟩
  have level := SinglePass.level_of_add source options.maxNestingDepth inner 0 _ (Nat.zero_add _)
  have mirrors := SinglePass.program_mirrors level (by omega) (.ofSource source)
    (.ofSource source) (serves_ofSource source) outside
  -- No loop is open before the first token.
  have none (b : Bench) (loops : (Bench.ofSource source).desk.SameLoops b.desk) :
      b.desk.loops = [] :=
    List.map_eq_nil_iff.mp loops
  have routine : (routines .exact options.maxNestingDepth (inner + 1)).program =
      SinglePass.program .exact (routines .exact options.maxNestingDepth inner) := rfl
  rw [passOver, routine]
  cases ran : Analysis.program options.maxNestingDepth (.ofSource source) with
  | ok checked t =>
    rw [ran] at mirrors
    obtain ⟨_, b, done, serves, loops, rfl⟩ := mirrors
    rw [done]
    exact ⟨b, rfl, serves, none b loops⟩
  | error fault t =>
    rw [ran] at mirrors
    obtain ⟨b, failed, loops⟩ := mirrors
    rw [failed]
    exact ⟨b, rfl, none b loops⟩

/-- With enough calls a single pass comes to what a compilation comes to. -/
theorem passOver_eq_compile (source : String) (options : Options) {active : Nat}
    (enough : options.activeCalls ≤ active) :
    (passOver .exact active source options).1 = (compile source options).mapError .fault ∧
      (passOver .exact active source options).2.desk.loops = [] := by
  have outcome := passOver_outcome source options enough
  cases ran : Analysis.program options.maxNestingDepth (.ofSource source) with
  | ok checked t =>
    rw [ran] at outcome
    obtain ⟨b, done, _, loops⟩ := outcome
    rw [compile, analyze_eq, ran, done]
    exact ⟨rfl, loops⟩
  | error fault t =>
    rw [ran] at outcome
    obtain ⟨b, failed, loops⟩ := outcome
    rw [compile_eq_of_error ran (program_fault_site ran).1, failed]
    exact ⟨rfl, loops⟩

/-- Nothing happens in a compilation that must not. A single pass over the source that writes the
code while it reads comes to the same program or to the same fault, and never raises an alarm: it
cuts out of the source only what ends between characters, gives every branch its target exactly once
before its function ends, finds all operands of an expression and leaves exactly one, leaves only
levels that it entered, and ends the loops that it began, also where it fails. The stretches that
the scans of a source cover, and the one that a fault is blamed on, end between characters too. -/
theorem compile_raises_no_alarm (source : String) (options : Options) :
    (singlePass source options).1 = (compile source options).mapError .fault ∧
      (singlePass source options).2.desk.loops = [] ∧
      (∀ index, (scanResult source index).span.Fits source) ∧
      ∀ fault, compile source options = .error fault → fault.site.Fits source := by
  obtain ⟨same, loops⟩ := passOver_eq_compile source options (Nat.le_refl _)
  refine ⟨same, loops, locate_fits source, fun fault failed => ?_⟩
  cases ran : Analysis.program options.maxNestingDepth (.ofSource source) with
  | ok checked t => simp [compile, analyze_eq, ran, Except.map] at failed
  | error other t =>
    rw [compile_eq_of_error ran (program_fault_site ran).1] at failed
    rw [← Except.error.inj failed]
    exact locate_fits source other.site

/-- A loop with a fault in it that covers two bytes. -/
theorem compile_raises_no_alarm_refused :
    ∃ fault, compile "fn main() -> void \x7b while 1 \x7b break; é = 2; \x7d \x7d" {} = .error fault ∧
      fault.site.Fits "fn main() -> void \x7b while 1 \x7b break; é = 2; \x7d \x7d" ∧
      (singlePass "fn main() -> void \x7b while 1 \x7b break; é = 2; \x7d \x7d" {}).1 =
        .error (.fault fault) := by
  generalize text : "fn main() -> void \x7b while 1 \x7b break; é = 2; \x7d \x7d" = source
  have read : (compile source {}).isOk = false := by
    subst text
    decide +kernel
  cases refused : compile source {} with
  | ok program => simp [refused, Except.isOk, Except.toBool] at read
  | error fault =>
    obtain ⟨same, -, -, fits⟩ := compile_raises_no_alarm source {}
    rw [refused] at same
    exact ⟨fault, rfl, fits fault refused, same⟩

end C0
