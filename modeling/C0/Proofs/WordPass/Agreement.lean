import C0.Proofs.CallConvention
import C0.Proofs.Listing
import C0.Proofs.SinglePass.Agreement
import C0.Proofs.WordPass.Program

namespace C0

theorem Stmt.size_ofList (stmts : List Stmt) :
    (Stmt.ofList stmts).size = (stmts.map Stmt.size).sum := by
  induction stmts with
  | nil => rfl
  | cons stmt stmts ih => rw [ofList, size, ih, List.map_cons, List.sum_cons]

/-- How many instructions the functions and the initializers that were read have. -/
def State.codeSize (s : State) : Nat :=
  (s.definitions.map fun definition => definition.routine.code.size).sum +
    (s.initializers.map Stmt.size).sum

/-- The items of a program have at most two instructions for each unit of weight, with a call of
each function included. -/
theorem ReadsItems.spends {origin s : State} (items : ReadsItems origin s) :
    s.codeSize + 2 * s.definitions.length + 2 * s.ahead ≤
      origin.codeSize + 2 * origin.definitions.length + 2 * origin.ahead := by
  induction items with
  | start => exact Nat.le_refl _
  | @function t u definition _ reads ih =>
    obtain ⟨definitions, initializers⟩ := reads.items
    have spent := reads.spends.1
    have size : u.codeSize = t.codeSize + definition.routine.code.size := by
      simp [State.codeSize, definitions, initializers]
      omega
    have count : u.definitions.length = t.definitions.length + 1 := by simp [definitions]
    omega
  | @global t u symbol value _ reads ih =>
    obtain ⟨definitions, initializers⟩ := reads.items
    have spent := reads.spends.1
    have size : (u.withInitializer (.declare symbol value)).codeSize =
        t.codeSize + (declareCode symbol value).length := by
      simp [State.codeSize, State.withInitializer, definitions, initializers, Stmt.size]
      omega
    have count : (u.withInitializer (.declare symbol value)).definitions.length =
        t.definitions.length :=
      congrArg List.length definitions
    have ahead : (u.withInitializer (.declare symbol value)).ahead = u.ahead := rfl
    omega

/-- All functions of a program together, the entry function included, have at most two instructions
for each byte of the source. -/
theorem analyze_codeSize {source : String} {options : Options} {checked : CheckedProgram}
    (accepted : analyze source options = .ok checked) :
    (checked.program.routines.map fun routine => routine.code.size).sum ≤
      2 * source.utf8ByteSize := by
  obtain ⟨s, t, main, items, ⟨_, rfl⟩, found, rfl⟩ := analyze_reads accepted
  have spent := items.spends
  have weight : (State.ofSource source).ahead ≤ source.utf8ByteSize := lexemes_weight source
  have start :
      (State.ofSource source).codeSize + 2 * (State.ofSource source).definitions.length = 0 := rfl
  -- The entry function calls `main`, and that call is counted with the definition.
  have called : 0 < s.definitions.length :=
    List.length_pos_of_mem (List.mem_of_find?_eq_some found)
  have entry : (Analysis.checkedAt s.advanced main.signature).entry.code.size =
      (s.initializers.map Stmt.size).sum + 2 := by
    rw [← Array.length_toList, CheckedProgram.entry_code, List.length_append,
      Stmt.assembled_length, Stmt.size_ofList]
    rfl
  have total : ((Analysis.checkedAt s.advanced main.signature).program.routines.map
      fun routine => routine.code.size).sum = s.codeSize + 2 := by
    simp only [CheckedProgram.program, List.map_append, List.map_map, List.sum_append,
      List.map_cons, List.map_nil, List.sum_cons, List.sum_nil, entry]
    rfl
  omega

/-- No count of a compilation outgrows its word. The functions of a program together, the entry
function included, have at most two instructions for each byte of the source. Where the source has
less than two to the 30 bytes, a pass that keeps its numbers in words of 32 bits, and that stops
where a word does not keep its number, comes to the program or the fault that a compilation comes
to: its addresses, slots, numbers of slots, places of parameters, ranks and depths are the numbers
that they stand for, and the offset of each branch, in a word with a sign, leads to the target. The
ends of each stretch of source that a scan finds are kept by words too. -/
theorem compile_words_exact (source : String) (options : Options) :
    (∀ program, compile source options = .ok program →
      (program.routines.map fun routine => routine.code.size).sum ≤ 2 * source.utf8ByteSize) ∧
    (source.utf8ByteSize < 2 ^ 30 →
      wordPass source options = (compile source options).mapError .fault ∧
      ∀ index, (UInt32.ofNat (scanResult source index).span.start).toNat =
          (scanResult source index).span.start ∧
        (UInt32.ofNat (scanResult source index).span.stop).toNat =
          (scanResult source index).span.stop) := by
  refine ⟨fun program compiled => ?_, fun small => ⟨?_, fun index =>
    (locate_fits source index).fitsWords (by omega)⟩⟩
  · obtain ⟨checked, accepted, rfl⟩ := exists_checked_of_compile compiled
    exact analyze_codeSize accepted
  · rw [wordPass, passOver_words small]
    exact (passOver_eq_compile source options (Nat.le_refl _)).1

/-- A function with a slot and a loop. -/
theorem compile_words_exact_loop :
    ∃ program,
      compile "fn main() -> void \x7b let i: int = 9; while i > 3 \x7b i = i - 1; \x7d \x7d"
        {} = .ok program ∧
      (program.routines.map fun routine => routine.code.size).sum ≤ 2 * String.utf8ByteSize
        "fn main() -> void \x7b let i: int = 9; while i > 3 \x7b i = i - 1; \x7d \x7d" ∧
      wordPass "fn main() -> void \x7b let i: int = 9; while i > 3 \x7b i = i - 1; \x7d \x7d"
        {} = .ok program := by
  generalize text :
    "fn main() -> void \x7b let i: int = 9; while i > 3 \x7b i = i - 1; \x7d \x7d" = source
  have accepted : (compile source {}).isOk = true := by
    subst text
    decide +kernel
  have small : source.utf8ByteSize < 2 ^ 30 := by
    subst text
    decide +kernel
  cases compiled : compile source {} with
  | error fault => simp [compiled, Except.isOk, Except.toBool] at accepted
  | ok program =>
    obtain ⟨size, words⟩ := compile_words_exact source {}
    have same := (words small).1
    rw [compiled] at same
    exact ⟨program, rfl, size program compiled, same⟩

end C0
