import C0.Proofs.LexicalScope
import C0.Proofs.Linkage
import C0.Proofs.Operands
import C0.Proofs.ReturnCheck
import Mathlib.Data.List.Nodup

namespace C0

open Relation (ReflTransGen)

/-- A function refers to itself and to the functions before it alone. -/
theorem analyze_typedUpTo {source : String} {options : Options} {checked : CheckedProgram}
    {definition : Definition} {i : Nat} (accepted : analyze source options = .ok checked)
    (here : checked.definitions[i]? = some definition) :
    definition.body.Typed { checked.setting definition with
      routines := (checked.definitions.take (i + 1)).map Definition.signature } := by
  obtain ⟨s, t, main, items, ⟨_, rfl⟩, _, rfl⟩ := analyze_reads accepted
  obtain ⟨u, v, before, reads, after⟩ :=
    items.of_mem_definitions rfl (List.mem_of_getElem? here)
  have grown := after.grows
  have distinct := (items.settled (.initial _)).distinct
  have last : s.definitions[u.definitions.length]? = some definition :=
    getElem?_of_prefix grown.1 (by simp [reads.items.1])
  -- No other function has the same address, so this is the only place of the definition.
  have place : u.definitions.length = i := by
    have bound := (List.getElem?_eq_some_iff.mp last).1
    refine (List.getElem?_inj (by simpa using bound) distinct).mp ?_
    rw [List.getElem?_map, List.getElem?_map, last]
    exact congrArg _ here.symm
  have taken : s.definitions.take (i + 1) = v.definitions := by
    rw [List.prefix_iff_eq_take.mp grown.1, reads.items.1]
    simp [place]
  have typed : definition.body.Typed (CheckedProgram.setting
      { Analysis.checkedAt s.advanced main.signature with definitions := v.definitions }
      definition) := reads.typed (before.settled (.initial _)) (reads.items.2 ▸ grown.2.1)
    ((before.function reads).settled (.initial _)).distinct List.prefix_rfl
    (grown.2.2.trans (State.entries_registered _ _))
  rw [← taken] at typed
  exact typed

/-- What a function of a program can refer to, which decides what its operands are: the functions up
to it, all entries, its own slots and the globals. -/
structure Setting.Limits (setting : Setting) (checked : CheckedProgram) (i : Nat)
    (routine : Routine) : Prop where
  directory : setting.directory = checked.directory
  locals : setting.locals.length = routine.locals
  arguments : setting.signature.argumentTypes.length = routine.returnSlots + routine.params.length
  globals : setting.globals.length = checked.globals.length
  routines : setting.routines = (checked.definitions.take (i + 1)).map Definition.signature

theorem CheckedProgram.routine_cases {checked : CheckedProgram} {i : Nat} {routine : Routine}
    (here : checked.program.routines[i]? = some routine) :
    (∃ definition, checked.definitions[i]? = some definition ∧ routine = definition.routine) ∨
      i = checked.definitions.length ∧ routine = checked.entry := by
  rw [program, List.getElem?_append, List.length_map] at here
  split at here
  · rw [List.getElem?_map] at here
    obtain ⟨definition, found, rfl⟩ := Option.map_eq_some_iff.mp here
    exact .inl ⟨definition, found, rfl⟩
  · rw [List.getElem?_singleton] at here
    split at here
    · exact .inr ⟨by omega, (Option.some.inj here).symm⟩
    · simp at here

/-- The operands of all functions of a program refer to what is there. -/
theorem analyze_resolved {source : String} {options : Options} {checked : CheckedProgram}
    {routine : Routine} {i : Nat} (accepted : analyze source options = .ok checked)
    (short : source.utf8ByteSize < 2 ^ 30)
    (here : checked.program.routines[i]? = some routine) :
    ∃ setting : Setting, setting.Limits checked i routine ∧
      Everywhere (setting.Resolved routine.code.toList) 0 routine.code.toList := by
  obtain ⟨s, items, sameGlobals, _, initializers, _⟩ := analyze_listed accepted
  have globals : (checked.initializers.flatMap Stmt.declarations).length = checked.globals.length := by
    rw [sameGlobals, items.listed.globals, initializers, List.length_map, State.globalSymbols]
  rcases CheckedProgram.routine_cases here with ⟨definition, found, rfl⟩ | ⟨rfl, rfl⟩
  · have member := List.mem_of_getElem? found
    have small := (analyze_small accepted short member).1
    have typed := analyze_typedUpTo accepted found
    obtain ⟨signature, locals⟩ := Routine.ofBody?_head definition.laidOut
    refine ⟨{ checked.setting definition with
      routines := (checked.definitions.take (i + 1)).map Definition.signature },
      ⟨rfl, ?_, ?_, ?_, rfl⟩, ?_⟩
    · have slots := congrArg List.length (Definition.slots accepted member)
      simpa [CheckedProgram.setting] using slots
    · simp [CheckedProgram.setting, Signature.argumentTypes, signature]
    · simpa [CheckedProgram.setting] using globals
    · have fewer : Setting.Small { checked.setting definition with
          routines := (checked.definitions.take (i + 1)).map Definition.signature } :=
        ⟨small.locals, small.arguments, small.globals, small.entries, fun other among =>
          small.routines other (List.map_subset _ (List.take_subset _ _) among)⟩
      obtain ⟨_, holds⟩ := definition.holds_body
      have body := typed.resolved fewer (fun _ _ => ⟨0, rfl⟩) holds
      rcases Routine.ofBody?_code definition.laidOut with ⟨_, code⟩ | ⟨_, code⟩
      · rw [code] at body ⊢
        exact body
      · rw [code] at body ⊢
        exact everywhere_append.mpr ⟨body, everywhere_cons.mpr ⟨trivial, everywhere_nil⟩⟩
  · have small := analyze_entrySmall accepted (by omega)
    obtain ⟨signature, locals⟩ := checked.entry_head
    refine ⟨checked.entrySetting, ⟨rfl, locals.symm, ?_, ?_, ?_⟩, ?_⟩
    · simp [CheckedProgram.entrySetting, Analysis.globalScope, Signature.argumentTypes, signature,
        Signature.returnSlots]
    · simpa [CheckedProgram.entrySetting] using globals
    · rw [List.take_of_length_le (Nat.le_succ _)]
      rfl
    · have typed : (Stmt.ofList checked.initializers).Typed checked.entrySetting :=
        Stmt.typed_ofList fun stmt member => (analyze_initializer accepted member).2
      have holds := holds_self checked.entry.code.toList
      rw [checked.entry_code] at holds ⊢
      simp only [holds_append, everywhere_append, everywhere_cons, everywhere_nil, and_true] at holds ⊢
      have main := CheckedProgram.routineAt?_main accepted
      exact ⟨typed.resolved small (fun _ _ => ⟨0, rfl⟩) holds.1, trivial, checked.main,
        (Setting.toNat_routine small main).symm ▸ main⟩

/-- The operands of a compiled program refer to what is there, and its functions have names and
addresses of their own. -/
structure Program.Resolves (program : Program) : Prop where
  calls : ∀ (i : Nat) (routine : Routine) (address : UInt32), program.routines[i]? = some routine →
    .indexed .call address ∈ routine.code.toList → ∃ j callee, j ≤ i ∧
      program.routines[j]? = some callee ∧ callee.address = address.toNat ∧
      program.directory.entries[address.toNat]? = some (.routine callee.name) ∧
      ∀ k other, program.routines[k]? = some other → other.name = callee.name → k = j
  libraries : ∀ routine ∈ program.routines, ∀ address : UInt32,
    .indexed .callname address ∈ routine.code.toList →
      ∃ function, program.directory.entries[address.toNat]? = some (.library function)
  texts : ∀ routine ∈ program.routines, ∀ (p : Nat) (address : UInt32),
    routine.code.toList[p]? = some (.indexed .callname address) →
      program.directory.entries[address.toNat]? = some (.library .putStr) →
      ∃ q word value, p = q + 1 ∧ routine.code.toList[q]? = some (.push word) ∧
        program.directory.entries[word.toNat]? = some (.text value)
  frames : ∀ routine ∈ program.routines, ∀ slot : UInt32,
    .indexed .loca slot ∈ routine.code.toList → slot.toNat < routine.locals
  statics : ∀ routine ∈ program.routines, ∀ slot : UInt32,
    .indexed .globa slot ∈ routine.code.toList → slot.toNat < program.globals.length
  /-- A return without a value has the address of the first argument slot before it. -/
  arguments : ∀ routine ∈ program.routines, ∀ (p : Nat) (offset : UInt32),
    routine.code.toList[p]? = some (.indexed .arga offset) →
      offset.toNat < routine.returnSlots + routine.params.length ∨
      offset = 0 ∧ routine.code.toList[p + 1]? = some (.plain .ret)
  names : (program.routines.map (·.name)).Nodup
  addresses : (program.routines.map (·.address)).Nodup
  registered : ∀ routine ∈ program.routines,
    program.directory.address? (.routine routine.name) = some routine.address
  last : ∃ routine, program.routines.getLast? = some routine ∧ routine.name = entryName ∧
    program.directory.entries.getLast? = some (.routine entryName)

section

variable {source : String} {options : Options} {checked : CheckedProgram}
  (accepted : analyze source options = .ok checked)

include accepted

theorem analyze_nodup_entries : checked.directory.entries.Nodup := by
  obtain ⟨s, items, _, _, _, entries, _, absent⟩ := analyze_listed accepted
  rw [entries, List.nodup_append]
  exact ⟨items.nodup_entries, by simp, by
    rintro entry member _ last rfl
    exact absent (List.mem_singleton.mp last ▸ member)⟩

/-- A function stands in the directory at its address. -/
theorem analyze_entryAt {routine : Routine} (member : routine ∈ checked.program.routines) :
    checked.directory.entries[routine.address]? = some (.routine routine.name) := by
  obtain ⟨s, items, _, definitions, _, entries, address, _⟩ := analyze_listed accepted
  obtain ⟨i, here⟩ := List.mem_iff_getElem?.mp member
  rcases CheckedProgram.routine_cases here with ⟨definition, found, rfl⟩ | ⟨_, rfl⟩
  · rw [(Routine.ofBody?_head definition.laidOut).1, entries]
    exact getElem?_of_prefix (List.prefix_append _ _)
      (items.listed.addressed definition (definitions ▸ List.mem_of_getElem? found))
  · rw [checked.entry_head.1, entries, address]
    simp [Directory.size]

theorem analyze_nodup_names : (checked.program.routines.map (·.name)).Nodup := by
  obtain ⟨s, items, _, definitions, _, entries, _⟩ := analyze_listed accepted
  have names : checked.program.routines.map (·.name) =
      checked.directory.entries.filterMap Entry.routine? := by
    have own (definition : Definition) : definition.routine.name = definition.signature.name := by
      rw [(Routine.ofBody?_head definition.laidOut).1]
    rw [CheckedProgram.program, List.map_append, List.map_map, entries, List.filterMap_append,
      items.listed.routineEntries, ← definitions, List.map_cons, checked.entry_head.1]
    simp [own, Entry.routine?]
  rw [names]
  refine (analyze_nodup_entries accepted).filterMap fun entry other name first second => ?_
  cases entry <;> cases other <;> simp_all [Entry.routine?]

theorem analyze_nodup_addresses : (checked.program.routines.map (·.address)).Nodup := by
  have names := (analyze_nodup_names accepted).map (fun _ _ => Option.some.inj)
  refine List.Nodup.of_map (fun address => checked.directory.entries[address]?.bind Entry.routine?) ?_
  rw [List.map_map] at names ⊢
  rwa [List.map_congr_left fun routine member => ?_]
  simp only [Function.comp_apply, analyze_entryAt accepted member]
  rfl

omit accepted in
/-- The functions that a function calls stand before it or are the function itself. -/
theorem Setting.Limits.callee {setting : Setting} {routine : Routine} {i address : Nat}
    {signature : Signature} (limits : setting.Limits checked i routine)
    (found : setting.routineAt? address = some signature) :
    ∃ j callee, j ≤ i ∧ checked.program.routines[j]? = some callee ∧ callee.address = address := by
  have named : signature.address = address := by simpa using List.find?_some found
  have member := List.mem_of_find?_eq_some found
  rw [limits.routines, List.mem_map] at member
  obtain ⟨definition, among, rfl⟩ := member
  obtain ⟨j, here⟩ := List.mem_iff_getElem?.mp among
  rw [List.getElem?_take] at here
  split at here
  · refine ⟨j, definition.routine, by omega, ?_, ?_⟩
    · rw [CheckedProgram.program, List.getElem?_append_left]
      · simp [here]
      · simpa using (List.getElem?_eq_some_iff.mp here).1
    · rw [(Routine.ofBody?_head definition.laidOut).1, named]
  · simp at here

/-- An instruction at a position of a function refers to what is there. -/
theorem analyze_instruction {routine : Routine} {i p : Nat} {instruction : Instruction}
    (short : source.utf8ByteSize < 2 ^ 30) (here : checked.program.routines[i]? = some routine)
    (found : routine.code.toList[p]? = some instruction) : ∃ setting : Setting,
      setting.Limits checked i routine ∧ setting.Resolved routine.code.toList p instruction := by
  obtain ⟨setting, limits, resolved⟩ := analyze_resolved accepted short here
  have at' := resolved p instruction found
  rw [Nat.zero_add] at at'
  exact ⟨setting, limits, at'⟩

theorem analyze_program_resolves (short : source.utf8ByteSize < 2 ^ 30) :
    checked.program.Resolves := by
  have unique := analyze_nodup_names accepted
  have somewhere {routine : Routine} (member : routine ∈ checked.program.routines)
      {instruction : Instruction} (among : instruction ∈ routine.code.toList) :
      ∃ (i p : Nat) (setting : Setting), setting.Limits checked i routine ∧
        setting.Resolved routine.code.toList p instruction := by
    obtain ⟨i, here⟩ := List.mem_iff_getElem?.mp member
    obtain ⟨p, found⟩ := List.mem_iff_getElem?.mp among
    exact ⟨i, p, analyze_instruction accepted short here found⟩
  refine ⟨fun i routine address here among => ?_, fun routine member address among => ?_,
    fun routine member p address found named => ?_, fun routine member slot among => ?_,
    fun routine member slot among => ?_, fun routine member p offset found => ?_, unique,
    analyze_nodup_addresses accepted, fun routine member => ?_, checked.entry, ?_, ?_, ?_⟩
  · obtain ⟨p, found⟩ := List.mem_iff_getElem?.mp among
    obtain ⟨setting, limits, signature, known⟩ := analyze_instruction accepted short here found
    obtain ⟨j, callee, before, there, address⟩ := limits.callee known
    have entry := analyze_entryAt accepted (List.mem_of_getElem? there)
    refine ⟨j, callee, before, there, address, address ▸ entry, fun k other elsewhere same => ?_⟩
    have inside : k < (checked.program.routines.map (·.name)).length := by
      simpa using (List.getElem?_eq_some_iff.mp elsewhere).1
    refine (List.getElem?_inj inside unique).mp ?_
    simp [elsewhere, there, same]
  · obtain ⟨_, _, setting, limits, function, known, _⟩ := somewhere member among
    have entry := Setting.entry_of_libraryAt? known
    rw [limits.directory] at entry
    exact ⟨function, entry⟩
  · obtain ⟨i, here⟩ := List.mem_iff_getElem?.mp member
    obtain ⟨setting, limits, function, known, text⟩ :=
      analyze_instruction accepted short here found
    have entry := Setting.entry_of_libraryAt? known
    rw [limits.directory] at entry text
    cases named.symm.trans entry
    exact text rfl
  · obtain ⟨_, _, setting, limits, inside⟩ := somewhere member among
    exact limits.locals ▸ inside
  · obtain ⟨_, _, setting, limits, inside⟩ := somewhere member among
    exact limits.globals ▸ inside
  · obtain ⟨i, here⟩ := List.mem_iff_getElem?.mp member
    obtain ⟨setting, limits, inside⟩ := analyze_instruction accepted short here found
    exact limits.arguments ▸ inside
  · exact Directory.address?_of_getElem? (analyze_nodup_entries accepted)
      (analyze_entryAt accepted member)
  · simp [CheckedProgram.program]
  · rw [checked.entry_head.1]
  · obtain ⟨s, _, _, _, _, entries, _⟩ := analyze_listed accepted
    simp [CheckedProgram.program, entries]

end

/-- What the operands of an accepted source refer to is there. Between its functions and
declarations, whether it is accepted or not, the tables of the globals agree. -/
theorem compile_resolves (source : String) (options : Options)
    (short : source.utf8ByteSize < 2 ^ 30) :
    (∀ program, compile source options = .ok program → program.Resolves) ∧
    ∀ s, ReflTransGen (ItemStep options.maxNestingDepth) (.ofSource source) s → s.Aligned := by
  refine ⟨fun program compiled => ?_, fun s steps => (ItemStep.readsItems steps).aligned⟩
  obtain ⟨checked, accepted, rfl⟩ := exists_checked_of_compile compiled
  exact analyze_program_resolves accepted short

/-- A recursive function, calls of functions and library functions, a text, a return without a value,
and globals between the functions. -/
theorem compile_resolves_calls : ∃ program : Program,
    compile ("let n: int = 2; fn f(x: int) -> int \x7b putstr(\"f\"); if x > n \x7b return f(x - n); \x7d " ++
      "return x; \x7d const c: int = f(n); fn main() -> void \x7b let y: int = c; putint(f(y)); return; \x7d") {} =
      .ok program ∧
    program.routines.map (·.code.size) = [27, 12, 11] ∧ program.Resolves := by
  generalize text : "let n: int = 2; fn f(x: int) -> int \x7b putstr(\"f\"); if x > n \x7b return f(x - n); \x7d " ++
      "return x; \x7d const c: int = f(n); fn main() -> void \x7b let y: int = c; putint(f(y)); return; \x7d" = source
  have short : source.utf8ByteSize < 2 ^ 30 := by
    subst text
    decide +kernel
  have sized : (match compile source {} with
      | .ok program => program.routines.map (·.code.size) == [27, 12, 11]
      | .error _ => false) = true := by
    subst text
    decide +kernel
  cases compiled : compile source {} with
  | error fault => simp [compiled] at sized
  | ok program =>
    simp only [compiled, beq_iff_eq] at sized
    exact ⟨program, rfl, sized, (compile_resolves source {} short).1 program compiled⟩

end C0
