import C0.Proofs.StackSafety

namespace C0

/-- What the code of the entry function can refer to. It has no parameters and no variables. -/
def CheckedProgram.entrySetting (checked : CheckedProgram) : Setting where
  signature := Analysis.globalScope.signature
  locals := []
  globals := (checked.initializers.flatMap Stmt.declarations).map Symbol.ty
  routines := checked.definitions.map Definition.signature
  directory := checked.directory

/-- A global of a program was declared somewhere between its start and its end. -/
theorem ReadsItems.of_mem_initializers {origin s : State} {stmt : Stmt}
    (items : ReadsItems origin s) (fresh : origin.initializers = [])
    (member : stmt ∈ s.initializers) :
    ∃ t u symbol value, stmt = .declare symbol value ∧ ReadsItems origin t ∧
      ReadsDeclaration Analysis.globalScope symbol t value u ∧
      ReadsItems (u.withInitializer stmt) s := by
  induction items with
  | start => simp [fresh] at member
  | function items reads ih =>
    rw [reads.items.2] at member
    obtain ⟨t, u, symbol, value, same, first, found, rest⟩ := ih member
    exact ⟨t, u, symbol, value, same, first, found, rest.function reads⟩
  | @global t u symbol value items reads ih =>
    simp only [State.withInitializer, List.mem_append, List.mem_singleton, reads.items.2] at member
    rcases member with before | rfl
    · obtain ⟨v, w, other, first, same, begins, found, rest⟩ := ih before
      exact ⟨v, w, other, first, same, begins, found, rest.global reads⟩
    · exact ⟨t, u, symbol, value, rfl, items, reads, .start⟩

/-- The first values of the globals of an accepted source have types that agree. -/
theorem analyze_initializer {source : String} {options : Options} {checked : CheckedProgram}
    {stmt : Stmt} (accepted : analyze source options = .ok checked)
    (member : stmt ∈ checked.initializers) :
    (∃ symbol value, stmt = .declare symbol value) ∧ stmt.Typed checked.entrySetting := by
  obtain ⟨s, t, main, items, ⟨_, rfl⟩, _, rfl⟩ := analyze_reads accepted
  obtain ⟨u, v, symbol, value, rfl, before, reads, after⟩ := items.of_mem_initializers rfl member
  have settled := before.settled (.initial _)
  have distinct := (items.settled (.initial _)).distinct
  have grown := after.grows
  have globals : (v.withInitializer (.declare symbol value)).globalSymbols.map Symbol.ty <+:
      (Analysis.checkedAt s.advanced main.signature).entrySetting.globals :=
    (List.IsPrefix.flatMap grown.2.1 Stmt.declarations).map Symbol.ty
  have earlier : u.initializers <+: (v.withInitializer (.declare symbol value)).initializers := by
    rw [State.withInitializer, ← reads.items.2]
    exact List.prefix_append _ _
  refine ⟨⟨symbol, value, rfl⟩, (reads.typed ⟨rfl, by simp [Analysis.globalScope], ?_, ?_, ?_⟩
    ((reads.settled settled).fits globals ?_) ?_).1⟩
  · intro other among
    refine settled.fits ?_ among
    exact ((List.IsPrefix.flatMap earlier Stmt.declarations).map Symbol.ty).trans globals
  · intro other
    exact absurd rfl other
  · intro definition among
    refine find?_address distinct (grown.1.subset ?_)
    rwa [State.withInitializer, reads.items.1]
  · have last : symbol ∈ (v.withInitializer (.declare symbol value)).globalSymbols := by
      simp [State.globalSymbols, State.withInitializer, Stmt.declarations]
    rw [(reads.settled settled).cores, List.mem_reverse]
    exact last
  · exact grown.2.2.trans (State.entries_registered _ _)

/-- Statements one after the other have types that agree if each has. -/
theorem Stmt.typed_ofList {setting : Setting} {stmts : List Stmt}
    (typed : ∀ stmt ∈ stmts, stmt.Typed setting) : (Stmt.ofList stmts).Typed setting := by
  induction stmts with
  | nil => trivial
  | cons first rest ih =>
    rw [List.forall_mem_cons] at typed
    exact ⟨typed.1, ih typed.2⟩

/-- The entry function has the code of the declarations, and then calls `main`. -/
theorem CheckedProgram.entry_eq (checked : CheckedProgram) :
    checked.entry = (Routine.ofSignature ⟨entryName, checked.entryAddress, [], .void⟩ ⟨0⟩).coded
      ((Stmt.ofList checked.initializers).assembled (fun _ _ => openBranch) 0 ++
        [.indexed .stackalloc (UInt32.ofNat checked.main.returnSlots),
          .indexed .call (UInt32.ofNat checked.main.address)])
      (Stmt.ofList checked.initializers).returns := by
  simp only [entry, Stmt.layOut_ofSignature, Routine.append_coded]

theorem CheckedProgram.entry_code (checked : CheckedProgram) :
    checked.entry.code.toList =
      (Stmt.ofList checked.initializers).assembled (fun _ _ => openBranch) 0 ++
        [.indexed .stackalloc (UInt32.ofNat checked.main.returnSlots),
          .indexed .call (UInt32.ofNat checked.main.address)] := by
  rw [entry_eq]
  rfl

/-- The entry function has no parameters, no value and no local slots. -/
theorem CheckedProgram.entry_head (checked : CheckedProgram) :
    checked.entry.toSignature = ⟨entryName, checked.entryAddress, [], .void⟩ ∧
      checked.entry.locals = 0 := by
  rw [entry_eq]
  exact ⟨rfl, rfl⟩

namespace CheckedProgram

variable {source : String} {options : Options} {checked : CheckedProgram}
  (accepted : analyze source options = .ok checked)

include accepted

/-- The function to start with is one of the program. -/
theorem main_mem : ∃ definition ∈ checked.definitions, definition.signature = checked.main := by
  obtain ⟨s, t, main, _, _, found, rfl⟩ := analyze_reads accepted
  exact ⟨main, List.mem_of_find?_eq_some found, rfl⟩

theorem routineAt?_main :
    checked.entrySetting.routineAt? checked.main.address = some checked.main := by
  obtain ⟨definition, member, same⟩ := main_mem accepted
  obtain ⟨s, t, main, items, ⟨_, rfl⟩, _, rfl⟩ := analyze_reads accepted
  rw [← same]
  exact find?_address (items.settled (.initial _)).distinct member

end CheckedProgram

/-- In a source of less than 2^32 - 1 bytes all operands of the entry function are exact. -/
theorem analyze_entrySmall {source : String} {options : Options} {checked : CheckedProgram}
    (accepted : analyze source options = .ok checked)
    (short : source.utf8ByteSize < 2 ^ 32 - 1) : checked.entrySetting.Small := by
  obtain ⟨s, t, main, items, ⟨_, rfl⟩, _, rfl⟩ := analyze_reads accepted
  have settled := items.settled (.initial _)
  have paid : s.budget < 2 ^ 32 - 1 := Nat.lt_of_le_of_lt
    (Nat.le_trans items.budget_le (State.budget_ofSource source)) short
  unfold State.budget at paid
  refine ⟨by simp [CheckedProgram.entrySetting], ?_, ?_, ?_, ?_⟩
  · simp [CheckedProgram.entrySetting, Analysis.globalScope, Signature.argumentTypes,
      Signature.returnSlots, Ty.slots]
  · have count := settled.count
    simp only [CheckedProgram.entrySetting, Analysis.checkedAt, List.length_map]
    change s.globalSymbols.length < 2 ^ 32
    omega
  · have entries := s.directory.size_register (.routine entryName)
    exact Nat.lt_of_le_of_lt entries (by omega)
  · intro signature among
    obtain ⟨other, known, rfl⟩ := List.mem_map.mp among
    have := settled.addressed other known
    omega

end C0
