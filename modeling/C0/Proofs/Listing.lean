import C0.Proofs.Listing.Lines
import C0.Proofs.Resolution
import C0.Proofs.Spelling.Recognition

namespace C0

/-- A token other than the end has one of the texts of its kind. -/
theorem Scanner.spelled_of_mem_lexemes {n : Nat} {scanner : Scanner} {kind : Kind}
    (found : .ok kind ∈ (scanner.lexemes n).map Lexeme.reading) (more : kind ≠ .eof) :
    ∃ text, kind.Spelled text := by
  induction n generalizing scanner with
  | zero => simp [lexemes] at found
  | succ n ih =>
    simp only [lexemes, List.map_cons, List.mem_cons] at found
    rcases found with here | later
    · have reading : (Piece.first scanner.skip.rest).reading = .ok kind := here.symm
      refine ⟨_, Piece.spelled_of_first (fun none => more ?_) reading⟩
      rw [none] at reading
      exact (Except.ok.inj reading).symm
    · split at later
      · simp at later
      · exact ih later

/-- A name has no line end in it. -/
theorem Kind.Spelled.name_plain {name : String} {text : List Char}
    (spelled : Kind.Spelled (.identifier name) text) : '\n' ∉ name.toList := by
  have lineEnd : continuesName '\n' = false := Text.continuesName_of_isBlank (by decide +kernel)
  generalize same : Kind.identifier name = kind at spelled
  cases spelled with
  | @identifier c rest starts continues =>
    rw [Kind.identifier.inj same, String.toList_ofList]
    intro member
    rcases List.mem_cons.mp member with rfl | later
    · simp [startsName_continues starts] at lineEnd
    · simp [continues _ later] at lineEnd
  | _ => cases same

/-- What a token names fits on one line if the name behind it does. -/
theorem Kind.entities_plain {kind : Kind} {depth : Nat} {next : Option Reading} {entry : Entry}
    (names : ∀ name, next = some (.ok (.identifier name)) → '\n' ∉ name.toList)
    (member : entry ∈ kind.entities depth next) : '\n' ∉ entry.subject.toList := by
  have library (function : Library) : '\n' ∉ (Entry.library function).subject.toList := by
    cases function <;> decide
  unfold entities at member
  split at member
  · rw [List.mem_singleton.mp member]
    exact names _ rfl
  · split at member
    · rw [List.mem_singleton.mp member]
      exact names _ rfl
    · cases member
  · split at member
    · rw [List.mem_singleton.mp member]
      exact names _ rfl
    · cases member
  · obtain ⟨function, -, rfl⟩ := List.mem_map.mp member
    exact library function
  · rw [List.mem_singleton.mp member]
    exact Text.quoted_plain _
  · cases member

theorem entities_plain {depth : Nat} {readings : List Reading} {entry : Entry}
    (names : ∀ name, .ok (.identifier name) ∈ readings → '\n' ∉ name.toList)
    (member : entry ∈ entities depth readings) : '\n' ∉ entry.subject.toList := by
  fun_induction entities depth readings with
  | case1 => cases member
  | case2 => cases member
  | case3 => cases member
  | case4 depth kind rest _ ih =>
    have later (name : String) (among : .ok (.identifier name) ∈ rest) : '\n' ∉ name.toList :=
      names name (List.mem_cons_of_mem _ among)
    rcases List.mem_append.mp member with here | more
    · exact Kind.entities_plain (fun name next => later name (List.mem_of_mem_head? next)) here
    · exact ih later more

/-- Where no two globals have one name, a name tells whether its global is constant. -/
theorem Program.isConstant_of_mem {program : Program} {v : GlobalVariable}
    (distinct : (program.globals.map GlobalVariable.name).Nodup) (member : v ∈ program.globals) :
    program.isConstant v.name = v.isConst := by
  have only (w : GlobalVariable) (among : w ∈ program.globals) (same : w.name = v.name) : w = v :=
    List.inj_on_of_nodup_map distinct among member same
  rw [Bool.eq_iff_iff]
  simp only [isConstant, List.any_eq_true, Bool.and_eq_true, beq_iff_eq]
  constructor
  · rintro ⟨w, among, same, isConst⟩
    exact only w among same ▸ isConst
  · exact fun isConst => ⟨v, member, rfl, isConst⟩

section

variable {source : String} {options : Options} {checked : CheckedProgram}
  (accepted : analyze source options = .ok checked)

include accepted

/-- No name of an accepted source has a line end in it. -/
theorem analyze_plain : checked.directory.Plain := by
  obtain ⟨s, items, _, _, _, entries, _⟩ := analyze_listed accepted
  obtain ⟨found, registers, _⟩ := items.registers
  intro entry member
  -- All entries but that of the entry function are named by tokens of the source.
  rw [entries, List.mem_append, List.mem_singleton] at member
  rcases member with early | rfl
  · rw [registers.added [] rfl, List.nil_append, List.mem_eraseDups] at early
    have named : entry ∈ entities 0 (State.ofSource source).rest := by
      rw [registers.named]
      exact List.mem_append_left _ early
    refine entities_plain (fun name among => ?_) named
    obtain ⟨text, spelled⟩ := Scanner.spelled_of_mem_lexemes among nofun
    exact spelled.name_plain
  · decide

/-- The globals of a program are those of its directory, in the same order. -/
theorem analyze_globals : checked.globals =
    (checked.directory.entries.filterMap Entry.global?).map fun name =>
      ⟨name, checked.program.isConstant name⟩ := by
  obtain ⟨s, items, same, _, _, entries, _⟩ := analyze_listed accepted
  have names : checked.directory.entries.filterMap Entry.global? =
      checked.globals.map GlobalVariable.name := by
    rw [entries, List.filterMap_append, items.listed.globalEntries, same]
    exact List.append_nil _
  have distinct : (checked.globals.map GlobalVariable.name).Nodup := by
    rw [← names]
    refine (analyze_nodup_entries accepted).filterMap fun entry other name first second => ?_
    cases entry <;> cases other <;> simp_all [Entry.global?]
  have itself (v : GlobalVariable) (member : v ∈ checked.globals) :
      (⟨v.name, checked.program.isConstant v.name⟩ : GlobalVariable) = v := by
    have constness : checked.program.isConstant v.name = v.isConst :=
      Program.isConstant_of_mem distinct member
    rw [constness]
  rw [names, List.map_map]
  exact (List.map_id _).symm.trans (List.map_congr_left fun v member => (itself v member).symm)

end

/-- The listing of a compiled program tells its directory, its globals with their constness, and of
each function the address, how many locals, parameters and return slots it has, and the code. -/
theorem compile_render_inj {source source' : String} {options options' : Options}
    {program program' : Program} (compiled : compile source options = .ok program)
    (compiled' : compile source' options' = .ok program')
    (same : program.render = program'.render) : program.directory = program'.directory ∧
      program.globals = program'.globals ∧
      List.Forall₂ Routine.Agrees program.routines program'.routines := by
  obtain ⟨checked, accepted, rfl⟩ := exists_checked_of_compile compiled
  obtain ⟨checked', accepted', rfl⟩ := exists_checked_of_compile compiled'
  obtain ⟨directory, constants, routines⟩ :=
    Program.listing_inj (analyze_plain accepted) (analyze_plain accepted') same
  refine ⟨directory, ?_, routines⟩
  change checked.globals = checked'.globals
  have entries : checked.directory.entries = checked'.directory.entries :=
    congrArg Directory.entries directory
  rw [analyze_globals accepted, analyze_globals accepted', ← entries]
  refine List.map_congr_left fun name member => ?_
  obtain ⟨entry, among, named⟩ := List.mem_filterMap.mp member
  cases entry <;> cases named
  rw [constants name among]

/-- Sources with the same listing may differ in layout, escapes and the names of parameters. -/
theorem compile_render_inj_layout : ∃ program program' : Program,
    compile ("const c: int = 1; fn f(x: int) -> int \x7b return x + c; \x7d " ++
      "fn main() -> void \x7b putstr(\"\\\"'\"); putint(f(2)); return; \x7d") {} = .ok program ∧
    compile ("const c: int=1; fn f(y: int)->int\x7breturn y+c;\x7d " ++
      "fn main()->void\x7bputstr(\"\\\"\\'\");putint(f(2)); return;\x7d") {} = .ok program' ∧
    program.render = program'.render ∧ program.directory = program'.directory ∧
    program.globals = program'.globals ∧
    List.Forall₂ Routine.Agrees program.routines program'.routines := by
  generalize text : "const c: int = 1; fn f(x: int) -> int \x7b return x + c; \x7d " ++
      "fn main() -> void \x7b putstr(\"\\\"'\"); putint(f(2)); return; \x7d" = source
  generalize text' : "const c: int=1; fn f(y: int)->int\x7breturn y+c;\x7d " ++
      "fn main()->void\x7bputstr(\"\\\"\\'\");putint(f(2)); return;\x7d" = source'
  have listed : (match compile source {} with
      | .ok program =>
        match compile source' {} with
        | .ok program' => program.render == program'.render
        | .error _ => false
      | .error _ => false) = true := by
    subst text text'
    decide +kernel
  cases compiled : compile source {} with
  | error fault => simp [compiled] at listed
  | ok program =>
    cases compiled' : compile source' {} with
    | error fault => simp [compiled, compiled'] at listed
    | ok program' =>
      simp only [compiled, compiled', beq_iff_eq] at listed
      exact ⟨program, program', rfl, rfl, listed, compile_render_inj compiled compiled' listed⟩

end C0
