import C0.Proofs.Entities
import Mathlib.Data.List.Induction

namespace C0

open Relation (ReflTransGen)

theorem nodup_eraseDups {α : Type} [BEq α] [LawfulBEq α] (l : List α) : l.eraseDups.Nodup := by
  induction l using List.reverseRecOn with
  | nil => exact .nil
  | append_singleton l a ih =>
    rw [List.eraseDups_append]
    by_cases known : a ∈ l
    · simpa [List.removeAll, known] using ih
    · have last : ([a].removeAll l).eraseDups = [a] := by
        simp [List.removeAll, known, List.eraseDups_cons]
      rw [last, List.nodup_append]
      refine ⟨ih, by simp, ?_⟩
      rintro b member _ same rfl
      rw [List.mem_singleton.mp same, List.mem_eraseDups] at member
      exact known member

/-- Different entries have different addresses. -/
theorem ReadsItems.nodup_entries {source : String} {s : State}
    (items : ReadsItems (.ofSource source) s) : s.directory.entries.Nodup := by
  obtain ⟨found, registers, _⟩ := items.registers
  rw [registers.added [] rfl]
  exact nodup_eraseDups _

/-- An entry that is new gets the next address, and nothing with a name follows it. -/
theorem Introduces.entries {entry : Entry} {s t : State} (introduces : Introduces entry s t)
    {seen : List Entry} (same : s.directory.entries = seen.eraseDups)
    (fresh : entry ∉ s.directory.entries) :
    ∃ new, Nameless new ∧ t.directory.entries = s.directory.entries ++ entry :: new := by
  obtain ⟨more, nameless, registers⟩ := introduces
  have absent : entry ∉ seen := by
    rw [same] at fresh
    exact fun member => fresh (List.mem_eraseDups.mpr member)
  have first : (entry :: more).removeAll seen = entry :: more.removeAll seen := by
    simp [List.removeAll, absent]
  refine ⟨((more.removeAll seen).filter fun other => !other == entry).eraseDups, ?_, ?_⟩
  · intro other member
    rw [List.mem_eraseDups, List.mem_filter, List.removeAll, List.mem_filter] at member
    exact nameless other member.1.1
  · rw [registers.added seen same, List.eraseDups_append, ← same, first, List.eraseDups_cons]

/-- The name of the global that an entry is. -/
def Entry.global? : Entry → Option String
  | global name => some name
  | _ => none

/-- The name of the function that an entry is. -/
def Entry.routine? : Entry → Option String
  | routine name => some name
  | _ => none

/-- Of some entries that are added only the first can be a function or a global. -/
theorem Nameless.filterMap {new : List Entry} (nameless : Nameless new) (old : List Entry)
    (entry : Entry) :
    (old ++ entry :: new).filterMap Entry.global? =
        old.filterMap Entry.global? ++ entry.global?.toList ∧
      (old ++ entry :: new).filterMap Entry.routine? =
        old.filterMap Entry.routine? ++ entry.routine?.toList := by
  have nothing : new.filterMap Entry.global? = [] ∧ new.filterMap Entry.routine? = [] := by
    simp only [List.filterMap_eq_nil_iff]
    constructor <;> intro other member <;> cases other with
    | routine name | global name => simpa [Entry.isNamed] using nameless _ member name
    | _ => rfl
  rw [List.filterMap_append, List.filterMap_append, List.filterMap_cons, List.filterMap_cons,
    nothing.1, nothing.2]
  cases entry <;> exact ⟨rfl, rfl⟩

/-- A symbol as a global of the program. -/
def Symbol.toGlobal (symbol : Symbol) : GlobalVariable :=
  ⟨symbol.name, symbol.isConst⟩

/-- The tables of a state between functions and declarations of globals list the same globals and
the same functions, and functions have the addresses of their names. -/
structure State.Listed (s : State) : Prop where
  globals : s.globals = s.globalSymbols.map Symbol.toGlobal
  globalEntries : s.directory.entries.filterMap Entry.global? = s.globals.map GlobalVariable.name
  routineEntries : s.directory.entries.filterMap Entry.routine? = s.definitions.map (·.signature.name)
  addressed : ∀ definition ∈ s.definitions, s.directory.entries[definition.signature.address]? =
    some (.routine definition.signature.name)

theorem State.Step.globals {s t : State} (steps : ReflTransGen State.Step s t) :
    t.globals = s.globals := by
  induction steps with
  | refl => rfl
  | tail _ step ih =>
    rw [← ih]
    cases step with
    | take _ takes => exact takes.globals
    | register => rfl
    | @mark v =>
      unfold State.initialized
      cases v.rank <;> rfl

theorem ReadsFunction.globals {definition : Definition} {s t : State}
    (reads : ReadsFunction definition s t) : t.globals = s.globals := by
  cases reads with
  | @function t u v w head opening body closing =>
    have inBody := (body.addsNameless (by simp [Definition.scope])).globals
    have inHead : t.globals = s.globals := State.Step.globals head.steps
    exact closing.globals.trans (inBody.trans (opening.globals.trans inHead))

theorem ReadsDeclaration.globals {symbol : Symbol} {value : Option Expr} {s t : State}
    (reads : ReadsDeclaration Analysis.globalScope symbol s value t) :
    t.globals = s.globals ++ [symbol.toGlobal] := by
  have declared {u : State} (declares : Declares Analysis.globalScope symbol s u) :
      u.globals = s.globals ++ [symbol.toGlobal] := by
    cases declares with
    | @head t u v w x word named _ colon typed _ allocated ranked =>
      obtain ⟨_, rfl⟩ := Prod.mk.inj allocated
      have before : w.globals = s.globals := by
        rw [typed.globals, colon.globals, named.globals, word.globals]
      have published : (w.declared symbol).published symbol =
          { (w.declared symbol).registered (.global symbol.name) with
            globals := w.globals ++ [⟨symbol.name, symbol.isConst⟩] } := if_pos ranked
      rw [published, ← before]
      rfl
  cases reads with
  | bare declares _ ends => rw [ends.globals, declared declares]
  | given declares sign value _ ends =>
    rw [State.Step.globals (sign.steps (by simp) ((value.steps.tail .mark).tail
      (.take (by simp) ends))), declared declares]

theorem Directory.not_mem_of_containsName {directory : Directory} {entry : Entry} {name : String}
    (free : directory.containsName name = false) (named : entry.isNamed name = true) :
    entry ∉ directory.entries := by
  intro member
  simp only [containsName, List.any_eq_false] at free
  exact free entry member named

/-- A declaration of a global has a name that is free. -/
theorem ReadsDeclaration.fresh {symbol : Symbol} {value : Option Expr} {s t : State}
    (reads : ReadsDeclaration Analysis.globalScope symbol s value t) :
    s.directory.containsName symbol.name = false := by
  have declared {u : State} (declares : Declares Analysis.globalScope symbol s u) :
      s.directory.containsName symbol.name = false := by
    cases declares with
    | head word named free =>
      obtain ⟨⟨_, rfl⟩, ⟨_, rfl⟩⟩ := And.intro word named
      simp only [State.isTaken, Analysis.globalScope, if_true, Bool.or_eq_false_iff] at free
      exact free.2
  cases reads with
  | bare declares | given declares => exact declared declares

theorem ReadsItems.listed {source : String} {s : State} (items : ReadsItems (.ofSource source) s) :
    s.Listed := by
  induction items with
  | start => exact ⟨rfl, rfl, rfl, by simp [State.ofSource, State.initial]⟩
  | @function s t definition items reads ih =>
    obtain ⟨found, registers, _⟩ := items.registers
    have free := reads.free
    simp only [Analysis.isTakenForFunction, Bool.or_eq_false_iff] at free
    obtain ⟨new, nameless, entries⟩ := reads.introduces.entries (registers.added [] rfl)
      (Directory.not_mem_of_containsName free.2 (by simp [Entry.isNamed]))
    obtain ⟨definitions, initializers⟩ := reads.items
    obtain ⟨globals, routines⟩ := nameless.filterMap s.directory.entries
      (.routine definition.signature.name)
    refine ⟨?_, ?_, ?_, ?_⟩
    · rw [reads.globals, ih.globals, State.globalSymbols, State.globalSymbols, initializers]
    · rw [entries, globals, ih.globalEntries, reads.globals]
      exact List.append_nil _
    · rw [entries, routines, ih.routineEntries, definitions, List.map_append]
      rfl
    -- An earlier function keeps its address, and the new one has the first that is free.
    · intro other member
      rw [definitions, List.mem_append, List.mem_singleton] at member
      rcases member with early | rfl
      · exact getElem?_of_prefix reads.entries (ih.addressed other early)
      · have address : other.signature.address = s.directory.entries.length := by
          cases reads with
          | function head => exact head.signature.1
        rw [entries, address, List.getElem?_append_right (Nat.le_refl _)]
        simp
  | @global s t symbol value items reads ih =>
    obtain ⟨found, registers, _⟩ := items.registers
    obtain ⟨new, nameless, entries⟩ := reads.introduces.entries (registers.added [] rfl)
      (Directory.not_mem_of_containsName reads.fresh (by simp [Entry.isNamed]))
    obtain ⟨definitions, initializers⟩ := reads.items
    obtain ⟨globals, routines⟩ := nameless.filterMap s.directory.entries (.global symbol.name)
    refine ⟨?_, ?_, ?_, ?_⟩
    · simp [State.globalSymbols, State.withInitializer, initializers, Stmt.declarations,
        reads.globals, ih.globals]
    · rw [State.withInitializer, entries, globals, ih.globalEntries, reads.globals, List.map_append]
      rfl
    · rw [State.withInitializer, entries, routines, ih.routineEntries, definitions]
      exact List.append_nil _
    · intro other member
      have among : other ∈ s.definitions := definitions ▸ member
      have more := State.StmtStep.more_entries reads.steps
      exact getElem?_of_prefix more (ih.addressed other among)

/-- The symbols of a state are the globals of the program, in the same order and with the same names,
constness and slots, and so are the globals of the directory. The newest symbol is the first. -/
structure State.Aligned (s : State) : Prop where
  ranks : ∀ symbol ∈ s.symbols.symbols, symbol.rank = 0
  globals : s.symbols.symbols.reverse.map Symbol.toGlobal = s.globals
  slots : s.symbols.symbols.reverse.map Symbol.slot = List.range s.globals.length
  entries : s.directory.entries.filterMap Entry.global? = s.globals.map GlobalVariable.name

theorem ReadsItems.aligned {source : String} {s : State}
    (items : ReadsItems (.ofSource source) s) : s.Aligned := by
  have settled := items.settled (.initial _)
  have listed := items.listed
  have symbols {α : Type} (f : Symbol → α) (blind : ∀ symbol : Symbol, f symbol.core = f symbol) :
      s.symbols.symbols.reverse.map f = s.globalSymbols.map f := by
    have same : f ∘ Symbol.core = f := funext blind
    rw [← List.reverse_reverse s.globalSymbols, ← settled.cores, State.cores, ← List.map_reverse,
      List.map_map, same]
  refine ⟨fun symbol member => ?_, ?_, ?_, listed.globalEntries⟩
  · have core : symbol.core ∈ s.cores := List.mem_map_of_mem member
    exact Nat.le_zero.mp (settled.within symbol.core core)
  · rw [symbols Symbol.toGlobal fun _ => rfl, listed.globals]
  · rw [symbols Symbol.slot fun _ => rfl, listed.globals, List.length_map]
    refine List.ext_getElem? fun i => ?_
    rw [List.getElem?_map]
    cases here : s.globalSymbols[i]? with
    | none => simp [List.getElem?_eq_none_iff.mp here]
    | some symbol =>
      have inside := (List.getElem?_eq_some_iff.mp here).1
      simp [(settled.globals i symbol here).2.1, List.getElem?_range inside]

/-- An entry has the address at which it stands, as no other address has it. -/
theorem Directory.address?_of_getElem? {directory : Directory} {address : Nat} {entry : Entry}
    (distinct : directory.entries.Nodup) (here : directory.entries[address]? = some entry) :
    directory.address? entry = some address := by
  obtain ⟨inside, same⟩ := List.getElem?_eq_some_iff.mp here
  refine List.idxOf?_eq_some_iff.mpr ⟨inside, same, fun j before equal => ?_⟩
  exact List.pairwise_iff_getElem.mp distinct j address _ inside before (equal.trans same.symm)

/-- An entry that is new gets the next address. -/
theorem State.register_new {s : State} {entry : Entry} (absent : entry ∉ s.directory.entries) :
    (s.register entry).1 = s.directory.size ∧
      (s.registered entry).directory.entries = s.directory.entries ++ [entry] := by
  have unknown : s.directory.address? entry = none := List.idxOf?_eq_none_iff.mpr absent
  simp [State.registered, State.register, Directory.register, unknown]

/-- What holds of the tables of an accepted source: the entry function stands behind the entries of
the items, and functions have the addresses of their names. -/
theorem analyze_listed {source : String} {options : Options} {checked : CheckedProgram}
    (accepted : analyze source options = .ok checked) :
    ∃ s, ReadsItems (.ofSource source) s ∧ checked.globals = s.globals ∧
      checked.definitions = s.definitions ∧ checked.initializers = s.initializers ∧
      checked.directory.entries = s.directory.entries ++ [.routine entryName] ∧
      checked.entryAddress = s.directory.size ∧ .routine entryName ∉ s.directory.entries := by
  obtain ⟨s, t, main, items, ⟨_, rfl⟩, _, rfl⟩ := analyze_reads accepted
  obtain ⟨found, registers, absent⟩ := items.registers
  have new : .routine entryName ∉ s.directory.entries := by
    rw [registers.added [] rfl]
    exact fun member => absent (List.mem_eraseDups.mp member)
  obtain ⟨address, entries⟩ := State.register_new new
  exact ⟨s, items, rfl, rfl, rfl, entries, address, new⟩

end C0
