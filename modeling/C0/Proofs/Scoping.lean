import C0.Proofs.Lexicon
import C0.Proofs.Reading.Items
import Mathlib.Data.List.Induction

namespace C0

/-- The cause is that of a name which is declared twice or not at all. -/
def Cause.isScope : Cause → Bool
  | notDeclared | duplicateDeclaration => true
  | _ => false

/-- The name, the slot and the rank of a symbol. -/
def Symbol.entry (symbol : Symbol) : String × Nat × Nat :=
  (symbol.name, symbol.slot, symbol.rank)

/-- Where the symbol of an entry is kept. -/
def entryPlace (entry : String × Nat × Nat) : Place :=
  if entry.2.2 = 0 then .static entry.2.1 else .frame entry.2.1

/-- The entries of open blocks. A block is one deeper than the blocks around it. -/
def blockEntries {α : Type} : List (List (String × α)) → List (String × α × Nat)
  | [] => []
  | block :: outer =>
    block.map (fun declared => (declared.1, declared.2, outer.length + 1)) ++ blockEntries outer

/-- The entries of globals, the last one first. -/
def globalEntries (globals : List String) : List (String × Nat × Nat) :=
  (globals.zipIdx.map fun global => (global.1, global.2, 0)).reverse

theorem globalEntries_append (globals : List String) (name : String) :
    globalEntries (globals ++ [name]) = (name, globals.length, 0) :: globalEntries globals := by
  simp [globalEntries, List.zipIdx_append]

theorem blockEntries_rank {α : Type} {blocks : List (List (String × α))} {entry : String × α × Nat}
    (member : entry ∈ blockEntries blocks) : entry.2.2 ≠ 0 ∧ entry.2.2 ≤ blocks.length := by
  induction blocks with
  | nil => simp [blockEntries] at member
  | cons block outer ih =>
    rcases List.mem_append.mp member with inBlock | outside
    · obtain ⟨declared, _, rfl⟩ := List.mem_map.mp inBlock
      simp
    · have := ih outside
      simp only [List.length_cons]
      omega

theorem globalEntries_rank {globals : List String} {entry : String × Nat × Nat}
    (member : entry ∈ globalEntries globals) : entry.2.2 = 0 := by
  simp only [globalEntries, List.mem_reverse, List.mem_map] at member
  obtain ⟨global, _, rfl⟩ := member
  rfl

/-- Searching the entries from the last one on finds the innermost block that has a name. -/
theorem lookup_blockEntries {α : Type} {blocks : List (List (String × α))} {rank : Nat}
    {name : String} (deep : blocks.length ≤ rank) :
    ((blockEntries blocks).find? fun entry =>
        entry.2.2 != 0 && entry.2.2 ≤ rank && entry.1 == name).map (·.2.1) =
      blocks.findSome? (·.lookup name) := by
  induction blocks with
  | nil => rfl
  | cons block outer ih =>
    simp only [List.length_cons] at deep
    have inBlock : ((block.map fun declared => (declared.1, declared.2, outer.length + 1)).find?
        fun entry => entry.2.2 != 0 && entry.2.2 ≤ rank && entry.1 == name).map (·.2.1) =
        block.lookup name := by
      induction block with
      | nil => rfl
      | cons declared block ih =>
        obtain ⟨other, slot⟩ := declared
        by_cases same : other = name
        · simp [same, deep]
        · have different : (name == other) = false := by simpa using Ne.symm same
          rw [List.lookup_cons, different, List.map_cons, List.find?_cons_of_neg (by simp [same])]
          exact ih
    rw [blockEntries, List.find?_append, Option.map_or, inBlock, ih (by omega),
      List.findSome?_cons]
    cases block.lookup name <;> rfl

theorem find?_blockEntries {blocks : List (List (String × Nat))} {rank : Nat} {name : String}
    (deep : blocks.length ≤ rank) :
    ((blockEntries blocks).find? fun entry =>
        entry.2.2 != 0 && entry.2.2 ≤ rank && entry.1 == name).map entryPlace =
      (blocks.findSome? (·.lookup name)).map .frame := by
  rw [← lookup_blockEntries deep, Option.map_map]
  refine Option.map_congr fun entry found => ?_
  exact if_neg (blockEntries_rank (List.mem_of_find?_eq_some found)).1

/-- Closing the innermost block leaves the entries of the blocks around it. -/
theorem filter_blockEntries {α : Type} {block : List (String × α)}
    {outer : List (List (String × α))} {globals : List (String × α × Nat)}
    (top : ∀ entry ∈ globals, entry.2.2 = 0) :
    (blockEntries (block :: outer) ++ globals).filter (fun entry => entry.2.2 != outer.length + 1) =
      blockEntries outer ++ globals := by
  have inBlock : (block.map fun declared => (declared.1, declared.2, outer.length + 1)).filter
      (fun entry => entry.2.2 != outer.length + 1) = [] := by
    refine List.filter_eq_nil_iff.mpr fun entry member => ?_
    obtain ⟨declared, _, rfl⟩ := List.mem_map.mp member
    simp
  have others : (blockEntries outer ++ globals).filter
      (fun entry => entry.2.2 != outer.length + 1) = blockEntries outer ++ globals := by
    refine List.filter_eq_self.mpr fun entry member => ?_
    simp only [bne_iff_ne]
    rcases List.mem_append.mp member with inner | global
    · have := (blockEntries_rank inner).2
      omega
    · rw [top entry global]
      omega
  rw [blockEntries, List.append_assoc, List.filter_append, inBlock, others, List.nil_append]

/-- Globals have different names, so the last one of a name is the first one. -/
theorem find?_globalEntries {globals : List String} {name : String} (distinct : globals.Nodup) :
    ((globalEntries globals).find? fun entry => entry.2.2 == 0 && entry.1 == name).map entryPlace =
      (globals.idxOf? name).map .static := by
  induction globals using List.reverseRecOn with
  | nil => rfl
  | append_singleton globals last ih =>
    rw [List.nodup_append] at distinct
    rw [globalEntries_append]
    by_cases same : last = name
    · have absent : name ∉ globals := fun member =>
        distinct.2.2 name member last (by simp) same.symm
      have place : (globals ++ [last]).idxOf? name = some globals.length := by
        rw [List.idxOf?_eq_some_iff]
        refine ⟨by simp, by simpa using same, fun j before => ?_⟩
        rw [List.getElem_append_left before]
        exact fun here => absent (here ▸ List.getElem_mem _)
      rw [place, List.find?_cons_of_pos (by simp [same])]
      rfl
    · have place : (globals ++ [last]).idxOf? name = globals.idxOf? name := by
        simp only [List.idxOf?, List.findIdx?_append]
        cases globals.findIdx? (· == name) <;> simp [same]
      rw [place, List.find?_cons_of_neg (by simp [same])]
      exact ih distinct.1

namespace Lexicon

variable {lexicon next : Lexicon} {site : Nat} {kind : Kind} {rest : List Reading}
  {fault : Fault Nat}

theorem typeMove_site {name : String} (refused : lexicon.typeMove name site rest = .refuse fault) :
    site ≤ fault.site := by
  unfold typeMove at refused
  split at refused
  · split at refused
    · cases refused
    · split at refused
      · cases refused
        exact Nat.le_refl site
      · split at refused <;> cases refused
  · cases refused

theorem declarationMove_site (refused : lexicon.declarationMove site rest = .refuse fault) :
    site ≤ fault.site := by
  unfold declarationMove at refused
  split at refused
  · split at refused
    · cases refused
      exact Nat.le_succ site
    · exact Nat.le_of_succ_le (typeMove_site refused)
  · cases refused

theorem functionMove_site (refused : lexicon.functionMove site rest = .refuse fault) :
    site ≤ fault.site := by
  unfold functionMove at refused
  split at refused
  · split at refused
    · cases refused
      exact Nat.le_succ site
    · cases refused
  · cases refused

theorem paramMove_site {name : String} (refused : lexicon.paramMove name site rest = .refuse fault) :
    site ≤ fault.site := by
  unfold paramMove at refused
  split at refused
  · split at refused
    · cases refused
    · split at refused
      · cases refused
        exact Nat.le_refl site
      · cases refused
  · cases refused

theorem nameMove_site {name : String} (refused : lexicon.nameMove name site rest = .refuse fault) :
    site ≤ fault.site := by
  unfold nameMove at refused
  split at refused
  · cases refused
  · split at refused
    · split at refused
      · cases refused
      · cases refused
        exact Nat.le_refl site
    · split at refused
      · cases refused
      · cases refused
        exact Nat.le_refl site

theorem endMove_site (refused : lexicon.endMove site = .refuse fault) : site ≤ fault.site := by
  unfold endMove at refused
  split at refused
  · cases refused
    exact Nat.le_refl site
  · cases refused

/-- A token is not blamed on what stands before it. -/
theorem move_site (refused : lexicon.move site kind rest = .refuse fault) : site ≤ fault.site := by
  cases kind with
  | eof => exact endMove_site refused
  | identifier name =>
    simp only [move] at refused
    split at refused
    · exact paramMove_site refused
    · exact nameMove_site refused
  | keyword word =>
    cases word with
    | fnWord => exact functionMove_site refused
    | letWord => exact declarationMove_site refused
    | constWord =>
      simp only [move] at refused
      split at refused
      · cases refused
      · exact declarationMove_site refused
    | _ => cases refused
  | mark mark =>
    cases mark with
    | arrow =>
      simp only [move] at refused
      split at refused <;> cases refused
    | _ => cases refused
  | _ => cases refused

theorem scan_cons_go {more : Nat} (moves : lexicon.move site kind rest = .go next more) :
    lexicon.scan site (.ok kind :: rest) = next.scan (site + 1 + more) (rest.drop more) := by
  rw [scan]
  simp only [moves]

theorem scan_cons_refuse (moves : lexicon.move site kind rest = .refuse fault) :
    lexicon.scan site (.ok kind :: rest) = (lexicon, some fault) := by
  rw [scan]
  simp only [moves]

theorem scan_cons_stop (moves : lexicon.move site kind rest = .stop) :
    lexicon.scan site (.ok kind :: rest) = (lexicon, none) := by
  rw [scan]
  simp only [moves]

@[simp] theorem scan_cons_error {cause : Cause} :
    lexicon.scan site (.error cause :: rest) = (lexicon, none) := by
  rw [scan]

/-- A scan finds no fault before its start. -/
theorem scan_site {readings : List Reading} (found : (lexicon.scan site readings).2 = some fault) :
    site ≤ fault.site := by
  induction length : readings.length using Nat.strongRecOn generalizing lexicon site readings with
  | ind n ih =>
    cases readings with
    | nil =>
      rw [scan] at found
      cases ends : lexicon.endMove site with
      | refuse fault' =>
        simp only [ends, Option.some.injEq] at found
        exact found ▸ endMove_site ends
      | _ => simp [ends] at found
    | cons reading rest =>
      cases reading with
      | error cause => simp at found
      | ok kind =>
        cases moves : lexicon.move site kind rest with
        | stop => simp [scan_cons_stop moves] at found
        | refuse fault' =>
          simp only [scan_cons_refuse moves, Option.some.injEq] at found
          exact found ▸ move_site moves
        | go next more =>
          rw [scan_cons_go moves] at found
          have shorter : (rest.drop more).length < n := by
            simp only [List.length_cons] at length
            simp only [List.length_drop]
            omega
          have := ih _ shorter found rfl
          omega

end Lexicon

/-- What a state and what names mean at its place have in common everywhere in a program. -/
structure State.Stands (s : State) (lexicon : Lexicon) : Prop where
  entries : s.cores.map Symbol.entry =
    blockEntries lexicon.blocks ++ globalEntries lexicon.globals
  distinct : lexicon.globals.Nodup
  named : ∀ name, s.directory.containsName name = lexicon.isNamed name
  lexical : ∀ cause, .error cause ∈ s.rest → Cause.isScope cause = false

/-- What names mean in a scope is what a state knows of them. -/
structure State.Matches (s : State) (scope : Scope) (lexicon : Lexicon) : Prop
    extends s.Stands lexicon where
  outside : lexicon.inHead = false
  rank : scope.rank = lexicon.blocks.length
  params : scope.signature.params.map Param.name = lexicon.params
  returnSlots : scope.signature.returnSlots = lexicon.returnSlots
  locals : lexicon.blocks ≠ [] → s.frame.locals = lexicon.body.declared.length
  callable : ∀ name, (s.callee? scope name).isSome = lexicon.functions.contains name

theorem State.firstVariable?_place (s : State) (test : String × Nat × Nat → Bool) :
    (s.firstVariable? fun symbol => test symbol.entry).map Variable.place =
      ((s.cores.map Symbol.entry).find? test).map entryPlace := by
  rw [State.firstVariable?, List.find?_map, Option.map_map, Option.map_map]
  rfl

theorem param?_place (signature : Signature) (name : String) :
    ((signature.param? name).map signature.paramVariable).map Variable.place =
      ((signature.params.map Param.name).idxOf? name).map fun i =>
        .argument (signature.returnSlots + i) := by
  have found (params : List Param) (start : Nat) :
      ((params.zipIdx start).find? (·.1.name == name)).map Prod.snd =
        ((params.map Param.name).idxOf? name).map (start + ·) := by
    induction params generalizing start with
    | nil => rfl
    | cons first params ih =>
      rw [List.zipIdx_cons, List.map_cons, List.idxOf?_cons]
      by_cases same : first.name = name
      · simp [same]
      · have later := ih (start + 1)
        rw [List.find?_cons_of_neg (by simp [same]), later]
        simp only [beq_iff_eq, same, if_false, Option.map_map]
        congr 1
        funext i
        simp only [Function.comp_apply]
        omega
  have place := congrArg (Option.map fun i => Place.argument (signature.paramOffset i))
    (found signature.params 0)
  rw [Option.map_map, Option.map_map] at place
  rw [Signature.param?, Option.map_map, Option.map_map]
  refine Eq.trans place ?_
  congr 1
  funext i
  simp [Signature.paramOffset, Nat.add_comm]

theorem isSome_param? (signature : Signature) (name : String) :
    (signature.param? name).isSome = (signature.params.map Param.name).contains name := by
  have param := congrArg Option.isSome (param?_place signature name)
  simp only [Option.isSome_map] at param
  rw [param, Bool.eq_iff_iff, List.isSome_idxOf?, List.contains_iff_mem]

namespace State.Matches

variable {scope : Scope} {s t : State} {lexicon : Lexicon}

/-- The table finds what lexical scoping says, as its symbols stand block by block. -/
theorem place (matched : s.Matches scope lexicon) (name : String) :
    ( s.variable? scope name).map Variable.place = lexicon.place? name := by
  have inBlocks := s.firstVariable?_place fun entry =>
    entry.2.2 != 0 && entry.2.2 ≤ scope.rank && entry.1 == name
  have global := s.firstVariable?_place fun entry => entry.2.2 == 0 && entry.1 == name
  have noGlobal : (globalEntries lexicon.globals).find? (fun entry =>
      entry.2.2 != 0 && entry.2.2 ≤ scope.rank && entry.1 == name) = none := by
    refine List.find?_eq_none.mpr fun entry member => ?_
    simp [globalEntries_rank member]
  have noLocal : (blockEntries lexicon.blocks).find? (fun entry =>
      entry.2.2 == 0 && entry.1 == name) = none := by
    refine List.find?_eq_none.mpr fun entry member => ?_
    simp [(blockEntries_rank member).1]
  rw [matched.entries, List.find?_append, noGlobal, Option.or_none,
    find?_blockEntries (Nat.le_of_eq matched.rank.symm)] at inBlocks
  rw [matched.entries, List.find?_append, noLocal, Option.none_or,
    find?_globalEntries matched.distinct] at global
  rw [resolved_eq, Option.map_or, Option.map_or, param?_place, Lexicon.place?, ← matched.params,
    ← matched.returnSlots]
  exact congrArg₂ Option.or inBlocks (congrArg₂ Option.or rfl global)

theorem isTaken (matched : s.Matches scope lexicon) (name : String) :
    s.isTaken scope name = lexicon.isTaken name := by
  unfold State.isTaken Lexicon.isTaken
  have top : lexicon.blocks.isEmpty = decide (scope.rank = 0) := by
    rw [matched.rank]
    cases lexicon.blocks <;> simp
  by_cases outside : scope.rank = 0
  · simp [top, outside, matched.named]
  · simp only [top, outside, decide_false, Bool.false_eq_true, if_false, isSome_param?,
      matched.params]

/-- A name that is not taken is declared in the block of a scope if the innermost block has it. -/
theorem isInBlock {name : String} (matched : s.Matches scope lexicon)
    (free : lexicon.isTaken name = false) :
    s.cores.any (·.isAt name scope.rank) = lexicon.isInBlock name := by
  have entries : s.cores.any (·.isAt name scope.rank) =
      (s.cores.map Symbol.entry).any fun entry => entry.2.2 == scope.rank && entry.1 == name := by
    rw [List.any_map]
    rfl
  rw [entries, matched.entries, List.any_append, matched.rank]
  unfold Lexicon.isTaken at free
  unfold Lexicon.isInBlock
  cases inside : lexicon.blocks with
  | nil =>
    have absent : name ∉ lexicon.globals := by
      simp only [inside, List.isEmpty_nil, if_true, Bool.or_eq_false_iff, Lexicon.isNamed] at free
      simpa using free.2.2
    have other : ∀ entry ∈ globalEntries lexicon.globals, entry.1 ≠ name := by
      rintro entry member rfl
      simp only [globalEntries, List.mem_reverse, List.mem_map] at member
      obtain ⟨⟨global, i⟩, among, rfl⟩ := member
      exact absent (List.mem_of_getElem? (List.mem_zipIdx_iff_getElem?.mp among))
    refine Eq.trans (Bool.false_or _) (List.any_eq_false.mpr fun entry member => ?_)
    simp [other entry member]
  | cons block outer =>
    -- The entries of the outer blocks and the globals have smaller ranks.
    have inOuter : (blockEntries outer).any (fun entry =>
        entry.2.2 == outer.length + 1 && entry.1 == name) = false := by
      refine List.any_eq_false.mpr fun entry member => ?_
      have := (blockEntries_rank member).2
      simp only [Bool.and_eq_true, beq_iff_eq]
      omega
    have inGlobals : (globalEntries lexicon.globals).any (fun entry =>
        entry.2.2 == outer.length + 1 && entry.1 == name) = false := by
      refine List.any_eq_false.mpr fun entry member => ?_
      simp [globalEntries_rank member]
    simp only [blockEntries, List.length_cons, List.any_append, inOuter, inGlobals, Bool.or_false,
      List.any_map, List.head?_cons, Option.getD_some]
    congr 1
    funext declared
    simp

theorem take {kind : Kind} (matched : s.Matches scope lexicon) (takes : s.Takes kind t) :
    t.Matches scope lexicon := by
  obtain ⟨_, rfl⟩ := takes
  obtain ⟨⟨entries, distinct, named, lexical⟩, outside, rank, params, slots, locals, callable⟩ :=
    matched
  exact ⟨⟨entries, distinct, named, fun cause member => lexical cause (List.mem_of_mem_tail member)⟩,
    outside, rank, params, slots, locals, callable⟩

theorem mention (matched : s.Matches scope lexicon) (place : Place) :
    s.Matches scope (lexicon.mention place) := by
  obtain ⟨⟨entries, distinct, named, lexical⟩, outside, rank, params, slots, locals, callable⟩ :=
    matched
  exact ⟨⟨entries, distinct, named, lexical⟩, outside, rank, params, slots, locals, callable⟩

theorem initialized (matched : s.Matches scope lexicon) (v : Variable) :
    (s.initialized v).Matches scope lexicon := by
  obtain ⟨⟨entries, distinct, named, lexical⟩, outside, rank, params, slots, locals, callable⟩ :=
    matched
  rw [← s.cores_initialized v] at entries
  rw [← s.frame_initialized v] at locals
  have same : (s.initialized v).directory = s.directory ∧ (s.initialized v).rest = s.rest ∧
      (s.initialized v).definitions = s.definitions := by
    unfold State.initialized
    cases v.rank <;> exact ⟨rfl, rfl, rfl⟩
  refine ⟨⟨entries, distinct, ?_, ?_⟩, outside, rank, params, slots, locals, ?_⟩
  · rw [same.1]
    exact named
  · rw [same.2.1]
    exact lexical
  · simp only [State.callee?, same.2.2]
    exact callable

end State.Matches

theorem State.containsName_registered (s : State) (entry : Entry) (name : String) :
    (s.registered entry).directory.containsName name =
      (s.directory.containsName name || entry.isNamed name) := by
  simp only [registered, register, Directory.register]
  cases found : s.directory.address? entry with
  | none => simp [Directory.containsName]
  | some address =>
    cases named : entry.isNamed name with
    | false => simp
    | true =>
      have member : entry ∈ s.directory.entries := by
        rw [← List.isSome_idxOf?]
        exact Option.isSome_of_eq_some found
      have here : s.directory.containsName name = true :=
        List.any_eq_true.mpr ⟨entry, member, named⟩
      simp [here]

theorem Declares.isTaken {scope : Scope} {symbol : Symbol} {s t : State}
    (declares : Declares scope symbol s t) : s.isTaken scope symbol.name = false := by
  cases declares with
  | head word named free =>
    obtain ⟨⟨_, rfl⟩, ⟨_, rfl⟩⟩ := And.intro word named
    exact free

theorem Declares.containsName {scope : Scope} {symbol : Symbol} {s t : State}
    (declares : Declares scope symbol s t) (name : String) :
    t.directory.containsName name =
      (s.directory.containsName name || decide (scope.rank = 0 ∧ name = symbol.name)) := by
  cases declares with
  | @head t u v w x word named _ colon typed _ allocated ranked =>
    have before : (x.declared symbol).directory = s.directory := by
      obtain ⟨_, rfl⟩ := word
      obtain ⟨_, rfl⟩ := named
      obtain ⟨_, rfl⟩ := colon
      obtain ⟨_, rfl⟩ := typed
      unfold State.allocate at allocated
      split at allocated <;> obtain ⟨_, rfl⟩ := Prod.mk.inj allocated <;> rfl
    unfold State.published
    rw [ranked]
    split
    · rename_i top
      have global := (x.declared symbol).containsName_registered (.global symbol.name) name
      rw [before, Entry.isNamed] at global
      rw [global, Bool.beq_comm, Bool.beq_eq_decide_eq]
      simp only [top, true_and]
    · rename_i deep
      simp [before, deep]

namespace State.Matches

variable {scope : Scope} {s t : State} {lexicon : Lexicon}

/-- What is neither a function nor a global may get an address. -/
theorem register {entry : Entry} {address : Nat} (matched : s.Matches scope lexicon)
    (nameless : ∀ name, entry.isNamed name = false) (same : s.register entry = (address, t)) :
    t.Matches scope lexicon := by
  have here : t = s.registered entry := by rw [State.registered, same]
  subst here
  obtain ⟨⟨entries, distinct, named, lexical⟩, outside, rank, params, slots, locals, callable⟩ :=
    matched
  refine ⟨⟨entries, distinct, fun name => ?_, lexical⟩, outside, rank, params, slots, locals,
    callable⟩
  rw [State.containsName_registered, nameless, Bool.or_false]
  exact named name

/-- Outside functions the next slot is the number of the globals. -/
theorem globalCount (matched : s.Matches scope lexicon) (top : lexicon.blocks = []) :
    (s.cores.filter (·.rank == 0)).length = lexicon.globals.length := by
  have length := congrArg List.length matched.entries
  have all : s.cores.filter (·.rank == 0) = s.cores := by
    refine List.filter_eq_self.mpr fun other member => ?_
    have among := List.mem_map_of_mem (f := Symbol.entry) member
    rw [matched.entries, top] at among
    simpa [Symbol.entry] using globalEntries_rank among
  simpa [all, top, blockEntries, globalEntries] using length

/-- A declaration is one of its name where it stands. -/
theorem declare {symbol : Symbol} (matched : s.Matches scope lexicon)
    (declares : Declares scope symbol s t) :
    t.Matches scope (lexicon.declare symbol.name) ∧ symbol.place = lexicon.newPlace := by
  have items := State.StmtStep.same_items declares.steps
  have suffix := State.StmtStep.rest_suffix declares.steps
  obtain ⟨added, ranked, _, _⟩ := declares.cores
  have slot := declares.slot
  have directory := declares.containsName
  have callee (name : String) : t.callee? scope name = s.callee? scope name := by
    simp only [State.callee?, (Prod.mk.inj items).1]
  have free := declares.isTaken
  rw [matched.isTaken] at free
  have count := matched.globalCount
  obtain ⟨⟨entries, distinct, named, lexical⟩, outside, rank, params, slots, locals, callable⟩ :=
    matched
  unfold Lexicon.isTaken at free
  unfold Lexicon.declare Lexicon.newPlace Symbol.place
  -- Outside functions the symbol is a global, and inside it is one of the innermost block.
  cases inside : lexicon.blocks with
  | nil =>
    have top : scope.rank = 0 := by rw [rank, inside]; rfl
    rw [if_pos top, count inside] at slot
    simp only [inside, List.isEmpty_nil, if_true, Bool.or_eq_false_iff, Lexicon.isNamed] at free
    refine ⟨⟨⟨?_, ?_, fun name => ?_, fun cause member => lexical cause (suffix.mem member)⟩, outside,
      by simpa [inside] using rank, params, slots, by simp, fun name => ?_⟩, ?_⟩
    · rw [added, List.map_cons, entries, inside, globalEntries_append, Symbol.entry, slot.1, ranked,
        top]
      rfl
    · rw [List.nodup_append]
      refine ⟨distinct, by simp, ?_⟩
      rintro name member _ last rfl
      rw [List.mem_singleton.mp last] at member
      simp [member] at free
    · rw [directory, named, top]
      simp [Lexicon.isNamed, Bool.or_assoc]
    · rw [callee]
      exact callable name
    · simp [ranked, top, slot.1]
  | cons block outer =>
    have deep : scope.rank ≠ 0 := by rw [rank, inside]; simp
    rw [if_neg deep, locals (by simp [inside])] at slot
    refine ⟨⟨⟨?_, distinct, fun name => ?_, fun cause member => lexical cause (suffix.mem member)⟩,
      outside, by simpa [inside] using rank, params, slots, fun _ => by simpa using slot.2,
      fun name => ?_⟩, ?_⟩
    · rw [added, List.map_cons, entries, inside, Symbol.entry, slot.1, ranked, rank, inside]
      rfl
    · rw [directory, named]
      simp [deep, Lexicon.isNamed]
    · rw [callee]
      exact callable name
    · simp [ranked, deep, slot.1]

/-- A block opens with nothing declared in it. -/
theorem opened {inner : Scope} (matched : s.Matches scope lexicon)
    (same : inner.signature = scope.signature) (deeper : inner.rank = scope.rank + 1)
    (inside : scope.rank ≠ 0) : s.Matches inner lexicon.opened := by
  obtain ⟨⟨entries, distinct, named, lexical⟩, outside, rank, params, slots, locals, callable⟩ :=
    matched
  have within : lexicon.blocks ≠ [] := fun empty => inside (by rw [rank, empty]; rfl)
  rw [← same] at params slots
  refine ⟨⟨entries, distinct, named, lexical⟩, rfl, by rw [deeper, rank]; rfl, params, slots,
    fun _ => locals within, fun name => ?_⟩
  simp only [State.callee?, same]
  exact callable name

end State.Matches

/-- Closing a block leaves the entries of the blocks around it. -/
theorem State.entries_closed {s : State} {block : List (String × Nat)}
    {outer : List (List (String × Nat))} {globals : List String}
    (entries : s.cores.map Symbol.entry = blockEntries (block :: outer) ++ globalEntries globals) :
    (s.closed (outer.length + 1)).cores.map Symbol.entry =
      blockEntries outer ++ globalEntries globals := by
  have filtered : (s.closed (outer.length + 1)).cores.map Symbol.entry =
      (s.cores.map Symbol.entry).filter fun entry => entry.2.2 != outer.length + 1 := by
    rw [cores_closed, List.filter_map]
    rfl
  rw [filtered, entries]
  exact filter_blockEntries fun _ => globalEntries_rank

theorem State.Matches.closed {scope inner : Scope} {s : State} {lexicon : Lexicon}
    (matched : s.Matches inner lexicon) (same : inner.signature = scope.signature)
    (deeper : inner.rank = scope.rank + 1) (inside : scope.rank ≠ 0) :
    (s.closed inner.rank).Matches scope lexicon.closed ∧ lexicon.closed.body = lexicon.body ∧
      lexicon.closed.finished = lexicon.finished := by
  obtain ⟨⟨entries, distinct, named, lexical⟩, outside, rank, params, slots, locals, callable⟩ :=
    matched
  rw [same] at params slots
  unfold Lexicon.closed
  match blocks : lexicon.blocks with
  | [] => simp [blocks, deeper] at rank
  | [block] =>
    simp only [blocks, List.length_singleton] at rank
    omega
  | block :: second :: outer =>
    rw [blocks] at entries
    have around : scope.rank = (second :: outer).length := by
      rw [rank, blocks, List.length_cons] at deeper
      omega
    refine ⟨⟨⟨?_, distinct, named, lexical⟩, outside, around, params, slots,
      fun _ => locals (by simp [blocks]), fun name => ?_⟩, rfl, rfl⟩
    · rw [deeper, around]
      exact State.entries_closed entries
    · have known := callable name
      simp only [State.callee?, same] at known
      exact known

end C0
