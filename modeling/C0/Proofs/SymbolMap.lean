import C0.Symbol

namespace C0

/-- What can be done to a table of symbols. -/
inductive Edit where
  | declare (symbol : Symbol)
  | mark (name : String) (rank : Nat)
  | drop (rank : Nat)
  deriving DecidableEq, Repr

/-- A symbol that a map holds, and how many edits there were before its declaration. -/
structure Held where
  symbol : Symbol
  since : Nat
  deriving DecidableEq, Repr

/-- The same symbol, with a value. -/
def Held.marked (held : Held) : Held :=
  { held with symbol := { held.symbol with isInitialized := true } }

/-- Symbols by their names and ranks. -/
abbrev SymbolMap := String → Nat → Option Held

namespace SymbolMap

/-- What a map holds after edits, the last one first. A declaration takes the place of its name and
its rank if that is free, and has it until the rank is dropped. -/
def after : List Edit → SymbolMap
  | [], _, _ => none
  | .declare symbol :: before, name, rank =>
    (after before name rank).or
      (if symbol.name = name ∧ symbol.rank = rank then some ⟨symbol, before.length⟩ else none)
  | .mark marked place :: before, name, rank =>
    if name = marked ∧ rank = place then (after before name rank).map Held.marked
    else after before name rank
  | .drop dropped :: before, name, rank =>
    if rank = dropped then none else after before name rank

/-- A map holds a symbol of a name at one of the ranks from 1 up to some rank. -/
def IsLocal (map : SymbolMap) (name : String) (rank : Nat) (held : Held) : Prop :=
  ∃ depth, 1 ≤ depth ∧ depth ≤ rank ∧ map name depth = some held

/-- A list has what a map holds, each symbol under its own name and rank, the newest first. -/
structure Lists (map : SymbolMap) (list : List Held) : Prop where
  keyed : ∀ {name rank held}, map name rank = some held →
    held.symbol.name = name ∧ held.symbol.rank = rank
  newestFirst : list.Pairwise fun newer older => older.since < newer.since
  mem_iff : ∀ held, held ∈ list ↔ map held.symbol.name held.symbol.rank = some held

end SymbolMap

namespace SymbolTable

/-- The table after an edit. A declaration that fails leaves it as it is. -/
def edit (table : SymbolTable) : Edit → SymbolTable
  | .declare symbol =>
    match table.declare symbol () with
    | .ok next => next
    | .error _ => table
  | .mark name rank => table.markInitialized name rank
  | .drop rank => table.dropRank rank

/-- An empty table after edits, the last one first. -/
def after : List Edit → SymbolTable
  | [] => empty
  | last :: before => (after before).edit last

/-- A table has just the symbols that a map holds, the newest first. -/
def Shows (table : SymbolTable) (map : SymbolMap) : Prop :=
  ∃ list, map.Lists list ∧ table.symbols = list.map Held.symbol

/-- A table answers like a map of symbols by their names and ranks that knows the order of their
declarations. -/
structure AnswersLike (table : SymbolTable) (map : SymbolMap) : Prop where
  shows : table.Shows map
  /-- A name has at most one symbol at a rank. -/
  unique : table.symbols.Pairwise fun newer older =>
    ¬ (newer.name = older.name ∧ newer.rank = older.rank)
  isDeclaredAt : ∀ name rank, table.isDeclaredAt name rank = (map name rank).isSome
  /-- A declaration fails where the map holds a symbol, and then it changes nothing. -/
  refuses : ∀ {σ : Type} (symbol : Symbol) (site : σ), (map symbol.name symbol.rank).isSome →
    table.declare symbol site = .error ⟨.duplicateDeclaration, site⟩ ∧
      table.edit (.declare symbol) = table
  /-- A declaration succeeds elsewhere, and its symbol is the newest one then. -/
  accepts : ∀ {σ : Type} (symbol : Symbol) (site : σ), map symbol.name symbol.rank = none →
    table.declare symbol site = .ok ⟨symbol :: table.symbols⟩ ∧
      table.edit (.declare symbol) = ⟨symbol :: table.symbols⟩
  lookupGlobal : ∀ name, table.lookupGlobal? name = (map name 0).map Held.symbol
  /-- Of the locals of a name up to a rank, the one that was declared last is found. -/
  lookupLocal : ∀ name rank symbol, table.lookupLocal? name rank = some symbol ↔
    ∃ held, held.symbol = symbol ∧ map.IsLocal name rank held ∧
      ∀ other, map.IsLocal name rank other → other.since ≤ held.since
  lookupLocal_none : ∀ name rank, table.lookupLocal? name rank = none ↔
    ∀ held, ¬ map.IsLocal name rank held
  /-- The globals are counted, each by its name. -/
  globalCount : ∃ names : List String, names.Nodup ∧
    (∀ name, name ∈ names ↔ (map name 0).isSome) ∧ table.globalCount = names.length
  /-- A mark changes one symbol where the map holds one, and of this symbol nothing but whether it
  has a value. -/
  marks : ∀ name rank held, map name rank = some held → ∃ newer older,
    table.symbols = newer ++ held.symbol :: older ∧
      (table.markInitialized name rank).symbols = newer ++ held.marked.symbol :: older
  marks_none : ∀ name rank, map name rank = none → table.markInitialized name rank = table
  /-- The oldest symbol of a name at a rank is marked, and no other is left. -/
  marks_all : ∀ name rank, (table.markInitialized name rank).symbols =
    table.symbols.map fun symbol =>
      if symbol.isAt name rank then { symbol with isInitialized := true } else symbol
  /-- Dropping a rank removes its symbols. The others keep their order. -/
  drops : ∀ rank, (table.dropRank rank).symbols.Sublist table.symbols ∧
    ∀ symbol, symbol ∈ (table.dropRank rank).symbols ↔ symbol ∈ table.symbols ∧ symbol.rank ≠ rank
  drops_isDeclaredAt : ∀ rank name other, other ≠ rank →
    (table.dropRank rank).isDeclaredAt name other = table.isDeclaredAt name other
  drops_lookupGlobal : ∀ rank name, rank ≠ 0 →
    (table.dropRank rank).lookupGlobal? name = table.lookupGlobal? name
  drops_lookupLocal : ∀ rank name depth, depth < rank →
    (table.dropRank rank).lookupLocal? name depth = table.lookupLocal? name depth

end SymbolTable

theorem Symbol.isAt_iff {symbol : Symbol} {name : String} {rank : Nat} :
    symbol.isAt name rank = true ↔ symbol.name = name ∧ symbol.rank = rank := by
  simp only [isAt, Bool.and_eq_true, beq_iff_eq, and_comm]

namespace SymbolMap

variable {map : SymbolMap} {list : List Held} {before : List Edit} {symbol : Symbol} {held : Held}
  {name : String} {rank : Nat}

/-- What a map holds stands under its own name and rank, and was declared by one of the edits. -/
theorem after_keyed {edits : List Edit} (found : after edits name rank = some held) :
    (held.symbol.name = name ∧ held.symbol.rank = rank) ∧ held.since < edits.length := by
  induction edits generalizing held with
  | nil => cases found
  | cons last before ih =>
    have earlier {other : Held} (found : after before name rank = some other) :
        (other.symbol.name = name ∧ other.symbol.rank = rank) ∧
          other.since < (last :: before).length :=
      (ih found).imp_right Nat.lt_succ_of_lt
    cases last with
    | declare symbol =>
      rcases Option.or_eq_some_iff.mp found with old | ⟨-, new⟩
      · exact earlier old
      · split at new
        · next key =>
          cases new
          exact ⟨key, Nat.lt_succ_self _⟩
        · cases new
    | mark marked place =>
      rw [after] at found
      split at found
      · obtain ⟨other, here, rfl⟩ := Option.map_eq_some_iff.mp found
        have stands := earlier here
        exact stands
      · exact earlier found
    | drop dropped =>
      rw [after] at found
      split at found
      · cases found
      · exact earlier found

theorem after_declare_taken (taken : (after before symbol.name symbol.rank).isSome) :
    after (.declare symbol :: before) = after before := by
  funext name rank
  rw [after]
  by_cases key : symbol.name = name ∧ symbol.rank = rank
  · obtain ⟨rfl, rfl⟩ := key
    obtain ⟨held, found⟩ := Option.isSome_iff_exists.mp taken
    rw [found, Option.some_or]
  · rw [if_neg key, Option.or_none]

namespace Lists

theorem mem (lists : map.Lists list) (found : map name rank = some held) : held ∈ list := by
  obtain ⟨rfl, rfl⟩ := lists.keyed found
  exact (lists.mem_iff held).mpr found

/-- Two symbols of a list do not share a name and a rank. -/
theorem unique (lists : map.Lists list) : list.Pairwise fun newer older =>
    ¬ (newer.symbol.name = older.symbol.name ∧ newer.symbol.rank = older.symbol.rank) := by
  refine lists.newestFirst.imp_of_mem fun {newer older} inList inList' less => ?_
  rintro ⟨name, rank⟩
  have found := (lists.mem_iff newer).mp inList
  rw [name, rank, (lists.mem_iff older).mp inList'] at found
  cases found
  exact Nat.lt_irrefl _ less

/-- A search finds the newest symbol that passes a test. -/
theorem find?_eq_some_iff (lists : map.Lists list) {test : Held → Bool} :
    list.find? test = some held ↔
      held ∈ list ∧ test held = true ∧
        ∀ other ∈ list, test other = true → other.since ≤ held.since := by
  rw [List.find?_eq_some_iff_append]
  constructor
  · rintro ⟨passes, newer, older, rfl, fail⟩
    -- what stands before the found symbol fails the test, what stands behind it is older
    have sorted := (List.pairwise_append.mp lists.newestFirst).2.1
    refine ⟨by simp, passes, fun other member passes' => ?_⟩
    rcases List.mem_append.mp member with inNewer | inOlder
    · have fails := fail other inNewer
      rw [passes'] at fails
      cases fails
    · rcases List.mem_cons.mp inOlder with rfl | inOlder
      · exact Nat.le_refl _
      · exact Nat.le_of_lt ((List.pairwise_cons.mp sorted).1 other inOlder)
  · rintro ⟨member, passes, newest⟩
    obtain ⟨newer, older, rfl⟩ := List.append_of_mem member
    refine ⟨passes, newer, older, rfl, fun other inNewer => ?_⟩
    have less := (List.pairwise_append.mp lists.newestFirst).2.2 other inNewer held (by simp)
    cases passes' : test other with
    | false => rfl
    | true => exact absurd less (Nat.not_lt.mpr (newest other (by simp [inNewer]) passes'))

/-- Of a name at a rank there is one symbol to be found, the one that the map holds. -/
theorem find?_isAt (lists : map.Lists list) (name : String) (rank : Nat) :
    list.find? (·.symbol.isAt name rank) = map name rank := by
  refine Option.ext fun held => ?_
  rw [lists.find?_eq_some_iff, Symbol.isAt_iff]
  constructor
  · rintro ⟨member, ⟨rfl, rfl⟩, -⟩
    exact (lists.mem_iff held).mp member
  · intro found
    refine ⟨lists.mem found, lists.keyed found, fun other member passes => ?_⟩
    obtain ⟨rfl, rfl⟩ := Symbol.isAt_iff.mp passes
    rw [(lists.mem_iff other).mp member] at found
    cases found
    exact Nat.le_refl _

theorem isLocal_iff (lists : map.Lists list) : map.IsLocal name rank held ↔ held ∈ list ∧
    (held.symbol.rank != 0 && held.symbol.rank ≤ rank && held.symbol.name == name) = true := by
  simp only [Bool.and_eq_true, bne_iff_ne, decide_eq_true_eq, beq_iff_eq]
  constructor
  · rintro ⟨depth, positive, le, found⟩
    obtain ⟨named, rfl⟩ := lists.keyed found
    exact ⟨lists.mem found, ⟨Nat.ne_of_gt positive, le⟩, named⟩
  · rintro ⟨member, ⟨positive, le⟩, rfl⟩
    exact ⟨held.symbol.rank, Nat.pos_of_ne_zero positive, le, (lists.mem_iff held).mp member⟩

theorem declare (lists : (after before).Lists list)
    (free : after before symbol.name symbol.rank = none) :
    (after (.declare symbol :: before)).Lists (⟨symbol, before.length⟩ :: list) where
  keyed found := (after_keyed found).1
  newestFirst := List.pairwise_cons.mpr ⟨fun held member =>
    (after_keyed ((lists.mem_iff held).mp member)).2, lists.newestFirst⟩
  mem_iff held := by
    rw [List.mem_cons, lists.mem_iff, after]
    by_cases key : symbol.name = held.symbol.name ∧ symbol.rank = held.symbol.rank
    · rw [← key.1, ← key.2, free]
      simp [eq_comm]
    · rw [if_neg key, Option.or_none, or_iff_right]
      rintro rfl
      exact key ⟨rfl, rfl⟩

theorem mark (lists : (after before).Lists list) (name : String) (rank : Nat) :
    (after (.mark name rank :: before)).Lists
      (list.map fun held => if held.symbol.isAt name rank then held.marked else held) where
  keyed found := (after_keyed found).1
  newestFirst := by
    refine List.pairwise_map.mpr (lists.newestFirst.imp fun {newer older} less => ?_)
    split <;> split <;> exact less
  mem_iff held := by
    rw [List.mem_map]
    constructor
    · rintro ⟨other, member, rfl⟩
      have found := (lists.mem_iff other).mp member
      by_cases passes : other.symbol.isAt name rank = true
      · obtain ⟨rfl, rfl⟩ := Symbol.isAt_iff.mp passes
        rw [if_pos passes]
        simp [after, Held.marked, found]
      · rw [if_neg passes, after, if_neg (mt Symbol.isAt_iff.mpr passes), found]
    · intro found
      rw [after] at found
      split at found
      · next key =>
        obtain ⟨other, here, rfl⟩ := Option.map_eq_some_iff.mp found
        exact ⟨other, lists.mem here, if_pos (Symbol.isAt_iff.mpr key)⟩
      · next key => exact ⟨held, lists.mem found, if_neg (mt Symbol.isAt_iff.mp key)⟩

theorem drop (lists : (after before).Lists list) (rank : Nat) :
    (after (.drop rank :: before)).Lists (list.filter (·.symbol.rank != rank)) where
  keyed found := (after_keyed found).1
  newestFirst := lists.newestFirst.filter _
  mem_iff held := by
    rw [List.mem_filter, lists.mem_iff, after]
    by_cases dropped : held.symbol.rank = rank
    · simp [dropped]
    · simp [dropped]

end Lists

end SymbolMap

namespace SymbolTable

variable {map : SymbolMap} {list : List Held} {table : SymbolTable} {name : String} {rank : Nat}

theorem isDeclaredAt_eq_isSome (table : SymbolTable) (name : String) (rank : Nat) :
    table.isDeclaredAt name rank = (table.symbols.find? (·.isAt name rank)).isSome :=
  List.isSome_find?.symm

theorem declare_taken {σ : Type} {symbol : Symbol}
    (taken : table.isDeclaredAt symbol.name symbol.rank = true) (site : σ) :
    table.declare symbol site = .error ⟨.duplicateDeclaration, site⟩ :=
  if_pos taken

theorem declare_free {σ : Type} {symbol : Symbol}
    (free : table.isDeclaredAt symbol.name symbol.rank = false) (site : σ) :
    table.declare symbol site = .ok ⟨symbol :: table.symbols⟩ :=
  if_neg (Bool.eq_false_iff.mp free)

theorem edit_taken {symbol : Symbol}
    (taken : table.isDeclaredAt symbol.name symbol.rank = true) :
    table.edit (.declare symbol) = table := by
  rw [edit, declare_taken taken]

theorem edit_free {symbol : Symbol}
    (free : table.isDeclaredAt symbol.name symbol.rank = false) :
    table.edit (.declare symbol) = ⟨symbol :: table.symbols⟩ := by
  rw [edit, declare_free free]

theorem map_mark_eq_self {symbols : List Symbol}
    (free : ∀ symbol ∈ symbols, ¬ symbol.isAt name rank = true) :
    (symbols.map fun symbol =>
      if symbol.isAt name rank then { symbol with isInitialized := true } else symbol) = symbols :=
  (List.map_congr_left fun symbol member => if_neg (free symbol member)).trans (List.map_id symbols)

/-- Where at most one symbol has a name at a rank, marking the first one is marking all. -/
theorem markFirst_eq_map {symbols : List Symbol}
    (once : symbols.Pairwise fun first second =>
      ¬ (first.isAt name rank = true ∧ second.isAt name rank = true)) :
    markFirst name rank symbols = symbols.map fun symbol =>
      if symbol.isAt name rank then { symbol with isInitialized := true } else symbol := by
  induction symbols with
  | nil => rfl
  | cons symbol rest ih =>
    obtain ⟨alone, once⟩ := List.pairwise_cons.mp once
    rw [markFirst, List.map_cons]
    split
    · next passes =>
      rw [map_mark_eq_self fun other member passes' => alone other member ⟨passes, passes'⟩]
    · rw [ih once]

/-- Dropping a rank does not change what is found by a test that no symbol of the rank passes. -/
theorem find?_dropRank {test : Symbol → Bool}
    (others : ∀ symbol, test symbol = true → symbol.rank ≠ rank) :
    (table.dropRank rank).symbols.find? test = table.symbols.find? test := by
  rw [dropRank, List.find?_filter]
  congr 1
  funext symbol
  cases passes : test symbol with
  | false => simp
  | true => simp [others symbol passes]

theorem isDeclaredAt_dropRank {other : Nat} (differ : other ≠ rank) :
    (table.dropRank rank).isDeclaredAt name other = table.isDeclaredAt name other := by
  rw [isDeclaredAt_eq_isSome, isDeclaredAt_eq_isSome, find?_dropRank]
  intro symbol passes
  rwa [(Symbol.isAt_iff.mp passes).2]

theorem lookupGlobal?_dropRank (positive : rank ≠ 0) :
    (table.dropRank rank).lookupGlobal? name = table.lookupGlobal? name := by
  refine find?_dropRank fun symbol passes => ?_
  rw [(Symbol.isAt_iff.mp passes).2]
  exact positive.symm

theorem lookupLocal?_dropRank {depth : Nat} (shallow : depth < rank) :
    (table.dropRank rank).lookupLocal? name depth = table.lookupLocal? name depth := by
  refine find?_dropRank fun symbol passes => ?_
  simp only [Bool.and_eq_true, bne_iff_ne, decide_eq_true_eq] at passes
  omega

namespace Shows

theorem find?_isAt (shows : table.Shows map) (name : String) (rank : Nat) :
    table.symbols.find? (·.isAt name rank) = (map name rank).map Held.symbol := by
  obtain ⟨list, lists, same⟩ := shows
  rw [same, List.find?_map, ← lists.find?_isAt name rank]
  rfl

theorem unique (shows : table.Shows map) : table.symbols.Pairwise fun newer older =>
    ¬ (newer.name = older.name ∧ newer.rank = older.rank) := by
  obtain ⟨list, lists, same⟩ := shows
  rw [same]
  exact List.pairwise_map.mpr lists.unique

theorem isDeclaredAt (shows : table.Shows map) (name : String) (rank : Nat) :
    table.isDeclaredAt name rank = (map name rank).isSome := by
  rw [isDeclaredAt_eq_isSome, shows.find?_isAt, Option.isSome_map]

theorem lookupLocal (shows : table.Shows map) {symbol : Symbol} :
    table.lookupLocal? name rank = some symbol ↔
      ∃ held, held.symbol = symbol ∧ map.IsLocal name rank held ∧
        ∀ other, map.IsLocal name rank other → other.since ≤ held.since := by
  obtain ⟨list, lists, same⟩ := shows
  rw [lookupLocal?, same, List.find?_map, Option.map_eq_some_iff]
  simp only [lists.find?_eq_some_iff, lists.isLocal_iff, Function.comp_apply]
  constructor
  · rintro ⟨held, ⟨member, passes, newest⟩, rfl⟩
    exact ⟨held, rfl, ⟨member, passes⟩, fun other here => newest other here.1 here.2⟩
  · rintro ⟨held, rfl, ⟨member, passes⟩, newest⟩
    exact ⟨held, ⟨member, passes, fun other here passes' => newest other ⟨here, passes'⟩⟩, rfl⟩

theorem lookupLocal_none (shows : table.Shows map) :
    table.lookupLocal? name rank = none ↔ ∀ held, ¬ map.IsLocal name rank held := by
  obtain ⟨list, lists, same⟩ := shows
  rw [lookupLocal?, same, List.find?_map, Option.map_eq_none_iff, List.find?_eq_none]
  simp only [lists.isLocal_iff, Function.comp_apply, not_and]

theorem globalCount (shows : table.Shows map) : ∃ names : List String, names.Nodup ∧
    (∀ name, name ∈ names ↔ (map name 0).isSome) ∧ table.globalCount = names.length := by
  obtain ⟨list, lists, same⟩ := shows
  refine ⟨(list.filter (·.symbol.rank == 0)).map (·.symbol.name), ?_, fun name => ?_, ?_⟩
  · refine List.pairwise_map.mpr (List.pairwise_filter.mpr (lists.unique.imp ?_))
    intro newer older differ atZero atZero' sameName
    rw [beq_iff_eq] at atZero atZero'
    exact differ ⟨sameName, atZero.trans atZero'.symm⟩
  · simp only [List.mem_map, List.mem_filter, beq_iff_eq, Option.isSome_iff_exists]
    constructor
    · rintro ⟨held, ⟨member, atZero⟩, rfl⟩
      exact ⟨held, atZero ▸ (lists.mem_iff held).mp member⟩
    · rintro ⟨held, found⟩
      obtain ⟨named, atZero⟩ := lists.keyed found
      exact ⟨held, ⟨lists.mem found, atZero⟩, named⟩
  · rw [SymbolTable.globalCount, same, List.filter_map, List.length_map, List.length_map]
    rfl

/-- As a name has one symbol at a rank, marking the oldest one is marking all of them. -/
theorem marks_all (shows : table.Shows map) (name : String) (rank : Nat) :
    (table.markInitialized name rank).symbols = table.symbols.map fun symbol =>
      if symbol.isAt name rank then { symbol with isInitialized := true } else symbol := by
  have once : table.symbols.reverse.Pairwise fun older newer =>
      ¬ (older.isAt name rank = true ∧ newer.isAt name rank = true) := by
    refine List.pairwise_reverse.mpr (shows.unique.imp ?_)
    rintro newer older differ ⟨passes, passes'⟩
    obtain ⟨rfl, rfl⟩ := Symbol.isAt_iff.mp passes
    exact differ (Symbol.isAt_iff.mp passes')
  rw [markInitialized, markFirst_eq_map once, List.map_reverse, List.reverse_reverse]

/-- A mark reaches the symbol that the map holds, and none before or behind it. -/
theorem marks (shows : table.Shows map) {held : Held} (found : map name rank = some held) :
    ∃ newer older, table.symbols = newer ++ held.symbol :: older ∧
      (table.markInitialized name rank).symbols = newer ++ held.marked.symbol :: older := by
  have unique := shows.unique
  have marked := shows.marks_all name rank
  obtain ⟨list, lists, same⟩ := shows
  obtain ⟨rfl, rfl⟩ := lists.keyed found
  obtain ⟨newer, older, split⟩ := List.append_of_mem (lists.mem found)
  have symbols : table.symbols = newer.map Held.symbol ++ held.symbol :: older.map Held.symbol := by
    rw [same, split, List.map_append, List.map_cons]
  rw [symbols] at unique
  obtain ⟨-, unique, before⟩ := List.pairwise_append.mp unique
  have behind := (List.pairwise_cons.mp unique).1
  have newerKept := map_mark_eq_self fun other member passes =>
    before other member held.symbol (by simp) (Symbol.isAt_iff.mp passes)
  have olderKept := map_mark_eq_self fun other member passes =>
    behind other member ((Symbol.isAt_iff.mp passes).imp Eq.symm Eq.symm)
  refine ⟨newer.map Held.symbol, older.map Held.symbol, symbols, ?_⟩
  rw [marked, symbols, List.map_append, List.map_cons, newerKept, olderKept,
    if_pos (Symbol.isAt_iff.mpr ⟨rfl, rfl⟩)]
  rfl

theorem marks_none (shows : table.Shows map) (free : map name rank = none) :
    table.markInitialized name rank = table := by
  have found := shows.find?_isAt name rank
  rw [free, Option.map_none, List.find?_eq_none] at found
  have marked := shows.marks_all name rank
  rw [map_mark_eq_self found] at marked
  exact congrArg SymbolTable.mk marked

/-- A table that has what a map holds answers like the map. -/
theorem answersLike (shows : table.Shows map) : table.AnswersLike map where
  shows := shows
  unique := shows.unique
  isDeclaredAt := shows.isDeclaredAt
  refuses symbol site taken := by
    rw [← shows.isDeclaredAt] at taken
    exact ⟨declare_taken taken site, edit_taken taken⟩
  accepts symbol site free := by
    have declared := shows.isDeclaredAt symbol.name symbol.rank
    rw [free] at declared
    exact ⟨declare_free declared site, edit_free declared⟩
  lookupGlobal name := shows.find?_isAt name 0
  lookupLocal name rank symbol := shows.lookupLocal
  lookupLocal_none name rank := shows.lookupLocal_none
  globalCount := shows.globalCount
  marks name rank held found := shows.marks found
  marks_none name rank free := shows.marks_none free
  marks_all := shows.marks_all
  drops rank := ⟨List.filter_sublist, fun symbol => by simp [dropRank]⟩
  drops_isDeclaredAt rank name other differ := isDeclaredAt_dropRank differ
  drops_lookupGlobal rank name positive := lookupGlobal?_dropRank positive
  drops_lookupLocal rank name depth shallow := lookupLocal?_dropRank shallow

/-- A declaration is refused just where the map has no place for it, and a mark and a drop reach the
same symbols in both. -/
theorem edit {before : List Edit} (shows : table.Shows (SymbolMap.after before)) (last : Edit) :
    (table.edit last).Shows (SymbolMap.after (last :: before)) := by
  have declared := shows.isDeclaredAt
  have marked := shows.marks_all
  obtain ⟨list, lists, same⟩ := shows
  cases last with
  | declare symbol =>
    specialize declared symbol.name symbol.rank
    cases place : SymbolMap.after before symbol.name symbol.rank with
    | none =>
      rw [place] at declared
      refine ⟨_, lists.declare place, ?_⟩
      rw [edit_free declared, same]
      rfl
    | some held =>
      rw [place] at declared
      rw [edit_taken declared, SymbolMap.after_declare_taken (by rw [place]; rfl)]
      exact ⟨list, lists, same⟩
  | mark name rank =>
    refine ⟨_, lists.mark name rank, ?_⟩
    rw [SymbolTable.edit, marked, same, List.map_map, List.map_map]
    refine List.map_congr_left fun held _ => ?_
    simp only [Function.comp_apply]
    split <;> rfl
  | drop rank =>
    refine ⟨_, lists.drop rank, ?_⟩
    rw [SymbolTable.edit, dropRank, same, List.filter_map]
    rfl

end Shows

theorem after_shows (edits : List Edit) : (after edits).Shows (SymbolMap.after edits) := by
  induction edits with
  | nil => exact ⟨[], ⟨nofun, .nil, fun held => by simp [SymbolMap.after]⟩, rfl⟩
  | cons last before ih => exact ih.edit last

theorem size_edit_le (table : SymbolTable) (edit : Edit) :
    (table.edit edit).size ≤ table.size + 1 := by
  cases edit with
  | declare symbol =>
    cases declared : table.isDeclaredAt symbol.name symbol.rank with
    | true =>
      rw [edit_taken declared]
      exact Nat.le_succ _
    | false =>
      rw [edit_free declared]
      exact Nat.le_refl _
  | mark name rank => exact Nat.le_succ_of_le (Nat.le_of_eq (table.size_markInitialized name rank))
  | drop rank => exact Nat.le_succ_of_le (List.length_filter_le _ _)

theorem size_after_le (edits : List Edit) : (after edits).size ≤ edits.length := by
  induction edits with
  | nil => exact Nat.le_refl 0
  | cons last before ih => exact Nat.le_trans (size_edit_le _ last) (Nat.succ_le_succ ih)

/-- Under any use, a table of symbols is an ordered map by names and ranks. After any edits, with
any names and ranks in any order, it answers like the map that the edits describe. It has no more
globals than there were edits, so that a word counts them below 2 ^ 32 edits. -/
theorem after_answersLike (edits : List Edit) :
    (after edits).AnswersLike (SymbolMap.after edits) ∧
      (after edits).globalCount ≤ edits.length := by
  have few : (after edits).globalCount ≤ (after edits).size := List.length_filter_le _ _
  exact ⟨(after_shows edits).answersLike, Nat.le_trans few (size_after_le edits)⟩

/-- A name is declared at rank 2, at rank 1 and at rank 2 again, which fails, and is marked at
rank 1. At rank 2 it stands for the symbol of rank 1, the last one that was declared. -/
theorem after_answersLike_inner_first :
    (after [.mark "x" 1, .declare ⟨"x", .int, true, false, 2, 2⟩,
      .declare ⟨"x", .double, false, false, 1, 1⟩,
      .declare ⟨"x", .int, false, false, 0, 2⟩]).lookupLocal? "x" 2 =
        some ⟨"x", .double, false, true, 1, 1⟩ ∧
    (after [.declare ⟨"x", .int, false, false, 0, 2⟩]).declare ⟨"x", .int, true, false, 2, 2⟩ () =
      .error ⟨.duplicateDeclaration, ()⟩ := by
  constructor
  · refine ((after_answersLike _).1.lookupLocal "x" 2 _).mpr
      ⟨⟨⟨"x", .double, false, true, 1, 1⟩, 1⟩, rfl, ⟨1, by decide, by decide, rfl⟩, ?_⟩
    rintro other ⟨depth, positive, le, found⟩
    have depths : depth = 1 ∨ depth = 2 := by omega
    rcases depths with rfl | rfl
    · cases found
      exact Nat.le_refl 1
    · cases found
      exact Nat.zero_le 1
  · exact ((after_answersLike _).1.refuses _ () rfl).1

end SymbolTable

end C0
