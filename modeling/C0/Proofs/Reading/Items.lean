import C0.Proofs.Reading.Table

namespace C0

theorem getElem?_of_prefix {α : Type} {short long : List α} {i : Nat} {a : α}
    (start : short <+: long) (here : short[i]? = some a) : long[i]? = some a := by
  obtain ⟨inside, rfl⟩ := List.getElem?_eq_some_iff.mp here
  exact List.prefix_iff_getElem?.mp start i inside

/-- Parameters are added to a function one by one, and each has a value. -/
theorem ReadsParams.signature {before after : Signature} {s t : State}
    (reads : ReadsParams before s after t) :
    after.address = before.address ∧ after.name = before.name ∧
      ((∀ param ∈ before.params, param.ty ≠ .void) → ∀ param ∈ after.params, param.ty ≠ .void) := by
  have valued {before : Signature} {param : Param} {s t : State}
      (reads : ReadsParam before param s t) (old : ∀ param ∈ before.params, param.ty ≠ .void) :
      ∀ other ∈ (before.withParam param).params, other.ty ≠ .void := by
    intro other member
    rcases List.mem_append.mp member with early | last
    · exact old other early
    · rw [List.mem_singleton.mp last]
      cases reads <;> assumption
  induction reads with
  | last reads => exact ⟨rfl, rfl, valued reads⟩
  | next reads _ _ ih => exact ⟨ih.1, ih.2.1, fun old => ih.2.2 (valued reads old)⟩

namespace State

variable {s t : State}

/-- An entry stands at the address that it is given. -/
theorem entries_of_register {entry : Entry} {address : Nat}
    (same : s.register entry = (address, t)) : t.directory.entries[address]? = some entry := by
  simp only [register, Directory.register] at same
  cases found : s.directory.address? entry with
  | some place =>
    simp only [found, Prod.mk.injEq] at same
    obtain ⟨rfl, rfl⟩ := same
    unfold Directory.address? List.idxOf? at found
    obtain ⟨inside, here, _⟩ := List.findIdx?_eq_some_iff_getElem.mp found
    simp only [beq_iff_eq] at here
    exact List.getElem?_eq_some_iff.mpr ⟨inside, here⟩
  | none =>
    simp only [found, Prod.mk.injEq] at same
    obtain ⟨rfl, rfl⟩ := same
    simp [Directory.size]

/-- A name that is free gets the next address. -/
theorem address_of_register {name : String} {address : Nat}
    (free : s.directory.containsName name = false)
    (same : s.register (.routine name) = (address, t)) : address = s.directory.size := by
  have absent : s.directory.address? (.routine name) = none := by
    unfold Directory.address? List.idxOf?
    simp only [List.findIdx?_eq_none_iff, beq_eq_false_iff_ne]
    rintro entry member rfl
    simp only [Directory.containsName, List.any_eq_false] at free
    exact free _ member (by simp [Entry.isNamed])
  simp only [register, Directory.register, absent, Prod.mk.injEq] at same
  exact same.1.symm

end State

/-- A function gets the next address, and all its parameters have values. -/
theorem ReadsHead.signature {s t : State} {signature : Signature}
    (reads : ReadsHead s signature t) :
    signature.address = s.directory.size ∧
      t.directory.entries[signature.address]? = some (.routine signature.name) ∧
      ∀ param ∈ signature.params, param.ty ≠ .void := by
  have placed {r t u v : State} {name : String} {address : Nat} {kind other : Kind}
      (word : s.Takes kind r) (named : r.Takes other t)
      (free : Analysis.isTakenForFunction t.directory name = false)
      (known : t.register (.routine name) = (address, u))
      (after : Relation.ReflTransGen State.Step u v) :
      address = s.directory.size ∧ v.directory.entries[address]? = some (.routine name) := by
    simp only [Analysis.isTakenForFunction, Bool.or_eq_false_iff] at free
    have more := State.StmtStep.more_entries (State.Step.stmtSteps after)
    have before : t.directory = s.directory := by
      obtain ⟨⟨_, rfl⟩, ⟨_, rfl⟩⟩ := And.intro word named
      rfl
    refine ⟨before ▸ State.address_of_register free.2 known, ?_⟩
    exact getElem?_of_prefix more (State.entries_of_register known)
  cases reads with
  | bare word named free known opening closing arrow typed =>
    obtain ⟨first, here⟩ := placed word named free known
      (opening.steps (by simp) (closing.steps (by simp) (arrow.steps (by simp)
        (typed.steps (by simp) .refl))))
    exact ⟨first, here, by simp⟩
  | params word named free known opening params closing arrow typed =>
    obtain ⟨first, here⟩ := placed word named free known
      (opening.steps (by simp) (params.steps.trans (closing.steps (by simp) (arrow.steps (by simp)
        (typed.steps (by simp) .refl)))))
    obtain ⟨address, name, valued⟩ := params.signature
    dsimp only at address name
    rw [← address] at first here
    rw [← name] at here
    exact ⟨first, here, valued (by simp)⟩

/-- The globals that were declared, in their order. -/
def State.globalSymbols (s : State) : List Symbol :=
  s.initializers.flatMap Stmt.declarations

/-- What holds of a state between functions and declarations of globals: the symbols are the
globals, each has the slot of its place, and functions have addresses of their own. -/
structure State.Settled (s : State) : Prop where
  cores : s.cores = s.globalSymbols.reverse
  globals : ∀ (i : Nat) (symbol : Symbol), s.globalSymbols[i]? = some symbol →
    symbol.rank = 0 ∧ symbol.slot = i ∧ symbol.ty ≠ .void
  count : s.globalSymbols.length = s.initializers.length
  distinct : (s.definitions.map (·.signature.address)).Nodup
  addressed : ∀ definition ∈ s.definitions, definition.signature.address < s.directory.size

namespace State.Settled

variable {s t : State}

theorem within (settled : s.Settled) : s.Within 0 := by
  intro symbol member
  rw [settled.cores, List.mem_reverse] at member
  obtain ⟨i, here⟩ := List.mem_iff_getElem?.mp member
  exact Nat.le_of_eq (settled.globals i symbol here).1

theorem initial (readings : List Reading) : (State.initial readings).Settled :=
  ⟨rfl, by simp [State.initial, State.globalSymbols], rfl, .nil, by simp [State.initial]⟩

end State.Settled

/-- A function leaves the symbols as they were. -/
theorem ReadsFunction.cores {definition : Definition} {s t : State}
    (reads : ReadsFunction definition s t) (within : s.Within 0) : t.cores = s.cores := by
  cases reads with
  | @function t u v w head opening body closing =>
    have inHead : t.cores = s.cores := State.Step.same_cores head.steps
    have start : t.withoutLocals.Within 0 := within.of_cores inHead
    have inBody := body.extends (start.deeper opening.cores)
    exact (inBody.block opening closing start).trans inHead

theorem ReadsFunction.settled {definition : Definition} {s t : State}
    (reads : ReadsFunction definition s t) (settled : s.Settled) : t.Settled := by
  obtain ⟨definitions, initializers⟩ := reads.items
  have globals : t.globalSymbols = s.globalSymbols := by
    simp only [State.globalSymbols, initializers]
  obtain ⟨address, here⟩ : definition.signature.address = s.directory.size ∧
      definition.signature.address < t.directory.size := by
    cases reads with
    | function head opening body closing =>
      obtain ⟨address, here, _⟩ := head.signature
      have more := State.StmtStep.more_entries (opening.stmtSteps (by simp)
        (body.steps.trans (closing.stmtSteps (by simp) .refl)))
      exact ⟨address, Nat.lt_of_lt_of_le (List.getElem?_eq_some_iff.mp here).1 more.length_le⟩
  refine ⟨?_, ?_, ?_, ?_, ?_⟩
  · rw [reads.cores settled.within, settled.cores, globals]
  · rw [globals]
    exact settled.globals
  · rw [globals, initializers]
    exact settled.count
  · rw [definitions, List.map_append, List.nodup_append]
    refine ⟨settled.distinct, by simp, ?_⟩
    intro old member new last same
    obtain ⟨before, among, rfl⟩ := List.mem_map.mp member
    simp only [List.map_cons, List.map_nil, List.mem_singleton] at last
    have := settled.addressed before among
    omega
  · intro other member
    rw [definitions, List.mem_append, List.mem_singleton] at member
    rcases member with early | rfl
    · exact Nat.lt_of_lt_of_le (settled.addressed other early) reads.entries.length_le
    · exact here

theorem ReadsDeclaration.settled {symbol : Symbol} {value : Option Expr} {s t : State}
    (reads : ReadsDeclaration Analysis.globalScope symbol s value t) (settled : s.Settled) :
    (t.withInitializer (.declare symbol value)).Settled := by
  obtain ⟨definitions, initializers⟩ := reads.items
  obtain ⟨u, declares, same, _⟩ := reads.declares
  obtain ⟨added, ranked, valued, _⟩ := declares.cores
  have slot := declares.slot
  rw [if_pos (show Analysis.globalScope.rank = 0 from rfl)] at slot
  have globals : (t.withInitializer (.declare symbol value)).globalSymbols =
      s.globalSymbols ++ [symbol] := by
    simp [State.globalSymbols, State.withInitializer, initializers, Stmt.declarations]
  have count : symbol.slot = s.globalSymbols.length := by
    rw [slot.1, List.filter_eq_self.mpr, settled.cores, List.length_reverse]
    intro other member
    have := settled.within other member
    simpa using this
  refine ⟨?_, ?_, ?_, ?_, ?_⟩
  · rw [globals, List.reverse_append, ← settled.cores]
    exact same.trans added
  · intro i other here
    rw [globals, List.getElem?_append] at here
    split at here
    · exact settled.globals i other here
    · rw [List.getElem?_singleton] at here
      split at here
      · cases here
        exact ⟨ranked, by omega, valued⟩
      · simp at here
  · rw [globals, List.length_append, settled.count]
    simp [State.withInitializer, initializers]
  · exact definitions ▸ settled.distinct
  · intro other member
    have among : other ∈ s.definitions := definitions ▸ member
    have more := State.StmtStep.more_entries reads.steps
    exact Nat.lt_of_lt_of_le (settled.addressed other among) more.length_le

theorem ReadsItems.settled {origin s : State} (items : ReadsItems origin s)
    (start : origin.Settled) : s.Settled := by
  induction items with
  | start => exact start
  | function _ reads ih => exact reads.settled ih
  | global _ reads ih => exact reads.settled ih

/-- What was read at one place of a program is a part of what is read in the end. -/
theorem ReadsItems.grows {origin s : State} (items : ReadsItems origin s) :
    origin.definitions <+: s.definitions ∧ origin.initializers <+: s.initializers ∧
      origin.directory.entries <+: s.directory.entries := by
  induction items with
  | start => exact ⟨List.prefix_rfl, List.prefix_rfl, List.prefix_rfl⟩
  | function _ reads ih =>
    obtain ⟨definitions, initializers⟩ := reads.items
    exact ⟨definitions ▸ ih.1.trans (List.prefix_append _ _), initializers ▸ ih.2.1,
      ih.2.2.trans reads.entries⟩
  | @global t u symbol value _ reads ih =>
    obtain ⟨definitions, initializers⟩ := reads.items
    have more := State.StmtStep.more_entries reads.steps
    refine ⟨?_, ?_, ih.2.2.trans more⟩
    · exact definitions ▸ ih.1
    · exact ih.2.1.trans (initializers ▸ List.prefix_append _ _)

end C0
