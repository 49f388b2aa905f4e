import C0.Proofs.Reading.Steps

namespace C0

open Relation (ReflTransGen)

/-- A symbol without the note whether it has a value. -/
def Symbol.core (symbol : Symbol) : Symbol :=
  { symbol with isInitialized := false }

/-- The symbols of a state without the notes whether they have a value. -/
def State.cores (s : State) : List Symbol :=
  s.symbols.symbols.map Symbol.core

/-- The symbols that a statement declares, in their order. -/
def Stmt.declarations : Stmt → List Symbol
  | seq first rest => first.declarations ++ rest.declarations
  | declare symbol _ => [symbol]
  | block body => body.declarations
  | conditional _ yes no => yes.declarations ++ no.declarations
  | iteration _ body => body.declarations
  | _ => []

namespace State

variable {s t : State}

theorem cores_initialized (s : State) (v : Variable) : (s.initialized v).cores = s.cores := by
  unfold initialized
  cases v.rank with
  | none => rfl
  | some rank => exact s.symbols.map_markInitialized (fun _ => rfl) v.name rank

theorem frame_initialized (s : State) (v : Variable) : (s.initialized v).frame = s.frame := by
  unfold initialized
  cases v.rank <;> rfl

/-- The first symbol that passes a test, as a variable. -/
def firstVariable? (s : State) (test : Symbol → Bool) : Option Variable :=
  (s.cores.find? test).map Symbol.toVariable

theorem find?_toVariable (s : State) {test : Symbol → Bool}
    (blind : ∀ symbol : Symbol, test symbol.core = test symbol) :
    (s.symbols.symbols.find? test).map Symbol.toVariable = s.firstVariable? test := by
  have same : test ∘ Symbol.core = test := funext blind
  rw [firstVariable?, cores, List.find?_map, Option.map_map, same]
  rfl

/-- A name stands for a local variable, else for a parameter, else for a global. -/
theorem resolved_eq (s : State) (scope : Scope) (name : String) :
    s.variable? scope name =
      (s.firstVariable? fun symbol =>
          symbol.rank != 0 && symbol.rank ≤ scope.rank && symbol.name == name).or
        (((scope.signature.param? name).map scope.signature.paramVariable).or
          (s.firstVariable? (·.isAt name 0))) := by
  rw [← s.find?_toVariable fun _ => rfl, ← s.find?_toVariable fun _ => rfl]
  unfold State.variable? SymbolTable.lookupLocal? SymbolTable.lookupGlobal?
  cases s.symbols.symbols.find? _ with
  | some symbol => rfl
  | none => cases scope.signature.param? name <;> rfl

theorem isDeclaredAt_eq (s : State) (name : String) (rank : Nat) :
    s.symbols.isDeclaredAt name rank = s.cores.any (·.isAt name rank) := by
  simp only [SymbolTable.isDeclaredAt, cores, List.any_map]
  rfl

theorem globalCount_eq (s : State) :
    s.symbols.globalCount = (s.cores.filter (·.rank == 0)).length := by
  simp only [SymbolTable.globalCount, cores, List.filter_map, List.length_map]
  rfl

theorem cores_closed (s : State) (rank : Nat) :
    (s.closed rank).cores = s.cores.filter (·.rank != rank) := by
  simp only [closed, SymbolTable.dropRank, cores, List.filter_map]
  rfl

theorem cores_published (s : State) (symbol : Symbol) : (s.published symbol).cores = s.cores := by
  unfold published
  split <;> rfl

theorem frame_published (s : State) (symbol : Symbol) : (s.published symbol).frame = s.frame := by
  unfold published
  split <;> rfl

theorem Takes.cores {kind : Kind} (takes : s.Takes kind t) : t.cores = s.cores := by
  obtain ⟨_, rfl⟩ := takes
  rfl

theorem Takes.frame {kind : Kind} (takes : s.Takes kind t) : t.frame = s.frame := by
  obtain ⟨_, rfl⟩ := takes
  rfl

theorem Step.cores (step : s.Step t) : t.cores = s.cores := by
  cases step with
  | take _ takes => exact takes.cores
  | register => rfl
  | mark => exact cores_initialized _ _

theorem Step.frame (step : s.Step t) : t.frame = s.frame := by
  cases step with
  | take _ takes => exact takes.frame
  | register => rfl
  | mark => exact frame_initialized _ _

theorem Step.same_cores (steps : ReflTransGen Step s t) : t.cores = s.cores := by
  induction steps with
  | refl => rfl
  | tail _ step ih => exact step.cores.trans ih

theorem Step.same_frame (steps : ReflTransGen Step s t) : t.frame = s.frame := by
  induction steps with
  | refl => rfl
  | tail _ step ih => exact step.frame.trans ih

end State

theorem Reads.cores {scope : Scope} {s t : State} {phrase : Phrase}
    (reads : Reads scope s phrase t) : t.cores = s.cores :=
  State.Step.same_cores reads.steps

theorem Reads.frame {scope : Scope} {s t : State} {phrase : Phrase}
    (reads : Reads scope s phrase t) : t.frame = s.frame :=
  State.Step.same_frame reads.steps

/-- A declaration puts its symbol before the others, whose ranks have no such name. -/
theorem Declares.cores {scope : Scope} {symbol : Symbol} {s t : State}
    (declares : Declares scope symbol s t) :
    t.cores = symbol :: s.cores ∧ symbol.rank = scope.rank ∧ symbol.ty ≠ .void ∧
      s.cores.any (·.isAt symbol.name symbol.rank) = false := by
  cases declares with
  | @head t u v w x word named _ colon typed valued allocated ranked fresh free =>
    have same : x.cores = s.cores := by
      have allocate : x.cores = w.cores := by
        unfold State.allocate at allocated
        split at allocated <;> obtain ⟨_, rfl⟩ := Prod.mk.inj allocated <;> rfl
      rw [allocate, typed.cores, colon.cores, named.cores, word.cores]
    refine ⟨?_, ranked, valued, ?_⟩
    · rw [State.cores_published, ← same]
      simp only [State.cores, State.declared, List.map_cons, Symbol.core, ← fresh]
    · rw [← same, ← State.isDeclaredAt_eq]
      exact free

/-- A local variable gets the next slot of the frame, a global the next one among the globals. -/
theorem Declares.slot {scope : Scope} {symbol : Symbol} {s t : State}
    (declares : Declares scope symbol s t) :
    if scope.rank = 0 then
      symbol.slot = (s.cores.filter (·.rank == 0)).length ∧ t.frame = s.frame
    else symbol.slot = s.frame.locals ∧ t.frame.locals = s.frame.locals + 1 := by
  cases declares with
  | @head t u v w x word named _ colon typed _ allocated =>
    have sameCores : w.cores = s.cores := by
      rw [typed.cores, colon.cores, named.cores, word.cores]
    have sameFrame : w.frame = s.frame := by
      rw [typed.frame, colon.frame, named.frame, word.frame]
    rw [State.frame_published, ← sameCores, ← sameFrame, ← State.globalCount_eq]
    unfold State.allocate at allocated
    split at allocated
    · obtain ⟨slot, rfl⟩ := Prod.mk.inj allocated
      rw [if_pos ‹_›]
      exact ⟨slot.symm, rfl⟩
    · obtain ⟨slot, rfl⟩ := Prod.mk.inj allocated
      rw [if_neg ‹_›]
      exact ⟨slot.symm, rfl⟩

theorem ReadsDeclaration.declares {scope : Scope} {symbol : Symbol} {s t : State}
    {value : Option Expr} (reads : ReadsDeclaration scope symbol s value t) :
    ∃ u, Declares scope symbol s u ∧ t.cores = u.cores ∧ t.frame = u.frame := by
  cases reads with
  | bare declares _ ends => exact ⟨_, declares, ends.cores, ends.frame⟩
  | given declares sign value _ ends =>
    refine ⟨_, declares, ?_, ?_⟩
    · rw [ends.cores, State.cores_initialized, value.cores, sign.cores]
    · rw [ends.frame, State.frame_initialized, value.frame, sign.frame]

namespace State

variable {s t u : State} {rank : Nat}

/-- No symbol of a state is deeper than a rank. -/
def Within (s : State) (rank : Nat) : Prop :=
  ∀ symbol ∈ s.cores, symbol.rank ≤ rank

/-- The symbols of a state are those of another one and some of a rank before them. -/
def Extends (rank : Nat) (s t : State) : Prop :=
  ∃ new, t.cores = new ++ s.cores ∧ ∀ symbol ∈ new, symbol.rank = rank

theorem Within.of_cores (within : s.Within rank) (same : t.cores = s.cores) : t.Within rank := by
  rwa [Within, same]

theorem Within.extend (within : s.Within rank) (extended : Extends rank s t) : t.Within rank := by
  obtain ⟨new, split, ranked⟩ := extended
  intro symbol member
  rw [split, List.mem_append] at member
  rcases member with fresh | old
  · exact Nat.le_of_eq (ranked symbol fresh)
  · exact within symbol old

theorem Within.deeper (within : s.Within rank) (same : t.cores = s.cores) : t.Within (rank + 1) := by
  intro symbol member
  rw [same] at member
  exact Nat.le_succ_of_le (within symbol member)

namespace Extends

theorem of_cores (same : t.cores = s.cores) : Extends rank s t :=
  ⟨[], same, by simp⟩

theorem trans (first : Extends rank s t) (second : Extends rank t u) : Extends rank s u := by
  obtain ⟨new, split, ranked⟩ := first
  obtain ⟨more, split', ranked'⟩ := second
  refine ⟨more ++ new, by rw [split', split, List.append_assoc], fun symbol member => ?_⟩
  rcases List.mem_append.mp member with late | early
  · exact ranked' symbol late
  · exact ranked symbol early

/-- What a block declares goes when it is closed, and nothing else does. -/
theorem closed (extended : Extends (rank + 1) s t) (within : s.Within rank) :
    (t.closed (rank + 1)).cores = s.cores := by
  obtain ⟨new, split, ranked⟩ := extended
  have gone : new.filter (·.rank != rank + 1) = [] := by
    simpa using ranked
  have kept : s.cores.filter (·.rank != rank + 1) = s.cores := by
    refine List.filter_eq_self.mpr fun symbol member => ?_
    have := within symbol member
    simp only [bne_iff_ne]
    omega
  rw [cores_closed, split, List.filter_append, gone, kept, List.nil_append]

end Extends

/-- A block leaves the symbols as they were. -/
theorem Extends.block {opening closing : Kind} {v : State} (extended : Extends (rank + 1) t u)
    (opens : s.Takes opening t) (closes : u.Takes closing v) (within : s.Within rank) :
    (v.closed (rank + 1)).cores = s.cores := by
  have inBlock := extended.trans (.of_cores closes.cores)
  rw [inBlock.closed (within.of_cores opens.cores), opens.cores]

end State

/-- A statement leaves the symbols from before and adds some of its own rank. -/
theorem ReadsStmt.extends {scope : Scope} {s t : State} {stmt : Stmt}
    (reads : ReadsStmt scope s stmt t) (within : s.Within scope.rank) :
    State.Extends scope.rank s t := by
  induction reads with
  | skip => exact .of_cores rfl
  | seq _ _ ihFirst ihRest =>
    have first := ihFirst within
    exact first.trans (ihRest (within.extend first))
  | empty ends => exact .of_cores ends.cores
  | @declare scope s t symbol value reads =>
    obtain ⟨u, declares, same, _⟩ := reads.declares
    obtain ⟨added, ranked, _⟩ := declares.cores
    exact ⟨[symbol], same.trans added, by simpa using ranked⟩
  | evaluate reads ends => exact .of_cores (ends.cores.trans reads.cores)
  | block opening _ closing ih =>
    have inBlock := ih (within.deeper opening.cores)
    exact .of_cores (inBlock.block opening closing within)
  | conditional word test _ _ _ _ ih =>
    have same := test.cores.trans word.cores
    exact .trans (.of_cores same) (ih (within.of_cores same))
  | alternative word test _ _ other _ ihYes ihNo =>
    have same := test.cores.trans word.cores
    have yes := State.Extends.trans (.of_cores same) (ihYes (within.of_cores same))
    have no := yes.trans (.of_cores other.cores)
    exact no.trans (ihNo (within.extend no))
  | iteration word test _ opening _ closing ih =>
    have same := test.cores.trans word.cores
    have inside := within.of_cores same
    have inBlock := ih (inside.deeper opening.cores)
    exact .trans (.of_cores same) (.of_cores (inBlock.block opening closing inside))
  | leave _ word ends | again _ word ends | giveBackNothing word ends _ =>
    exact .of_cores (ends.cores.trans word.cores)
  | giveBack word value _ _ ends =>
    exact .of_cores (ends.cores.trans (value.cores.trans word.cores))

/-- The local variables that a statement declares get the next slots of the frame in their order. -/
theorem ReadsStmt.slots {scope : Scope} {s t : State} {stmt : Stmt}
    (reads : ReadsStmt scope s stmt t) (inside : scope.rank ≠ 0) :
    stmt.declarations.map Symbol.slot = List.range' s.frame.locals stmt.declarations.length ∧
      t.frame.locals = s.frame.locals + stmt.declarations.length := by
  induction reads with
  | skip => simp [Stmt.declarations]
  | seq _ _ ihFirst ihRest =>
    obtain ⟨first, middle⟩ := ihFirst inside
    obtain ⟨rest, last⟩ := ihRest inside
    simp only [Stmt.declarations, List.map_append, List.length_append, first, rest, last, middle]
    exact ⟨List.range'_append_1, by omega⟩
  | empty ends => simp [Stmt.declarations, ends.frame]
  | declare reads =>
    obtain ⟨u, declares, _, same⟩ := reads.declares
    have slot := declares.slot
    rw [if_neg inside] at slot
    simp [Stmt.declarations, same, slot]
  | evaluate reads ends => simp [Stmt.declarations, ends.frame, reads.frame]
  | block opening _ closing ih =>
    obtain ⟨slots, last⟩ := ih (by simp [Scope.inner])
    rw [opening.frame] at slots last
    exact ⟨slots, last ▸ congrArg Frame.locals closing.frame⟩
  | conditional word test _ _ _ _ ih =>
    obtain ⟨slots, last⟩ := ih inside
    rw [test.frame, word.frame] at slots last
    simpa [Stmt.declarations] using And.intro slots last
  | alternative word test _ _ other _ ihYes ihNo =>
    obtain ⟨slots, middle⟩ := ihYes inside
    obtain ⟨slots', last⟩ := ihNo inside
    rw [test.frame, word.frame] at slots middle
    rw [other.frame] at slots' last
    simp only [Stmt.declarations, List.map_append, List.length_append] at slots middle ⊢
    simp only [slots, slots', last, middle]
    exact ⟨List.range'_append_1, by omega⟩
  | iteration word test _ opening _ closing ih =>
    obtain ⟨slots, last⟩ := ih (by simp [Scope.innerLoop, Scope.inner])
    rw [opening.frame, test.frame, word.frame] at slots last
    exact ⟨slots, last ▸ congrArg Frame.locals closing.frame⟩
  | leave _ word ends | again _ word ends | giveBackNothing word ends _ =>
    simp [Stmt.declarations, ends.frame, word.frame]
  | giveBack word value _ _ ends =>
    simp [Stmt.declarations, ends.frame, value.frame, word.frame]

end C0
