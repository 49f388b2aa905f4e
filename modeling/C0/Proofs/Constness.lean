import C0.Proofs.CallConvention
import C0.Proofs.LexicalScope
import C0.Proofs.Linkage
import C0.Proofs.Stores
import Mathlib.Data.List.Nodup

namespace C0

/-- Which slots that code can refer to are those of constants. -/
structure Constness where
  locals : List Bool
  arguments : List Bool
  globals : List Bool

namespace Constness

variable {constness : Constness} {scope other : Scope} {s t : State}

/-- Whether a slot is that of a constant. -/
def holds (constness : Constness) : Place → Bool
  | .frame slot => constness.locals[slot]? == some true
  | .argument offset => constness.arguments[offset]? == some true
  | .static slot => constness.globals[slot]? == some true

theorem some_beq_true (b : Bool) : (some b == some true) = b := by
  cases b <;> rfl

/-- All variables that a scope can refer to in a state are constants just if their slots are those
of constants. A value is not returned in the slot of a constant. -/
structure Marks (constness : Constness) (scope : Scope) (s : State) : Prop where
  symbols : ∀ symbol ∈ s.cores, constness.holds symbol.place = symbol.isConst
  params : ∀ (i : Nat) (param : Param), scope.signature.params[i]? = some param →
    constness.holds (.argument (scope.signature.paramOffset i)) = param.isConst
  returned : scope.signature.returnType ≠ .void → constness.holds (.argument 0) = false

namespace Marks

theorem of_subset (marks : constness.Marks scope s) (fewer : t.cores ⊆ s.cores) :
    constness.Marks scope t :=
  ⟨fun symbol member => marks.symbols symbol (fewer member), marks.params, marks.returned⟩

theorem of_cores (marks : constness.Marks scope s) (same : t.cores = s.cores) :
    constness.Marks scope t :=
  marks.of_subset (same ▸ List.Subset.refl _)

theorem of_signature (marks : constness.Marks scope s) (same : other.signature = scope.signature) :
    constness.Marks other s := by
  obtain ⟨symbols, params, returned⟩ := marks
  exact ⟨symbols, same ▸ params, same ▸ returned⟩

theorem closed (marks : constness.Marks scope s) (rank : Nat) :
    constness.Marks scope (s.closed rank) := by
  refine marks.of_subset ?_
  rw [State.cores_closed]
  exact List.filter_subset_self _

/-- What a name stands for is a constant just if its slot is that of one. -/
theorem resolved {name : String} {v : Variable} (marks : constness.Marks scope s)
    (found : s.variable? scope name = some v) : constness.holds v.place = v.isConst := by
  have ofSymbol {test : Symbol → Bool} (found : s.firstVariable? test = some v) :
      constness.holds v.place = v.isConst := by
    obtain ⟨symbol, first, rfl⟩ := Option.map_eq_some_iff.mp found
    exact marks.symbols symbol (List.mem_of_find?_eq_some first)
  rw [State.resolved_eq, Option.or_eq_some_iff, Option.or_eq_some_iff] at found
  rcases found with inBlocks | ⟨_, ofParam | ⟨_, global⟩⟩
  · exact ofSymbol inBlocks
  · obtain ⟨_, here, rfl⟩ := Option.map_eq_some_iff.mp ofParam
    obtain ⟨⟨param, index⟩, first, rfl⟩ := Option.map_eq_some_iff.mp here
    exact marks.params index param
      (List.mem_zipIdx_iff_getElem?.mp (List.mem_of_find?_eq_some first))
  · exact ofSymbol global

end Marks

end Constness

/-- The slots that a phrase gives values to. -/
def Phrase.targets : Phrase → List Place
  | expression e => e.targets
  | arguments values => Expr.targetsAll values

/-- Expressions give no values to constants. -/
theorem Reads.targets {constness : Constness} {scope : Scope} {s t : State} {phrase : Phrase}
    (reads : Reads scope s phrase t) (marks : constness.Marks scope s) :
    phrase.targets.filter constness.holds = [] := by
  induction reads with
  | int | double | char | load | libraryNothing | libraryText | noArguments => rfl
  | assign takes found mutable sign _ _ ih =>
    have marks' := marks.of_cores takes.cores
    have target := marks'.resolved found
    simp only [Phrase.targets, Expr.targets, List.filter_append, List.append_eq_nil_iff]
    exact ⟨ih (marks'.of_cores sign.cores), by simp [target, mutable]⟩
  | call takes _ _ opening _ _ _ ih =>
    exact ih (marks.of_cores (opening.cores.trans takes.cores))
  | libraryValue takes _ placed opening _ _ _ ih =>
    have steps := takes.steps (by simp) (State.steps_of_register placed
      (opening.steps (by simp) .refl))
    have value := ih (marks.of_cores (State.Step.same_cores steps))
    simpa [Phrase.targets, Expr.targets, Expr.targetsAll] using value
  | group opening _ _ ih => exact ih (marks.of_cores opening.cores)
  | cast _ _ _ _ _ ih => exact ih marks
  | negate sign _ _ ih => exact ih (marks.of_cores sign.cores)
  | binary left sign _ _ _ _ ihLeft ihRight =>
    simp only [Phrase.targets, Expr.targets, List.filter_append, List.append_eq_nil_iff]
    exact ⟨ihLeft marks, ihRight (marks.of_cores (sign.cores.trans left.cores))⟩
  | lastArgument _ ih => simpa [Phrase.targets, Expr.targetsAll] using ih marks
  | nextArgument first comma _ _ ih ihRest =>
    simp only [Phrase.targets, Expr.targetsAll, List.filter_append, List.append_eq_nil_iff]
    exact ⟨ih marks, ihRest (marks.of_cores (comma.cores.trans first.cores))⟩

/-- A declaration gives a value to no constant but its own, and to that one just once. -/
theorem ReadsDeclaration.targets {constness : Constness} {scope : Scope} {symbol : Symbol}
    {value : Option Expr} {s t : State} (reads : ReadsDeclaration scope symbol s value t)
    (marks : constness.Marks scope s) (own : constness.holds symbol.place = symbol.isConst) :
    (Stmt.declare symbol value).targets.filter constness.holds =
      ((Stmt.declare symbol value).declarations.filter Symbol.isConst).map Symbol.place ∧
    constness.Marks scope t := by
  have declared {u : State} (declares : Declares scope symbol s u) : constness.Marks scope u := by
    refine ⟨fun other member => ?_, marks.params, marks.returned⟩
    rw [declares.cores.1, List.mem_cons] at member
    rcases member with rfl | old
    · exact own
    · exact marks.symbols other old
  cases reads with
  | bare declares mutable ends =>
    refine ⟨?_, (declared declares).of_cores ends.cores⟩
    simp [Stmt.targets, Stmt.declarations, mutable]
  | given declares sign value _ ends =>
    have start := (declared declares).of_cores sign.cores
    refine ⟨?_, start.of_cores (ends.cores.trans ((State.cores_initialized _ _).trans value.cores))⟩
    have quiet := value.targets start
    simp only [Phrase.targets] at quiet
    rw [Stmt.targets, List.filter_append, quiet, List.nil_append, Stmt.declarations,
      List.filter_singleton, List.filter_singleton, own]
    cases symbol.isConst <;> rfl

/-- Statements give values to no constants but those that they declare, and to each of those just
once, in the order of the declarations. -/
theorem ReadsStmt.targets {constness : Constness} {scope : Scope} {s t : State} {stmt : Stmt}
    (reads : ReadsStmt scope s stmt t) (marks : constness.Marks scope s)
    (own : ∀ symbol ∈ stmt.declarations, constness.holds symbol.place = symbol.isConst) :
    stmt.targets.filter constness.holds =
      (stmt.declarations.filter Symbol.isConst).map Symbol.place ∧ constness.Marks scope t := by
  induction reads with
  | skip => exact ⟨rfl, marks⟩
  | seq _ _ ihFirst ihRest =>
    simp only [Stmt.declarations, List.forall_mem_append] at own
    obtain ⟨first, marks'⟩ := ihFirst marks own.1
    obtain ⟨rest, marks''⟩ := ihRest marks' own.2
    refine ⟨?_, marks''⟩
    simp only [Stmt.targets, Stmt.declarations, List.filter_append, List.map_append, first, rest]
  | empty ends => exact ⟨rfl, marks.of_cores ends.cores⟩
  | declare reads => exact reads.targets marks (own _ (by simp [Stmt.declarations]))
  | evaluate reads ends =>
    exact ⟨reads.targets marks, marks.of_cores (ends.cores.trans reads.cores)⟩
  | block opening _ closing ih =>
    obtain ⟨body, marks'⟩ := ih ((marks.of_cores opening.cores).of_signature rfl) own
    exact ⟨body, ((marks'.of_cores closing.cores).closed _).of_signature rfl⟩
  | conditional word test _ _ _ _ ih =>
    simp only [Stmt.declarations, List.append_nil] at own
    have start := marks.of_cores word.cores
    obtain ⟨yes, marks'⟩ := ih (start.of_cores test.cores) own
    have quiet := test.targets start
    simp only [Phrase.targets] at quiet
    refine ⟨?_, marks'⟩
    simp only [Stmt.targets, Stmt.declarations, List.filter_append, List.append_nil] at yes ⊢
    rw [quiet, yes]
    rfl
  | alternative word test _ _ other _ ihYes ihNo =>
    simp only [Stmt.declarations, List.forall_mem_append] at own
    have start := marks.of_cores word.cores
    obtain ⟨yes, marks'⟩ := ihYes (start.of_cores test.cores) own.1
    obtain ⟨no, marks''⟩ := ihNo (marks'.of_cores other.cores) own.2
    have quiet := test.targets start
    simp only [Phrase.targets] at quiet
    refine ⟨?_, marks''⟩
    simp only [Stmt.targets, Stmt.declarations, List.filter_append, List.map_append] at yes ⊢
    rw [quiet, yes, no]
    rfl
  | iteration word test _ opening _ closing ih =>
    have start := marks.of_cores word.cores
    have inLoop := (start.of_cores test.cores).of_cores opening.cores
    obtain ⟨body, marks'⟩ := ih (inLoop.of_signature rfl) own
    have quiet := test.targets start
    simp only [Phrase.targets] at quiet
    refine ⟨?_, ((marks'.of_cores closing.cores).closed _).of_signature rfl⟩
    simp only [Stmt.targets, Stmt.declarations, List.filter_append] at body ⊢
    rw [quiet, body]
    rfl
  | leave _ word ends | again _ word ends | giveBackNothing word ends _ =>
    exact ⟨rfl, marks.of_cores (ends.cores.trans word.cores)⟩
  | giveBack word value valued same ends =>
    have start := marks.of_cores word.cores
    have quiet := value.targets start
    simp only [Phrase.targets] at quiet
    refine ⟨?_, start.of_cores (ends.cores.trans value.cores)⟩
    rw [Stmt.targets, List.filter_append, quiet, List.nil_append, List.filter_singleton,
      marks.returned (same ▸ valued)]
    rfl

/-- The variables of a function have slots in its frame. -/
theorem ReadsStmt.place_eq {scope : Scope} {s t : State} {stmt : Stmt}
    (reads : ReadsStmt scope s stmt t) (inside : scope.rank ≠ 0) {symbol : Symbol}
    (member : symbol ∈ stmt.declarations) : symbol.place = .frame symbol.slot := by
  induction reads with
  | seq _ _ ihFirst ihRest =>
    rcases List.mem_append.mp member with first | rest
    · exact ihFirst inside first
    · exact ihRest inside rest
  | declare reads =>
    obtain ⟨_, declares, _⟩ := reads.declares
    obtain rfl := List.mem_singleton.mp member
    exact if_neg (declares.cores.2.1 ▸ inside)
  | block _ _ _ ih | iteration _ _ _ _ _ _ ih =>
    exact ih (by simp [Scope.innerLoop, Scope.inner]) member
  | conditional _ _ _ _ _ _ ih =>
    exact ih inside (by simpa [Stmt.declarations] using member)
  | alternative _ _ _ _ _ _ ihYes ihNo =>
    rcases List.mem_append.mp member with yes | no
    · exact ihYes inside yes
    · exact ihNo inside no
  | _ => simp [Stmt.declarations] at member

/-- The globals are constants just if their slots are those of constants, where that is told of all
that are declared so far. -/
theorem State.Settled.holds_place {s : State} {constness : Constness} (settled : s.Settled)
    (globals : s.globalSymbols.map Symbol.isConst <+: constness.globals) {symbol : Symbol}
    (member : symbol ∈ s.cores) : constness.holds symbol.place = symbol.isConst := by
  rw [settled.cores, List.mem_reverse] at member
  obtain ⟨i, here⟩ := List.mem_iff_getElem?.mp member
  obtain ⟨ranked, slot, _⟩ := settled.globals i symbol here
  have marked : (s.globalSymbols.map Symbol.isConst)[i]? = some symbol.isConst := by simp [here]
  rw [Symbol.place, if_pos ranked, slot, Constness.holds, getElem?_of_prefix globals marked,
    Constness.some_beq_true]

section

variable {constness : Constness} {targets : List Place} {symbols : List Symbol}
  (exact : targets.filter constness.holds = (symbols.filter Symbol.isConst).map Symbol.place)

include exact

/-- A constant that is declared gets a value once. -/
theorem count_constant (own : ∀ symbol ∈ symbols, constness.holds symbol.place = symbol.isConst)
    (distinct : (symbols.map Symbol.place).Nodup) {symbol : Symbol} (member : symbol ∈ symbols)
    (constant : symbol.isConst = true) : targets.count symbol.place = 1 := by
  have sublist := (List.filter_sublist (p := Symbol.isConst) (l := symbols)).map Symbol.place
  have among : symbol.place ∈ (symbols.filter Symbol.isConst).map Symbol.place :=
    List.mem_map_of_mem (List.mem_filter.mpr ⟨member, constant⟩)
  have marked : constness.holds symbol.place = true := (own symbol member).trans constant
  rw [← List.count_filter marked, exact, (distinct.sublist sublist).count, if_pos among]

/-- A constant that is not declared gets no value. -/
theorem constant_notMem {place : Place} (constant : constness.holds place = true)
    (elsewhere : ∀ symbol ∈ symbols, symbol.place ≠ place) : place ∉ targets := by
  intro member
  have among : place ∈ targets.filter constness.holds := List.mem_filter.mpr ⟨member, constant⟩
  rw [exact] at among
  obtain ⟨symbol, declared, same⟩ := List.mem_map.mp among
  exact elsewhere symbol (List.mem_filter.mp declared).1 same

end

theorem Stmt.targets_ofList_append (first second : List Stmt) :
    (ofList (first ++ second)).targets = (ofList first).targets ++ (ofList second).targets := by
  induction first with
  | nil => rfl
  | cons stmt rest ih => simp only [List.cons_append, ofList, targets, ih, List.append_assoc]

/-- The declarations of globals give values to no constants but those that they declare, and to each
of those just once. -/
theorem ReadsItems.targets {source : String} {s : State} {constness : Constness}
    (items : ReadsItems (.ofSource source) s)
    (globals : s.globalSymbols.map Symbol.isConst <+: constness.globals) :
    (Stmt.ofList s.initializers).targets.filter constness.holds =
      (s.globalSymbols.filter Symbol.isConst).map Symbol.place := by
  induction items with
  | start => rfl
  | function _ reads ih =>
    have same := reads.items.2
    rw [State.globalSymbols, same] at globals ⊢
    exact ih globals
  | @global t u symbol value items reads ih =>
    have settled := items.settled (.initial _)
    have settled' := reads.settled settled
    have grown : (u.withInitializer (.declare symbol value)).globalSymbols =
        t.globalSymbols ++ [symbol] := by
      simp [State.globalSymbols, State.withInitializer, reads.items.2, Stmt.declarations]
    have last : symbol ∈ (u.withInitializer (.declare symbol value)).cores := by
      rw [settled'.cores, grown]
      simp
    have earlier : t.globalSymbols.map Symbol.isConst <+: constness.globals := by
      rw [grown, List.map_append] at globals
      exact (List.prefix_append _ _).trans globals
    have marks : constness.Marks Analysis.globalScope t :=
      ⟨fun other => settled.holds_place earlier, by simp [Analysis.globalScope],
        fun valued => absurd rfl valued⟩
    have own := (reads.targets marks (settled'.holds_place globals last)).1
    rw [grown, State.withInitializer, reads.items.2, Stmt.targets_ofList_append, List.filter_append,
      ih earlier, List.filter_append, List.map_append]
    simpa [Stmt.ofList, Stmt.targets, Stmt.declarations] using own

namespace CheckedProgram

/-- The slots that the stores of a function write to, in the order of its code. A store writes to
the slot whose address lies under the value. -/
def stores (checked : CheckedProgram) (definition : Definition) : List Place :=
  written ((checked.setting definition).stackAt definition.body.constants
    definition.routine.code.toList) 0 definition.routine.code.toList

/-- The slots that the stores of the entry function write to. -/
def entryStores (checked : CheckedProgram) : List Place :=
  written (checked.entrySetting.stackAt checked.entryConstants checked.entry.code.toList) 0
    checked.entry.code.toList

/-- The constants among the slots that a function can refer to. -/
def constness (checked : CheckedProgram) (definition : Definition) : Constness where
  locals := definition.body.declarations.map Symbol.isConst
  arguments := List.replicate definition.signature.returnSlots false ++
    definition.signature.params.map Param.isConst
  globals := checked.globals.map GlobalVariable.isConst

/-- The constants among the slots that the entry function can refer to. -/
def entryConstness (checked : CheckedProgram) : Constness :=
  ⟨[], [], checked.globals.map GlobalVariable.isConst⟩

variable {source : String} {options : Options} {checked : CheckedProgram}
  {definition : Definition}

theorem stores_eq (accepted : analyze source options = .ok checked)
    (short : source.utf8ByteSize < 2 ^ 30) (member : definition ∈ checked.definitions) :
    checked.stores definition = definition.body.targets := by
  obtain ⟨small, _, _⟩ := analyze_small accepted short member
  have start : (checked.setting definition).At definition.body.constants
      definition.routine.code.toList 0 [] (definition.body.constants ++ []) := by
    rw [List.append_nil]
    rfl
  have body := (analyze_typed accepted member).written_eq small openBranch_always start
    definition.holds_body.2
  rw [← body, stores]
  rcases Routine.ofBody?_code definition.laidOut with ⟨_, code⟩ | ⟨_, code⟩
  · rw [code]
  · rw [code, written_append, written_cons rfl]
    exact List.append_nil _

theorem entryStores_eq (accepted : analyze source options = .ok checked)
    (short : source.utf8ByteSize < 2 ^ 30) :
    checked.entryStores = (Stmt.ofList checked.initializers).targets := by
  have small := analyze_entrySmall accepted (by omega)
  have typed : (Stmt.ofList checked.initializers).Typed checked.entrySetting :=
    Stmt.typed_ofList fun stmt member => (analyze_initializer accepted member).2
  have start : checked.entrySetting.At checked.entryConstants checked.entry.code.toList 0 []
      ((Stmt.ofList checked.initializers).constants ++ []) := by
    rw [List.append_nil]
    rfl
  have holds : Holds checked.entry.code.toList 0
      ((Stmt.ofList checked.initializers).assembled (fun _ _ => openBranch) 0) := by
    rw [entry_code]
    exact (holds_append.mp (holds_self _)).1
  have body := typed.written_eq small openBranch_always start holds
  have last : ([.indexed .stackalloc (UInt32.ofNat checked.main.returnSlots),
      .indexed .call (UInt32.ofNat checked.main.address)] : List Instruction).all
        (!·.isStore) = true := rfl
  rw [← body, entryStores]
  generalize checked.entrySetting.stackAt checked.entryConstants checked.entry.code.toList = stackAt
  rw [entry_code, written_append, written_eq_nil _ last, List.append_nil]

/-- There is a stack before each instruction of the entry function. -/
theorem entryStack_stackAt (accepted : analyze source options = .ok checked)
    (short : source.utf8ByteSize < 2 ^ 30) {p : Nat} (inside : p < checked.entry.code.size) :
    checked.EntryStack p
      (checked.entrySetting.stackAt checked.entryConstants checked.entry.code.toList p) := by
  obtain ⟨before, code, rest, reached⟩ :=
    entryStack_call accepted (analyze_entrySmall accepted (by omega))
  have early : p ≤ before.length := by
    rw [← Array.length_toList, code, List.length_append, List.length_singleton] at inside
    omega
  rw [Setting.At, ← List.take_append_drop p (List.take _ _), List.take_take, Nat.min_eq_left early,
    Setting.flow?_append] at reached
  obtain ⟨⟨stack, left⟩, here, _⟩ := Option.bind_eq_some_iff.mp reached
  have there : checked.entrySetting.At checked.entryConstants checked.entry.code.toList p stack left :=
    here
  exact ⟨left, there.stackAt_eq.symm ▸ there⟩

/-- Each store of a function has a slot to store to. -/
theorem length_stores (accepted : analyze source options = .ok checked)
    (short : source.utf8ByteSize < 2 ^ 30) (member : definition ∈ checked.definitions) :
    (checked.stores definition).length =
      definition.routine.code.toList.countP Instruction.isStore := by
  have safe := Definition.stackSafe accepted short member
  refine length_written fun p instruction here store => ?_
  obtain rfl : instruction = .plain .store64 := eq_of_beq store
  obtain ⟨after, effect, _⟩ := safe.steps p _ here
  rw [Nat.zero_add]
  exact Instruction.target?_of_effect? effect

/-- Each store of the entry function has a slot to store to. -/
theorem length_entryStores (accepted : analyze source options = .ok checked)
    (short : source.utf8ByteSize < 2 ^ 30) :
    checked.entryStores.length = checked.entry.code.toList.countP Instruction.isStore := by
  refine length_written fun p instruction here store => ?_
  obtain rfl : instruction = .plain .store64 := eq_of_beq store
  have inside : p < checked.entry.code.toList.length := (List.getElem?_eq_some_iff.mp here).1
  have further : p + 1 < checked.entry.code.toList.length := by
    rw [entry_code] at here inside ⊢
    by_contra last
    have same : p =
        ((Stmt.ofList checked.initializers).assembled (fun _ _ => openBranch) 0).length + 1 := by
      simp only [List.length_append, List.length_cons, List.length_nil] at inside last
      omega
    subst same
    simp at here
  obtain ⟨left, reached⟩ := entryStack_stackAt accepted short (Array.length_toList ▸ inside)
  obtain ⟨_, reached'⟩ := entryStack_stackAt accepted short (Array.length_toList ▸ further)
  rw [Setting.At, List.take_add_one, here, Setting.flow?_append, show _ = _ from reached,
    Option.bind_some] at reached'
  obtain ⟨_, step, _⟩ := Option.bind_eq_some_iff.mp reached'
  obtain ⟨_, effect, _⟩ := Option.map_eq_some_iff.mp step
  rw [Nat.zero_add]
  exact Instruction.target?_of_effect? effect

/-- The globals that are listed are constants just if their declarations say so. -/
theorem globals_isConst (accepted : analyze source options = .ok checked) :
    checked.globals.map GlobalVariable.isConst =
      (checked.initializers.flatMap Stmt.declarations).map Symbol.isConst := by
  obtain ⟨s, items, globals, _, initializers, _⟩ := analyze_listed accepted
  rw [globals, initializers, items.listed.globals, List.map_map]
  rfl

section

variable (accepted : analyze source options = .ok checked) (member : definition ∈ checked.definitions)

include accepted member

theorem constness_local {symbol : Symbol} (declared : symbol ∈ definition.body.declarations) :
    (checked.constness definition).holds (.frame symbol.slot) = symbol.isConst := by
  obtain ⟨i, here⟩ := List.mem_iff_getElem?.mp declared
  have slot := congrArg (·[i]?) (Definition.slots accepted member)
  simp only [List.getElem?_map, here, Option.map_some] at slot
  obtain ⟨_, same⟩ := List.getElem?_eq_some_iff.mp slot.symm
  rw [List.getElem_range] at same
  rw [← same, Constness.holds, constness, List.getElem?_map, here, Option.map_some,
    Constness.some_beq_true]

/-- A function gives values to no constants but those that it declares, and to each of those just
once. -/
theorem targets_definition :
    definition.body.targets.filter (checked.constness definition).holds =
      (definition.body.declarations.filter Symbol.isConst).map Symbol.place ∧
    ∀ symbol ∈ definition.body.declarations, symbol.place = .frame symbol.slot := by
  have constants := globals_isConst accepted
  have own {symbol : Symbol} (declared : symbol ∈ definition.body.declarations) :=
    constness_local accepted member declared
  obtain ⟨s, t, main, items, ⟨_, rfl⟩, _, rfl⟩ := analyze_reads accepted
  obtain ⟨u, v, before, reads, after⟩ := items.of_mem_definitions rfl member
  have settled := before.settled (.initial _)
  have grown : u.initializers <+: s.initializers := reads.items.2 ▸ after.grows.2.1
  cases reads with
  | @function t u v w head opening body closing =>
    have places (symbol : Symbol) (declared : symbol ∈ definition.body.declarations) :
        symbol.place = .frame symbol.slot :=
      body.place_eq (by simp [Definition.scope]) declared
    refine ⟨(body.targets ⟨?_, ?_, ?_⟩ fun symbol declared => ?_).1, places⟩
    · rw [opening.cores]
      intro symbol among
      have inHead : t.cores = _ := State.Step.same_cores head.steps
      refine settled.holds_place ?_ (inHead ▸ among)
      rw [constness, constants]
      exact (List.IsPrefix.flatMap grown Stmt.declarations).map Symbol.isConst
    · intro i param here
      simp only [Definition.scope, Signature.paramOffset, Constness.holds, constness] at here ⊢
      rw [List.getElem?_append_right (by simp)]
      simp only [List.length_replicate, Nat.add_sub_cancel, List.getElem?_map, here, Option.map_some,
        Constness.some_beq_true]
    · intro valued
      simp only [Definition.scope, Constness.holds, constness, Signature.returnSlots] at valued ⊢
      cases found : definition.signature.returnType with
      | void => exact absurd found valued
      | _ => rfl
    · rw [places symbol declared]
      exact own declared

end

/-- The declarations of globals of an accepted source give a value once to each constant that they
declare. -/
theorem targets_entry (accepted : analyze source options = .ok checked) :
    (Stmt.ofList checked.initializers).targets.filter checked.entryConstness.holds =
      ((checked.initializers.flatMap Stmt.declarations).filter Symbol.isConst).map Symbol.place := by
  have constants := globals_isConst accepted
  obtain ⟨s, items, _, _, initializers, _⟩ := analyze_listed accepted
  rw [initializers] at constants ⊢
  refine items.targets ?_
  rw [entryConstness, constants]
  exact List.prefix_rfl

/-- A global has the slot of its place among the globals. -/
theorem global_place (accepted : analyze source options = .ok checked) {i : Nat} {symbol : Symbol}
    (here : (checked.initializers.flatMap Stmt.declarations)[i]? = some symbol) :
    symbol.place = .static i := by
  obtain ⟨s, items, _, _, initializers, _⟩ := analyze_listed accepted
  rw [initializers] at here
  obtain ⟨ranked, slot, _⟩ := (items.settled (.initial _)).globals i symbol here
  rw [Symbol.place, if_pos ranked, slot]

theorem global_places (accepted : analyze source options = .ok checked) :
    (checked.initializers.flatMap Stmt.declarations).map Symbol.place =
      (List.range (checked.initializers.flatMap Stmt.declarations).length).map .static := by
  refine List.ext_getElem (by simp) fun i inside _ => ?_
  rw [List.length_map] at inside
  rw [List.getElem_map, List.getElem_map, List.getElem_range]
  exact global_place accepted (List.getElem?_eq_getElem inside)

/-- The stores of a program write to constants only where they are declared: to a constant of a
function once in that function, to a constant among the globals once in the entry function and
nowhere else, and to a constant parameter never. -/
structure KeepsConstants (checked : CheckedProgram) : Prop where
  locals : ∀ definition ∈ checked.definitions, ∀ symbol ∈ definition.body.declarations,
    symbol.isConst = true → (checked.stores definition).count (.frame symbol.slot) = 1
  params : ∀ definition ∈ checked.definitions, ∀ (i : Nat) (param : Param),
    definition.signature.params[i]? = some param → param.isConst = true →
      .argument (definition.signature.paramOffset i) ∉ checked.stores definition
  globals : ∀ (i : Nat) (v : GlobalVariable), checked.globals[i]? = some v → v.isConst = true →
    checked.entryStores.count (.static i) = 1 ∧
      ∀ definition ∈ checked.definitions, .static i ∉ checked.stores definition

theorem keepsConstants (accepted : analyze source options = .ok checked)
    (short : source.utf8ByteSize < 2 ^ 30) : checked.KeepsConstants := by
  have constants := globals_isConst accepted
  have global {i : Nat} {v : GlobalVariable} (here : checked.globals[i]? = some v)
      (constant : v.isConst = true) (constness : Constness)
      (same : constness.globals = checked.globals.map GlobalVariable.isConst) :
      constness.holds (.static i) = true := by
    rw [Constness.holds, same, List.getElem?_map, here, Option.map_some, constant]
    rfl
  refine ⟨?_, ?_, ?_⟩
  · intro definition member symbol declared constant
    obtain ⟨exact, places⟩ := targets_definition accepted member
    have slots : definition.body.declarations.map Symbol.place =
        (List.range definition.routine.locals).map .frame := by
      rw [← Definition.slots accepted member, List.map_map]
      exact List.map_congr_left places
    -- Each slot has one declaration, so the store of a constant is told apart by its slot.
    have distinct : (definition.body.declarations.map Symbol.place).Nodup := by
      rw [slots]
      exact List.Nodup.map (fun _ _ => Place.frame.inj) List.nodup_range
    rw [stores_eq accepted short member, ← places symbol declared]
    refine count_constant exact (fun other among => ?_) distinct declared constant
    rw [places other among]
    exact constness_local accepted member among
  · intro definition member i param here constant
    obtain ⟨exact, places⟩ := targets_definition accepted member
    rw [stores_eq accepted short member]
    refine constant_notMem exact ?_ fun symbol among => by simp [places symbol among]
    rw [Constness.holds, constness, Signature.paramOffset, List.getElem?_append_right (by simp)]
    simp [here, constant]
  · intro i v here constant
    refine ⟨?_, fun definition member => ?_⟩
    · have marked := congrArg (·[i]?) constants
      simp only [List.getElem?_map, here, Option.map_some] at marked
      obtain ⟨symbol, found, same⟩ := Option.map_eq_some_iff.mp marked.symm
      have place := global_place accepted found
      have distinct : ((checked.initializers.flatMap Stmt.declarations).map Symbol.place).Nodup := by
        rw [global_places accepted]
        exact List.Nodup.map (fun _ _ => Place.static.inj) List.nodup_range
      rw [entryStores_eq accepted short, ← place]
      refine count_constant (targets_entry accepted) (fun other among => ?_) distinct
        (List.mem_of_getElem? found) (same.trans constant)
      obtain ⟨j, there⟩ := List.mem_iff_getElem?.mp among
      rw [global_place accepted there, Constness.holds, entryConstness, constants,
        List.getElem?_map, there, Option.map_some, Constness.some_beq_true]
    · obtain ⟨exact, places⟩ := targets_definition accepted member
      rw [stores_eq accepted short member]
      exact constant_notMem exact (global here constant _ rfl)
        fun symbol among => by simp [places symbol among]

end CheckedProgram

end C0
