import C0.Proofs.Machine
import C0.Proofs.Reading.Items
import Mathlib.Data.List.Infix

namespace C0

open Relation (ReflTransGen)

/-- The types of the argument slots: the slot of the returned value, then the parameters. -/
def Signature.argumentTypes (signature : Signature) : List Ty :=
  List.replicate signature.returnSlots signature.returnType ++ signature.params.map Param.ty

/-- The types of the values that a library function takes. A text is passed by its address. -/
def Library.argumentTypes (function : Library) : List Ty :=
  match function.argument with
  | .nothing => []
  | .value ty => [ty]
  | .text => [.int]

/-- What the code of a function can refer to. -/
structure Setting where
  signature : Signature
  /-- The declared types of the local slots. -/
  locals : List Ty
  /-- The declared types of the globals. -/
  globals : List Ty
  routines : List Signature
  directory : Directory

namespace Setting

/-- The declared type of a slot. -/
def slotType? (setting : Setting) : Place → Option Ty
  | .frame slot => setting.locals[slot]?
  | .argument offset => setting.signature.argumentTypes[offset]?
  | .static slot => setting.globals[slot]?

/-- The function at an address. -/
def routineAt? (setting : Setting) (address : Nat) : Option Signature :=
  setting.routines.find? (·.address == address)

/-- The library function that an address names. -/
def libraryAt? (setting : Setting) (address : Nat) : Option Library :=
  match setting.directory.entries[address]? with
  | some (.library function) => some function
  | _ => none

end Setting

/-- The types in an expression agree with each other and with what it refers to. -/
inductive Expr.Typed (setting : Setting) : Expr → Prop
  | int {word} : Typed setting (.int word)
  | double {bits} : Typed setting (.double bits)
  | char {value} : Typed setting (.char value)
  | text {value address} : setting.directory.entries[address]? = some (.text value) →
      Typed setting (.text value address)
  | load {v} : setting.slotType? v.place = some v.ty → v.ty ≠ .void → Typed setting (.load v)
  | assign {target value} : setting.slotType? target.place = some target.ty →
      target.ty ≠ .void → Typed setting value → value.ty = target.ty →
      Typed setting (.assign target value)
  | call {signature values} : setting.routineAt? signature.address = some signature →
      (∀ e ∈ values, Typed setting e) → values.map Expr.ty = signature.params.map Param.ty →
      Typed setting (.call (.routine signature) values)
  | library {address function values} : setting.libraryAt? address = some function →
      (∀ e ∈ values, Typed setting e) → values.map Expr.ty = function.argumentTypes →
      (function.argument = .text → ∃ value place, values = [.text value place]) →
      Typed setting (.call (.library address function) values)
  | group {inner} : Typed setting inner → Typed setting (.group inner)
  | cast {operand target} : Typed setting operand → operand.ty ≠ .void → target ≠ .void →
      Typed setting (.cast operand.ty target operand)
  | negate {operand} : Typed setting operand → operand.ty ≠ .void →
      Typed setting (.unary .negate operand.ty operand)
  | binary {kind op left right} : Operator.binary? kind = some op → Typed setting left →
      Typed setting right → left.ty = right.ty → left.ty ≠ .void →
      Typed setting (.binary op left.ty left right)

/-- The types in a statement agree. -/
def Stmt.Typed (setting : Setting) : Stmt → Prop
  | skip | empty | leave | again => True
  | seq first rest => first.Typed setting ∧ rest.Typed setting
  | declare _ none => True
  | declare symbol (some value) => setting.slotType? symbol.place = some symbol.ty ∧
      symbol.ty ≠ .void ∧ value.Typed setting ∧ value.ty = symbol.ty
  | evaluate e => e.Typed setting
  | block body => body.Typed setting
  | conditional test yes no => test.Typed setting ∧ test.ty ≠ .void ∧ yes.Typed setting ∧
      no.Typed setting
  | iteration test body => test.Typed setting ∧ test.ty ≠ .void ∧ body.Typed setting
  | giveBack none => setting.signature.returnType = .void
  | giveBack (some value) => value.Typed setting ∧ value.ty = setting.signature.returnType ∧
      value.ty ≠ .void

namespace Setting

variable {setting : Setting} {scope : Scope} {s t : State}

/-- A symbol has a slot of its type. -/
def Fits (setting : Setting) (symbol : Symbol) : Prop :=
  setting.slotType? symbol.place = some symbol.ty ∧ symbol.ty ≠ .void

/-- All that a scope can refer to in a state is there. -/
structure Covers (setting : Setting) (scope : Scope) (s : State) : Prop where
  signature : setting.signature = scope.signature
  params : ∀ param ∈ scope.signature.params, param.ty ≠ .void
  symbols : ∀ symbol ∈ s.cores, setting.Fits symbol
  /-- A function can call itself, but the entry function cannot. -/
  itself : scope.signature.name ≠ entryName →
    setting.routineAt? scope.signature.address = some scope.signature
  before : ∀ definition ∈ s.definitions,
    setting.routineAt? definition.signature.address = some definition.signature

namespace Covers

theorem of_steps (covers : setting.Covers scope s) (steps : ReflTransGen State.Step s t) :
    setting.Covers scope t := by
  have definitions : t.definitions = s.definitions :=
    (Prod.mk.inj (State.StmtStep.same_items (State.Step.stmtSteps steps))).1
  refine ⟨covers.signature, covers.params, ?_, covers.itself, ?_⟩
  · rw [State.Step.same_cores steps]
    exact covers.symbols
  · rw [definitions]
    exact covers.before

theorem take {kind : Kind} (covers : setting.Covers scope s) (takes : s.Takes kind t)
    (more : kind ≠ .eof) : setting.Covers scope t :=
  covers.of_steps (takes.steps more .refl)

/-- What a name stands for has a slot of its type. -/
theorem resolved {name : String} {v : Variable} (covers : setting.Covers scope s)
    (found : s.variable? scope name = some v) :
    setting.slotType? v.place = some v.ty ∧ v.ty ≠ .void := by
  have ofSymbol {test : Symbol → Bool} (found : s.firstVariable? test = some v) :
      setting.slotType? v.place = some v.ty ∧ v.ty ≠ .void := by
    obtain ⟨symbol, first, rfl⟩ := Option.map_eq_some_iff.mp found
    exact covers.symbols symbol (List.mem_of_find?_eq_some first)
  rw [State.resolved_eq, Option.or_eq_some_iff, Option.or_eq_some_iff] at found
  rcases found with inBlocks | ⟨_, ofParam | ⟨_, global⟩⟩
  · exact ofSymbol inBlocks
  · obtain ⟨_, here, rfl⟩ := Option.map_eq_some_iff.mp ofParam
    obtain ⟨⟨param, index⟩, first, rfl⟩ := Option.map_eq_some_iff.mp here
    have among : scope.signature.params[index]? = some param :=
      List.mem_zipIdx_iff_getElem?.mp (List.mem_of_find?_eq_some first)
    refine ⟨?_, covers.params param (List.mem_of_getElem? among)⟩
    simp only [Prod.swap_prod_mk, Signature.paramVariable, slotType?, covers.signature,
      Signature.argumentTypes, Signature.paramOffset]
    rw [List.getElem?_append_right (by simp)]
    simp [among]
  · exact ofSymbol global

theorem callee {name : String} {signature : Signature} (covers : setting.Covers scope s)
    (found : s.callee? scope name = some signature) :
    setting.routineAt? signature.address = some signature := by
  unfold State.callee? at found
  split at found
  · rename_i own
    cases found
    exact covers.itself (own.1 ▸ own.2)
  · obtain ⟨definition, first, rfl⟩ := Option.map_eq_some_iff.mp found
    exact covers.before definition (List.mem_of_find?_eq_some first)

end Covers

end Setting

/-- The types in a phrase agree. -/
def Phrase.Typed (setting : Setting) : Phrase → Prop
  | expression e => e.Typed setting
  | arguments values => ∀ e ∈ values, e.Typed setting

theorem entries_initialized (s : State) (v : Variable) :
    (s.initialized v).directory = s.directory := by
  unfold State.initialized
  cases v.rank <;> rfl

/-- What is read has types that agree. -/
theorem Reads.typed {setting : Setting} {scope : Scope} {s t : State} {phrase : Phrase}
    (reads : Reads scope s phrase t) (covers : setting.Covers scope s)
    (known : t.directory.entries <+: setting.directory.entries) : phrase.Typed setting := by
  have library {u v : State} {function : Library} {address : Nat}
      (placed : u.register (.library function) = (address, v))
      (known : v.directory.entries <+: setting.directory.entries) :
      setting.libraryAt? address = some function := by
    simp [Setting.libraryAt?, getElem?_of_prefix known (State.entries_of_register placed)]
  induction reads with
  | int => exact .int
  | double => exact .double
  | char => exact .char
  | load takes _ _ _ found =>
    obtain ⟨slot, valued⟩ := (covers.take takes (by simp)).resolved found
    exact .load slot valued
  | assign takes found _ sign _ same ih =>
    have covers' := covers.take takes (by simp)
    obtain ⟨slot, valued⟩ := covers'.resolved found
    rw [entries_initialized] at known
    exact .assign slot valued (ih (covers'.take sign (by simp)) known) same
  | call takes _ found opening _ closing types ih =>
    have covers' := covers.take takes (by simp)
    have more := State.StmtStep.more_entries (closing.stmtSteps (by simp) .refl)
    exact .call (covers'.callee found)
      (ih (covers'.take opening (by simp)) (more.trans known)) types
  | libraryNothing takes _ placed opening expected closing =>
    have more := State.StmtStep.more_entries
      (opening.stmtSteps (by simp) (closing.stmtSteps (by simp) .refl))
    exact .library (library placed (more.trans known)) (by simp)
      (by simp [Library.argumentTypes, expected]) (by simp [expected])
  | libraryValue takes _ placed opening expected value closing ih =>
    have last := State.StmtStep.more_entries (closing.stmtSteps (by simp) .refl)
    have more := State.StmtStep.more_entries
      (opening.stmtSteps (by simp) (value.stmtSteps.trans (closing.stmtSteps (by simp) .refl)))
    have covers' := covers.of_steps (takes.steps (by simp) (State.steps_of_register placed
      (opening.steps (by simp) .refl)))
    refine .library (library placed (more.trans known)) ?_
      (by simp [Library.argumentTypes, expected]) (by simp [expected])
    simpa [Phrase.Typed] using ih covers' (last.trans known)
  | libraryText takes _ placed opening expected literal stored closing =>
    have last := State.StmtStep.more_entries (closing.stmtSteps (by simp) .refl)
    have more := State.StmtStep.more_entries (State.Step.stmtSteps (opening.steps (by simp)
      (literal.steps (by simp) (State.steps_of_register stored (closing.steps (by simp) .refl)))))
    refine .library (library placed (more.trans known)) ?_
      (by simp [Library.argumentTypes, expected, Expr.ty]) fun _ => ⟨_, _, rfl⟩
    have text := getElem?_of_prefix (last.trans known) (State.entries_of_register stored)
    simpa using Expr.Typed.text text
  | group opening _ closing ih =>
    have last := State.StmtStep.more_entries (closing.stmtSteps (by simp) .refl)
    exact .group (ih (covers.take opening (by simp)) (last.trans known))
  | cast _ word typed valued proper ih =>
    have last := State.StmtStep.more_entries
      (word.stmtSteps (by simp) (typed.stmtSteps (by simp) .refl))
    exact .cast (ih covers (last.trans known)) valued proper
  | negate sign _ valued ih => exact .negate (ih (covers.take sign (by simp)) known) valued
  | @binary _ _ _ _ kind op _ _ left sign operator right same valued ihLeft ihRight =>
    have more : kind ≠ .eof := by
      rintro rfl
      simp [Operator.binary?] at operator
    have last := State.StmtStep.more_entries (sign.stmtSteps more right.stmtSteps)
    exact .binary operator (ihLeft covers (last.trans known))
      (ihRight (covers.of_steps (left.steps.tail (.take more sign))) known) same valued
  | noArguments => simp [Phrase.Typed]
  | lastArgument _ ih => simpa [Phrase.Typed] using ih covers known
  | nextArgument first comma rest _ ih ihRest =>
    have last := State.StmtStep.more_entries (comma.stmtSteps (by simp) rest.stmtSteps)
    have covers' := covers.of_steps (first.steps.tail (.take (by simp) comma))
    simp only [Phrase.Typed, List.forall_mem_cons]
    exact ⟨ih covers (last.trans known), ihRest covers' known⟩

namespace Setting.Covers

variable {setting : Setting} {scope other : Scope} {s t : State}

theorem of_signature (covers : setting.Covers scope s) (same : other.signature = scope.signature) :
    setting.Covers other s := by
  obtain ⟨signature, params, symbols, itself, before⟩ := covers
  exact ⟨same ▸ signature, same ▸ params, symbols, same ▸ itself, before⟩

/-- What can be referred to is still there when other symbols that fit are in sight. -/
theorem of_stmtSteps (covers : setting.Covers scope s) (steps : ReflTransGen State.StmtStep s t)
    (symbols : ∀ symbol ∈ t.cores, setting.Fits symbol) : setting.Covers scope t := by
  have definitions : t.definitions = s.definitions :=
    (Prod.mk.inj (State.StmtStep.same_items steps)).1
  refine ⟨covers.signature, covers.params, symbols, covers.itself, ?_⟩
  rw [definitions]
  exact covers.before

theorem closed (covers : setting.Covers scope s) (rank : Nat) :
    setting.Covers scope (s.closed rank) := by
  refine covers.of_stmtSteps (.single .close) fun symbol member => ?_
  rw [State.cores_closed] at member
  exact covers.symbols symbol (List.mem_of_mem_filter member)

end Setting.Covers

/-- A declaration with a slot of its type has types that agree, and its symbol is there. -/
theorem ReadsDeclaration.typed {setting : Setting} {scope : Scope} {symbol : Symbol}
    {value : Option Expr} {s t : State} (reads : ReadsDeclaration scope symbol s value t)
    (covers : setting.Covers scope s) (fits : setting.Fits symbol)
    (known : t.directory.entries <+: setting.directory.entries) :
    (Stmt.declare symbol value).Typed setting ∧ setting.Covers scope t := by
  have declared {u : State} (declares : Declares scope symbol s u) : setting.Covers scope u := by
    refine covers.of_stmtSteps declares.steps fun other member => ?_
    rw [declares.cores.1, List.mem_cons] at member
    rcases member with rfl | old
    · exact fits
    · exact covers.symbols other old
  cases reads with
  | bare declares _ ends => exact ⟨trivial, (declared declares).take ends (by simp)⟩
  | given declares sign value same ends =>
    have start := (declared declares).take sign (by simp)
    have marked := (value.steps.tail .mark).tail (.take (by simp) ends)
    have last := State.StmtStep.more_entries
      (.head (.inside .mark) (ends.stmtSteps (by simp) .refl))
    exact ⟨⟨fits.1, fits.2, value.typed start (last.trans known), same⟩, start.of_steps marked⟩

/-- Statements that are read in a function have types that agree, if its slots have the types of
the variables that are declared. -/
theorem ReadsStmt.typed {setting : Setting} {scope : Scope} {s t : State} {stmt : Stmt}
    (reads : ReadsStmt scope s stmt t) (inside : scope.rank ≠ 0) (covers : setting.Covers scope s)
    (slots : Holds setting.locals s.frame.locals (stmt.declarations.map Symbol.ty))
    (known : t.directory.entries <+: setting.directory.entries) :
    stmt.Typed setting ∧ setting.Covers scope t := by
  induction reads with
  | skip => exact ⟨trivial, covers⟩
  | @seq scope s t u first rest readsFirst readsRest ihFirst ihRest =>
    simp only [Stmt.declarations, List.map_append, holds_append, List.length_map] at slots
    rw [← (readsFirst.slots inside).2] at slots
    have more := State.StmtStep.more_entries readsRest.steps
    obtain ⟨typed, covers'⟩ := ihFirst inside covers slots.1 (more.trans known)
    obtain ⟨typed', covers''⟩ := ihRest inside covers' slots.2 known
    exact ⟨⟨typed, typed'⟩, covers''⟩
  | empty ends => exact ⟨trivial, covers.take ends (by simp)⟩
  | @declare scope s t symbol value reads =>
    obtain ⟨u, declares, _⟩ := reads.declares
    obtain ⟨_, ranked, valued, _⟩ := declares.cores
    have slot := declares.slot
    rw [if_neg inside] at slot
    simp only [Stmt.declarations, List.map_cons, holds_cons] at slots
    have fits : setting.Fits symbol := by
      rw [Setting.Fits, Symbol.place, if_neg (ranked ▸ inside), slot.1]
      exact ⟨slots.1, valued⟩
    exact reads.typed covers fits known
  | evaluate reads ends =>
    have last := State.StmtStep.more_entries (ends.stmtSteps (by simp) .refl)
    exact ⟨reads.typed covers (last.trans known),
      (covers.of_steps reads.steps).take ends (by simp)⟩
  | block opening body closing ih =>
    have last := State.StmtStep.more_entries (closing.stmtSteps (by simp) .refl)
    obtain ⟨typed, covers'⟩ := ih (by simp [Scope.inner])
      ((covers.take opening (by simp)).of_signature rfl) (opening.frame ▸ slots) (last.trans known)
    exact ⟨typed, ((covers'.take closing (by simp)).closed _).of_signature rfl⟩
  | conditional word test valued yes _ _ ih =>
    have more := State.StmtStep.more_entries yes.steps
    have start := covers.take word (by simp)
    simp only [Stmt.declarations, List.append_nil] at slots
    obtain ⟨typed, covers'⟩ := ih inside (start.of_steps test.steps)
      (by rw [test.frame, word.frame]; exact slots) known
    exact ⟨⟨test.typed start (more.trans known), valued, typed, trivial⟩, covers'⟩
  | @alternative scope s t u v w x tested yes no word test valued readsYes other readsNo ihYes ihNo =>
    have ofNo := State.StmtStep.more_entries (other.stmtSteps (by simp) readsNo.steps)
    have ofYes := State.StmtStep.more_entries readsYes.steps
    have start := covers.take word (by simp)
    have frames : u.frame = s.frame := test.frame.trans word.frame
    rw [Stmt.declarations, List.map_append, holds_append, List.length_map, ← frames,
      ← (readsYes.slots inside).2, ← other.frame] at slots
    obtain ⟨typed, covers'⟩ := ihYes inside (start.of_steps test.steps) slots.1 (ofNo.trans known)
    obtain ⟨typed', covers''⟩ := ihNo inside (covers'.take other (by simp)) slots.2 known
    exact ⟨⟨test.typed start (ofYes.trans (ofNo.trans known)), valued, typed, typed'⟩, covers''⟩
  | iteration word test valued opening body closing ih =>
    have last := State.StmtStep.more_entries (closing.stmtSteps (by simp) .refl)
    have more := State.StmtStep.more_entries (opening.stmtSteps (by simp)
      (body.steps.trans (closing.stmtSteps (by simp) .refl)))
    have start := covers.take word (by simp)
    obtain ⟨typed, covers'⟩ := ih (by simp [Scope.innerLoop, Scope.inner])
      (((start.of_steps test.steps).take opening (by simp)).of_signature rfl)
      (by rw [opening.frame, test.frame, word.frame]; exact slots) (last.trans known)
    exact ⟨⟨test.typed start (more.trans known), valued, typed⟩,
      ((covers'.take closing (by simp)).closed _).of_signature rfl⟩
  | leave _ word ends | again _ word ends =>
    exact ⟨trivial, (covers.take word (by simp)).take ends (by simp)⟩
  | giveBackNothing word ends void =>
    refine ⟨?_, (covers.take word (by simp)).take ends (by simp)⟩
    rw [Stmt.Typed, covers.signature]
    exact void
  | giveBack word value valued same ends =>
    have last := State.StmtStep.more_entries (ends.stmtSteps (by simp) .refl)
    have start := covers.take word (by simp)
    exact ⟨⟨value.typed start (last.trans known), covers.signature ▸ same, valued⟩,
      (start.of_steps value.steps).take ends (by simp)⟩

/-- What the code of a function of a program can refer to. -/
def CheckedProgram.setting (checked : CheckedProgram) (definition : Definition) : Setting where
  signature := definition.signature
  locals := definition.body.declarations.map Symbol.ty
  globals := (checked.initializers.flatMap Stmt.declarations).map Symbol.ty
  routines := checked.definitions.map Definition.signature
  directory := checked.directory

/-- A function is found by its address, as no two have the same. -/
theorem find?_address {definitions : List Definition} {definition : Definition}
    (distinct : (definitions.map (·.signature.address)).Nodup) (member : definition ∈ definitions) :
    (definitions.map Definition.signature).find? (·.address == definition.signature.address) =
      some definition.signature := by
  induction definitions with
  | nil => simp at member
  | cons first rest ih =>
    rw [List.map_cons, List.nodup_cons] at distinct
    rcases List.mem_cons.mp member with rfl | later
    · simp
    · have other : first.signature.address ≠ definition.signature.address := by
        intro same
        exact distinct.1 (List.mem_map.mpr ⟨definition, later, same.symm⟩)
      simp [other, ih distinct.2 later]

/-- The globals have slots of their types where all that are declared so far have one. -/
theorem State.Settled.fits {s : State} {setting : Setting} (settled : s.Settled)
    (globals : s.globalSymbols.map Symbol.ty <+: setting.globals) {symbol : Symbol}
    (member : symbol ∈ s.cores) : setting.Fits symbol := by
  rw [settled.cores, List.mem_reverse] at member
  obtain ⟨i, here⟩ := List.mem_iff_getElem?.mp member
  obtain ⟨ranked, slot, valued⟩ := settled.globals i symbol here
  have typed : (s.globalSymbols.map Symbol.ty)[i]? = some symbol.ty := by simp [here]
  refine ⟨?_, valued⟩
  rw [Symbol.place, if_pos ranked, slot]
  exact getElem?_of_prefix globals typed

theorem ReadsFunction.typed {definition : Definition} {s t : State} {checked : CheckedProgram}
    (reads : ReadsFunction definition s t) (settled : s.Settled)
    (globals : s.initializers <+: checked.initializers)
    (distinct : (checked.definitions.map (·.signature.address)).Nodup)
    (definitions : t.definitions <+: checked.definitions)
    (known : t.directory.entries <+: checked.directory.entries) :
    definition.body.Typed (checked.setting definition) := by
  have itself : definition ∈ t.definitions := by simp [reads.items.1]
  have found {other : Definition} (member : other ∈ t.definitions) :
      (checked.setting definition).routineAt? other.signature.address = some other.signature :=
    find?_address distinct (definitions.subset member)
  have items := reads.items
  cases reads with
  | @function t u v w head opening body closing =>
    have steps := State.Step.stmtSteps head.steps
    have inHead : t.cores = s.cores ∧ t.definitions = s.definitions :=
      ⟨State.Step.same_cores head.steps, (Prod.mk.inj (State.StmtStep.same_items steps)).1⟩
    have start : (checked.setting definition).Covers definition.scope t.withoutLocals := by
      refine ⟨rfl, head.signature.2.2, fun symbol member => ?_, fun _ => found itself,
        fun other member => ?_⟩
      · have among : symbol ∈ s.cores := inHead.1 ▸ member
        refine settled.fits ?_ among
        exact (List.IsPrefix.flatMap globals Stmt.declarations).map Symbol.ty
      · have early : other ∈ s.definitions := inHead.2 ▸ member
        exact found (by rw [items.1]; exact List.mem_append_left _ early)
    have last := State.StmtStep.more_entries (closing.stmtSteps (by simp) .refl)
    refine (body.typed (by simp [Definition.scope]) (start.take opening (by simp)) ?_
      (last.trans known)).1
    rw [opening.frame]
    exact holds_self _

/-- The functions of an accepted source have types that agree. -/
theorem analyze_typed {source : String} {options : Options} {checked : CheckedProgram}
    {definition : Definition} (accepted : analyze source options = .ok checked)
    (member : definition ∈ checked.definitions) :
    definition.body.Typed (checked.setting definition) := by
  obtain ⟨s, t, main, items, ⟨_, rfl⟩, _, rfl⟩ := analyze_reads accepted
  obtain ⟨u, v, before, reads, after⟩ := items.of_mem_definitions rfl member
  have settled := before.settled (.initial _)
  have grown := after.grows
  refine reads.typed settled ?_ (items.settled (.initial _)).distinct grown.1 ?_
  · exact reads.items.2 ▸ grown.2.1
  · exact grown.2.2.trans (State.entries_registered _ _)

end C0
