import C0.Proofs.Precedence

namespace C0

/-- The state after a variable got a value. -/
def State.initialized (s : State) (v : Variable) : State :=
  match v.rank with
  | some rank => { s with symbols := s.symbols.markInitialized v.name rank }
  | none => s

/-- The variable that a parameter is. -/
def Signature.paramVariable (signature : Signature) (found : Nat × Param) : Variable :=
  ⟨found.2.name, found.2.ty, found.2.isConst, .argument (signature.paramOffset found.1), none⟩

/-- The variable of a name in a scope, if it is declared. -/
def State.variable? (s : State) (scope : Scope) (name : String) : Option Variable :=
  match s.symbols.lookupLocal? name scope.rank with
  | some symbol => some symbol.toVariable
  | none =>
    match scope.signature.param? name with
    | some found => some (scope.signature.paramVariable found)
    | none => (s.symbols.lookupGlobal? name).map Symbol.toVariable

/-- The signature of the function of a name in a scope, if it is defined. -/
def State.callee? (s : State) (scope : Scope) (name : String) : Option Signature :=
  if scope.signature.name = name ∧ name ≠ entryName then some scope.signature
  else (s.definitions.find? (·.signature.name == name)).map Definition.signature

/-- What is read as a whole: an expression, or the arguments of a call. -/
inductive Phrase where
  | expression (e : Expr)
  | arguments (values : List Expr)

open Analysis

/-- How expressions are read in a scope: which tokens are taken, and what is looked up, checked and
changed between them. The precedence of operators is left open here. -/
inductive Reads (scope : Scope) : State → Phrase → State → Prop
  | int {s t word} : s.Takes (.uint word) t → Reads scope s (.expression (.int word)) t
  | double {s t bits} : s.Takes (.double bits) t → Reads scope s (.expression (.double bits)) t
  | char {s t value} : s.Takes (.char value) t → Reads scope s (.expression (.char value)) t
  | load {s t name v next} : s.Takes (.identifier name) t → t.current = .ok next →
      next ≠ .mark .assign → next ≠ .mark .openParen →
      t.variable? scope name = some v → Reads scope s (.expression (.load v)) t
  | assign {s t u v name target value} : s.Takes (.identifier name) t →
      t.variable? scope name = some target → target.isConst = false →
      t.Takes (.mark .assign) u → Reads scope u (.expression value) v → value.ty = target.ty →
      Reads scope s (.expression (.assign target value)) (v.initialized target)
  | call {s t u v w name signature values} : s.Takes (.identifier name) t →
      Library.ofName? name = none → t.callee? scope name = some signature →
      t.Takes (.mark .openParen) u → Reads scope u (.arguments values) v →
      v.Takes (.mark .closeParen) w → values.map Expr.ty = signature.params.map Param.ty →
      Reads scope s (.expression (.call (.routine signature) values)) w
  | libraryNothing {s t u v w name function address} : s.Takes (.identifier name) t →
      Library.ofName? name = some function → t.register (.library function) = (address, u) →
      u.Takes (.mark .openParen) v → function.argument = .nothing →
      v.Takes (.mark .closeParen) w → Reads scope s (.expression (.call (.library address function) [])) w
  | libraryValue {s t u v w x name function address value} : s.Takes (.identifier name) t →
      Library.ofName? name = some function → t.register (.library function) = (address, u) →
      u.Takes (.mark .openParen) v → function.argument = .value value.ty →
      Reads scope v (.expression value) w → w.Takes (.mark .closeParen) x →
      Reads scope s (.expression (.call (.library address function) [value])) x
  | libraryText {s t u v w x y name function address value place} : s.Takes (.identifier name) t →
      Library.ofName? name = some function → t.register (.library function) = (address, u) →
      u.Takes (.mark .openParen) v → function.argument = .text → v.Takes (.string value) w →
      w.register (.text value) = (place, x) → x.Takes (.mark .closeParen) y →
      Reads scope s (.expression (.call (.library address function) [.text value place])) y
  | group {s t u v inner} : s.Takes (.mark .openParen) t → Reads scope t (.expression inner) u →
      u.Takes (.mark .closeParen) v → Reads scope s (.expression (.group inner)) v
  | cast {s t u v operand target} : Reads scope s (.expression operand) t →
      t.Takes (.keyword .asWord) u → u.Takes (.type target) v → operand.ty ≠ .void →
      target ≠ .void → Reads scope s (.expression (.cast operand.ty target operand)) v
  | negate {s t u operand} : s.Takes (.mark .minus) t → Reads scope t (.expression operand) u →
      operand.ty ≠ .void → Reads scope s (.expression (.unary .negate operand.ty operand)) u
  | binary {s t u v kind op left right} : Reads scope s (.expression left) t → t.Takes kind u →
      Operator.binary? kind = some op → Reads scope u (.expression right) v →
      left.ty = right.ty → left.ty ≠ .void →
      Reads scope s (.expression (.binary op left.ty left right)) v
  | noArguments {s} : Reads scope s (.arguments []) s
  | lastArgument {s t e} : Reads scope s (.expression e) t → Reads scope s (.arguments [e]) t
  | nextArgument {s t u v e values} : Reads scope s (.expression e) t →
      t.Takes (.mark .comma) u → Reads scope u (.arguments values) v → values ≠ [] →
      Reads scope s (.arguments (e :: values)) v

namespace Analysis

variable {scope : Scope} {s t : State}

@[simp] theorem markInitialized_ok_iff {v : Variable} {x : Unit} :
    markInitialized v s = .ok x t ↔ s.initialized v = t := by
  unfold markInitialized State.initialized
  cases v.rank <;> simp

theorem param?_name {signature : Signature} {name : String} {found : Nat × Param}
    (here : signature.param? name = some found) : found.2.name = name := by
  obtain ⟨⟨param, index⟩, first, rfl⟩ := Option.map_eq_some_iff.mp here
  simpa using List.find?_some first

/-- Looking up a name changes nothing. It finds the variable of the name or fails. -/
theorem resolve_eq (scope : Scope) (name : String) (site : Nat) (s : State) :
    resolve scope name site s = match s.variable? scope name with
      | some v => .ok v s
      | none => .error ⟨.notDeclared, site⟩ s := by
  unfold resolve State.variable?
  rw [get_bind_eq]
  cases s.symbols.lookupLocal? name scope.rank with
  | some symbol => rfl
  | none =>
    cases here : scope.signature.param? name with
    | some found =>
      obtain ⟨index, param⟩ := found
      have named : param.name = name := param?_name here
      simp only [Signature.paramVariable, named]
      rfl
    | none => cases s.symbols.lookupGlobal? name <;> rfl

@[simp] theorem resolve_ok_iff {name : String} {site : Nat} {v : Variable} :
    resolve scope name site s = .ok v t ↔ s.variable? scope name = some v ∧ s = t := by
  rw [resolve_eq]
  cases s.variable? scope name <;> simp

/-- Looking up a function changes nothing. -/
theorem callee_eq (scope : Scope) (name : String) (site : Nat) (s : State) :
    callee scope name site s = match s.callee? scope name with
      | some signature => .ok signature s
      | none => .error ⟨.notDeclared, site⟩ s := by
  unfold callee State.callee?
  split
  · rfl
  · rw [get_bind_eq]
    cases s.definitions.find? (·.signature.name == name) <;> rfl

@[simp] theorem callee_ok_iff {name : String} {site : Nat} {signature : Signature} :
    callee scope name site s = .ok signature t ↔ s.callee? scope name = some signature ∧ s = t := by
  rw [callee_eq]
  cases s.callee? scope name <;> simp

/-- Arguments that pass the check have the types of the parameters. -/
theorem matchParams_ok {arguments : List (Expr × Nat)} {params : List Param} {site : Nat} {x : Unit}
    (run : matchParams arguments params site s = .ok x t) :
    s = t ∧ (arguments.map Prod.fst).map Expr.ty = params.map Param.ty := by
  simp only [matchParams, bind_ok_iff, refuse_ok_iff, not_not] at run
  obtain ⟨_, _, ⟨length, rfl⟩, run⟩ := run
  cases unlike : (arguments.zip params).find? fun pair => pair.1.1.ty != pair.2.ty with
  | some pair => simp [unlike] at run
  | none =>
    simp only [unlike] at run
    refine ⟨(pure_ok_iff.mp run).2, ?_⟩
    simp only [List.find?_eq_none, bne_iff_ne, not_not] at unlike
    refine List.ext_getElem (by simpa using length) fun i bound bound' => ?_
    simp only [List.length_map] at bound bound'
    have pair : (arguments[i], params[i]) ∈ arguments.zip params := by
      refine List.mem_iff_getElem.mpr ⟨i, by simp; omega, by simp⟩
    simpa using unlike _ pair

section

variable {inner : Option (Scope → Analysis Expr)} {e : Expr}
  (nested : ∀ f, inner = some f → ∀ s e t, f scope s = .ok e t → Reads scope s (.expression e) t)

include nested

theorem assignment_reads {name : String} {u : State} (takes : s.Takes (.identifier name) t)
    (run : assignment inner scope name s.position t = .ok e u) :
    Reads scope s (.expression e) u := by
  simp only [assignment, bind_ok_iff, resolve_ok_iff, refuse_ok_iff, expect_ok_iff, enter_ok_iff,
    markInitialized_ok_iff, pure_ok_iff, not_not, Bool.not_eq_true] at run
  obtain ⟨target, _, ⟨found, rfl⟩, _, _, ⟨mutable, rfl⟩, _, v, ⟨sign, rfl⟩, f, _, ⟨allowed, rfl⟩,
    value, w, read, _, _, ⟨fits, rfl⟩, _, _, rfl, rfl, rfl⟩ := run
  exact .assign takes found mutable sign (nested f allowed _ _ _ read) fits

omit nested in
theorem argument_reads {f : Scope → Analysis Expr}
    (reads : ∀ s e t, f scope s = .ok e t → Reads scope s (.expression e) t)
    {before values : List (Expr × Nat)} {s t : State}
    (walk : Iterates (argument scope f) before s values t) :
    ∃ more, values = before ++ more ∧ more ≠ [] ∧
      Reads scope s (.arguments (more.map Prod.fst)) t := by
  induction walk with
  | @done before s values t last =>
    simp only [argument, bind_ok_iff, peek_ok_iff] at last
    obtain ⟨start, _, ⟨_, _, rfl⟩, value, u, read, site, v, eaten, last⟩ := last
    cases site with
    | some site => simp at last
    | none =>
      obtain ⟨rfl, _⟩ := eat_none_iff.mp eaten
      simp only [pure_ok_iff, Sum.inr.injEq] at last
      obtain ⟨rfl, rfl⟩ := last
      exact ⟨[(value, start.site)], rfl, by simp, .lastArgument (reads _ _ _ read)⟩
  | @next before s before' t values u first _ ih =>
    simp only [argument, bind_ok_iff, peek_ok_iff] at first
    obtain ⟨start, _, ⟨_, _, rfl⟩, value, v, read, site, w, eaten, first⟩ := first
    cases site with
    | none => simp at first
    | some site =>
      obtain ⟨comma, _⟩ := eat_some_iff.mp eaten
      simp only [pure_ok_iff, Sum.inl.injEq] at first
      obtain ⟨rfl, rfl⟩ := first
      obtain ⟨more, rfl, nonempty, rest⟩ := ih
      exact ⟨(value, start.site) :: more, by simp, by simp,
        .nextArgument (reads _ _ _ read) comma rest (by simpa using nonempty)⟩

theorem arguments_reads {values : List (Expr × Nat)}
    (run : arguments inner scope s = .ok values t) :
    ∃ u v, s.Takes (.mark .openParen) u ∧ Reads scope u (.arguments (values.map Prod.fst)) v ∧
      v.Takes (.mark .closeParen) t := by
  simp only [arguments, bind_ok_iff, expect_ok_iff, enter_ok_iff, check_ok_iff, pure_ok_iff] at run
  obtain ⟨_, u, ⟨opening, rfl⟩, f, _, ⟨allowed, rfl⟩, isEmpty, _, ⟨_, rfl⟩, found, v, run,
    _, w, ⟨closing, rfl⟩, rfl, rfl⟩ := run
  refine ⟨u, v, opening, ?_, closing⟩
  split at run
  · obtain ⟨rfl, rfl⟩ := pure_ok_iff.mp run
    exact .noArguments
  · obtain ⟨more, rfl, _, reads⟩ := argument_reads (nested f allowed) (repeatUntil_iterates run)
    exact reads

theorem call_reads {name : String} {u : State} (takes : s.Takes (.identifier name) t)
    (run : call inner scope name s.position t = .ok e u) : Reads scope s (.expression e) u := by
  unfold call at run
  cases known : Library.ofName? name with
  | none =>
    simp only [known, bind_ok_iff, callee_ok_iff, pure_ok_iff] at run
    obtain ⟨signature, _, ⟨found, rfl⟩, values, v, read, _, w, fits, rfl, rfl⟩ := run
    obtain ⟨_, _, opening, reads, closing⟩ := arguments_reads nested read
    obtain ⟨rfl, types⟩ := matchParams_ok fits
    exact .call takes known found opening reads closing types
  | some function =>
    simp only [known, bind_ok_iff, register_ok_iff, expect_ok_iff, pure_ok_iff] at run
    obtain ⟨address, v, registered, _, w, ⟨opening, rfl⟩, values, x, read, _, y, ⟨closing, rfl⟩,
      rfl, rfl⟩ := run
    cases expected : function.argument with
    | nothing =>
      simp only [expected, libraryArgument, pure_ok_iff] at read
      obtain ⟨rfl, rfl⟩ := read
      exact .libraryNothing takes known registered opening expected closing
    | value ty =>
      simp only [expected, libraryArgument, bind_ok_iff, peek_ok_iff, refuse_ok_iff, enter_ok_iff,
        pure_ok_iff, not_not] at read
      obtain ⟨_, _, ⟨_, _, rfl⟩, _, _, ⟨_, rfl⟩, f, _, ⟨allowed, rfl⟩, value, z, read,
        _, _, ⟨rfl, rfl⟩, rfl, rfl⟩ := read
      exact .libraryValue takes known registered opening expected (nested f allowed _ _ _ read)
        closing
    | text =>
      simp only [expected, libraryArgument, bind_ok_iff, next_ok_iff] at read
      obtain ⟨⟨kind, _⟩, z, ⟨literal, _⟩, read⟩ := read
      cases kind with
      | string value =>
        simp only [bind_ok_iff, register_ok_iff, pure_ok_iff] at read
        obtain ⟨place, _, again, rfl, rfl⟩ := read
        exact .libraryText takes known registered opening expected literal again closing
      | _ => simp at read

theorem named_reads {name : String} {u : State} (takes : s.Takes (.identifier name) t)
    (run : named inner scope name s.position t = .ok e u) : Reads scope s (.expression e) u := by
  simp only [named, bind_ok_iff, peek_ok_iff] at run
  obtain ⟨⟨next, _⟩, _, ⟨current, _, rfl⟩, run⟩ := run
  have loads (notAssign : next ≠ .mark .assign) (notCall : next ≠ .mark .openParen)
      (run : (do return .load (← resolve scope name s.position) : Analysis Expr) t = .ok e u) :
      Reads scope s (.expression e) u := by
    simp only [bind_ok_iff, resolve_ok_iff, pure_ok_iff] at run
    obtain ⟨v, _, ⟨found, rfl⟩, rfl, rfl⟩ := run
    exact .load takes current notAssign notCall found
  cases next with
  | mark mark =>
    cases mark with
    | assign => exact assignment_reads nested takes run
    | openParen => exact call_reads nested takes run
    | _ => exact loads (by simp) (by simp) run
  | _ => exact loads (by simp) (by simp) run

theorem primary_reads (run : primary inner scope s = .ok e t) : Reads scope s (.expression e) t := by
  obtain ⟨⟨kind, site⟩, u, taken, run⟩ := bind_ok_iff.mp run
  obtain ⟨takes, rfl⟩ := next_ok_iff.mp taken
  cases kind with
  | uint word =>
    obtain ⟨rfl, rfl⟩ := pure_ok_iff.mp run
    exact .int takes
  | double bits =>
    obtain ⟨rfl, rfl⟩ := pure_ok_iff.mp run
    exact .double takes
  | char value =>
    obtain ⟨rfl, rfl⟩ := pure_ok_iff.mp run
    exact .char takes
  | identifier name => exact named_reads nested takes run
  | mark mark =>
    cases mark with
    | openParen =>
      simp only [parenthesized, bind_ok_iff, enter_ok_iff, expect_ok_iff, pure_ok_iff] at run
      obtain ⟨f, _, ⟨allowed, rfl⟩, value, v, read, _, w, ⟨closing, rfl⟩, rfl, rfl⟩ := run
      exact .group takes (nested f allowed _ _ _ read) closing
    | _ => simp at run
  | _ => simp at run

theorem operand_reads (run : operand inner scope s = .ok e t) : Reads scope s (.expression e) t := by
  simp only [operand, bind_ok_iff] at run
  obtain ⟨value, u, first, casts⟩ := run
  have reads := primary_reads nested first
  clear first
  have walk := repeatUntil_iterates casts
  clear casts
  induction walk with
  | @done value u e t last =>
    simp only [cast, bind_ok_iff] at last
    obtain ⟨site, v, eaten, last⟩ := last
    cases site with
    | some site => simp at last
    | none =>
      obtain ⟨rfl, _⟩ := eat_none_iff.mp eaten
      simp only [pure_ok_iff, Sum.inr.injEq] at last
      obtain ⟨rfl, rfl⟩ := last
      exact reads
  | @next value u value' v e t first _ ih =>
    simp only [cast, bind_ok_iff] at first
    obtain ⟨site, w, eaten, first⟩ := first
    cases site with
    | none => simp at first
    | some site =>
      obtain ⟨as, _⟩ := eat_some_iff.mp eaten
      simp only [bind_ok_iff, expectType_ok_iff, refuse_ok_iff, pure_ok_iff, Sum.inl.injEq,
        not_or] at first
      obtain ⟨target, x, ⟨type, _⟩, _, _, ⟨⟨valued, proper⟩, rfl⟩, rfl, rfl⟩ := first
      exact ih (.cast reads as type valued proper)

omit nested in
/-- Signs make what is read behind them into what is read from the first of them on. -/
theorem signs_read (scope : Scope) {before sites : List Nat} {s u : State}
    (walk : Iterates Layered.sign before s sites u) :
    ∃ more, sites = more ++ before ∧ ∀ value e t, Reads scope u (.expression value) t →
      more.foldlM Layered.negate value = .ok e → Reads scope s (.expression e) t := by
  induction walk with
  | @done before s sites u last =>
    simp only [Layered.sign, bind_ok_iff] at last
    obtain ⟨site, v, eaten, last⟩ := last
    cases site with
    | some site => simp at last
    | none =>
      obtain ⟨rfl, _⟩ := eat_none_iff.mp eaten
      simp only [pure_ok_iff, Sum.inr.injEq] at last
      obtain ⟨rfl, rfl⟩ := last
      refine ⟨[], rfl, fun value e t reads same => ?_⟩
      cases Except.ok.inj same
      exact reads
  | @next before s before' v sites u first _ ih =>
    simp only [Layered.sign, bind_ok_iff] at first
    obtain ⟨site, w, eaten, first⟩ := first
    cases site with
    | none => simp at first
    | some site =>
      obtain ⟨minus, _⟩ := eat_some_iff.mp eaten
      simp only [pure_ok_iff, Sum.inl.injEq] at first
      obtain ⟨rfl, rfl⟩ := first
      obtain ⟨more, rfl, behind⟩ := ih
      refine ⟨more ++ [site], by simp, fun value e t reads applied => ?_⟩
      rw [List.foldlM_append] at applied
      cases inside : more.foldlM Layered.negate value with
      | error fault => simp [inside] at applied
      | ok operand =>
        have outside : Layered.negate operand site = .ok e := by
          simpa [inside, List.foldlM] using applied
        unfold Layered.negate at outside
        split at outside
        · rename_i valued
          cases Except.ok.inj outside
          exact .negate minus (behind _ _ _ reads inside) valued
        · simp at outside

theorem unary_reads (run : Layered.unary (operand inner scope) s = .ok e t) :
    Reads scope s (.expression e) t := by
  simp only [Layered.unary, bind_ok_iff, orFail_ok_iff] at run
  obtain ⟨sites, u, signs, value, v, read, applied, rfl⟩ := run
  obtain ⟨more, rfl, behind⟩ := signs_read scope (repeatUntil_iterates signs)
  exact behind _ _ _ (operand_reads nested read) (by simpa using applied)

omit nested in
theorem layer_reads {operators : List Operator} {tighter : Analysis Expr}
    (reads : ∀ s e t, tighter s = .ok e t → Reads scope s (.expression e) t)
    (run : Layered.layer operators tighter s = .ok e t) : Reads scope s (.expression e) t := by
  simp only [Layered.layer, bind_ok_iff] at run
  obtain ⟨left, u, first, rest⟩ := run
  have before := reads _ _ _ first
  clear first
  have walk := repeatUntil_iterates rest
  clear rest
  induction walk with
  | @done left u e t last =>
    simp only [Layered.more, bind_ok_iff, peek_ok_iff] at last
    obtain ⟨word, _, ⟨current, _, rfl⟩, last⟩ := last
    cases found : (Operator.binary? word.kind).filter (· ∈ operators) with
    | some op => simp [found] at last
    | none =>
      simp only [found, pure_ok_iff, Sum.inr.injEq] at last
      obtain ⟨rfl, rfl⟩ := last
      exact before
  | @next left u left' v e t first _ ih =>
    simp only [Layered.more, bind_ok_iff, peek_ok_iff] at first
    obtain ⟨word, _, ⟨current, _, rfl⟩, first⟩ := first
    cases found : (Operator.binary? word.kind).filter (· ∈ operators) with
    | none => simp [found] at first
    | some op =>
      simp only [found, bind_ok_iff, advance_ok_iff, orFail_ok_iff, pure_ok_iff,
        Sum.inl.injEq] at first
      obtain ⟨_, _, rfl, right, w, read, joined, _, ⟨joins, rfl⟩, rfl, rfl⟩ := first
      have binary := (Option.filter_eq_some_iff.mp found).1
      unfold Layered.join at joins
      split at joins
      · rename_i fits
        cases Except.ok.inj joins
        exact ih (.binary before ⟨current, rfl⟩ binary (reads _ _ _ read) fits.1 fits.2)
      · simp at joins

theorem expressionWith_reads (run : Layered.expressionWith inner scope s = .ok e t) :
    Reads scope s (.expression e) t :=
  layer_reads (fun _ _ _ => layer_reads fun _ _ _ => layer_reads fun _ _ _ => unary_reads nested) run

end

/-- An expression that is read by the analysis is read so. -/
theorem expression_reads {limit : Nat} {scope : Scope} {s t : State} {e : Expr}
    (run : expression limit scope s = .ok e t) : Reads scope s (.expression e) t := by
  rw [← observe_ok_iff, Layered.expression_agrees, observe_ok_iff] at run
  induction limit generalizing s t e with
  | zero => exact expressionWith_reads (by simp) run
  | succ limit ih =>
    refine expressionWith_reads ?_ run
    rintro _ ⟨rfl⟩ s e t inside
    exact ih inside

end Analysis

end C0
