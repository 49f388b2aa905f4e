import C0.Proofs.Scoping

namespace C0

/-- What may stand at a place of a source, as far as names are concerned. -/
inductive Stance where
  /-- The beginning of an operand. -/
  | operand
  /-- Something that goes on with what was read. -/
  | other
  /-- What goes on with the name of a library function that takes no value. -/
  | bare
  /-- The name of a variable, or of a constant if so told. -/
  | naming (isConst : Bool)
  /-- The name of a function. -/
  | routine
  /-- More of the head of a function, right behind the word for constants if so told. -/
  | head (isConst : Bool)
  deriving DecidableEq, Repr

/-- Which names are those of constants at a place of a source. -/
structure Bindings where
  /-- The globals and whether they are constants, the last one first. -/
  globals : List (String × Bool)
  /-- The parameters of the function around the place. -/
  params : List (String × Bool)
  /-- The open blocks, the innermost first, and in each the last variable first. -/
  blocks : List (List (String × Bool))
  stance : Stance

/-- Whether a token that leaves the names alone has an operand behind it. -/
def Kind.opensOperand : Kind → Bool
  | .mark .assign | .mark .comma => true
  | .keyword .ifWord | .keyword .whileWord | .keyword .returnWord => true
  | kind => (Operator.binary? kind).isSome

namespace Bindings

/-- Before the first token no names are known. -/
def start : Bindings :=
  ⟨[], [], [], .other⟩

/-- Whether a name is that of a constant: by the innermost block that declared it, else by the
parameter, else by the global. -/
def constant? (bindings : Bindings) (name : String) : Option Bool :=
  (bindings.blocks.findSome? (·.lookup name)).or
    ((bindings.params.lookup name).or (bindings.globals.lookup name))

/-- The same names at a place where something else may stand. -/
def facing (bindings : Bindings) (stance : Stance) : Bindings :=
  { bindings with stance }

/-- Declares a variable. Outside functions it is a global. -/
def declare (bindings : Bindings) (name : String) (isConst : Bool) : Bindings :=
  match bindings.blocks with
  | [] => { bindings with globals := (name, isConst) :: bindings.globals }
  | block :: outer => { bindings with blocks := ((name, isConst) :: block) :: outer }

/-- What may stand behind a whole statement. -/
def ending (blocks : List (List (String × Bool))) : Stance :=
  if blocks.isEmpty then .other else .operand

/-- Opens a block. -/
def opened (bindings : Bindings) : Bindings :=
  { bindings with blocks := [] :: bindings.blocks, stance := .operand }

/-- Closes the innermost block. With the last one the function ends. -/
def closed (bindings : Bindings) : Bindings :=
  { bindings with
    params := if bindings.blocks.tail.isEmpty then [] else bindings.params
    blocks := bindings.blocks.tail
    stance := ending bindings.blocks.tail }

/-- Whether a name is that of a library function that takes no value. -/
def isBare (name : String) : Bool :=
  match (Library.ofName? name).map Library.argument with
  | some .nothing | some .text => true
  | _ => false

/-- The names behind a token that stands in a statement or between functions. -/
def pass (bindings : Bindings) : Kind → Bindings
  | .keyword .letWord => bindings.facing (.naming false)
  | .keyword .constWord => bindings.facing (.naming true)
  | .keyword .fnWord => bindings.facing .routine
  | .mark .openBrace => bindings.opened
  | .mark .closeBrace => bindings.closed
  | .mark .semicolon => bindings.facing (ending bindings.blocks)
  | .mark .openParen => bindings.facing (if bindings.stance = .bare then .other else .operand)
  | .identifier name => bindings.facing (if isBare name then .bare else .other)
  | kind => bindings.facing (if kind.opensOperand then .operand else .other)

/-- The names behind a token in the head of a function. -/
def passHead (bindings : Bindings) (isConst : Bool) : Kind → Bindings
  | .identifier name =>
    { bindings with params := bindings.params ++ [(name, isConst)], stance := .head false }
  | .keyword .constWord => bindings.facing (.head true)
  | .mark .openBrace => bindings.opened
  | _ => bindings.facing (.head false)

/-- The names behind a token. -/
def next (bindings : Bindings) (kind : Kind) : Bindings :=
  match bindings.stance with
  | .naming isConst =>
    match kind with
    | .identifier name => (bindings.declare name isConst).facing .other
    | _ => bindings.facing .other
  | .routine => { bindings with params := [], stance := .head false }
  | .head isConst => bindings.passHead isConst kind
  | _ => bindings.pass kind

/-- Whether a token is the left side of an assignment to a constant, by the readings behind it. -/
def breaks (bindings : Bindings) (kind : Kind) (rest : List Reading) : Bool :=
  match kind with
  | .identifier name => bindings.stance = .operand && bindings.constant? name = some true &&
      rest.head? = some (.ok (.mark .assign))
  | _ => false

/-- The sites of the left sides of assignments to constants, in readings from a site on. -/
def scan (bindings : Bindings) (site : Nat) : List Reading → List Nat
  | [] => []
  | .error _ :: _ => []
  | .ok kind :: rest =>
    let later := (bindings.next kind).scan (site + 1) rest
    if bindings.breaks kind rest then site :: later else later

/-- The sites of the left sides of assignments to constants in a source. -/
def scanSource (source : String) : List Nat :=
  start.scan 0 ((lexemes source).map Lexeme.reading)

variable {bindings : Bindings} {site : Nat} {kind : Kind} {rest : List Reading}

/-- Nothing is found before the start of a scan. -/
theorem le_of_mem_scan {readings : List Reading} {i : Nat}
    (member : i ∈ bindings.scan site readings) : site ≤ i := by
  induction readings generalizing bindings site with
  | nil => cases member
  | cons reading rest ih =>
    cases reading with
    | error cause => cases member
    | ok kind =>
      rw [scan] at member
      split at member
      · rcases List.mem_cons.mp member with here | later
        · exact Nat.le_of_eq here.symm
        · exact Nat.le_of_succ_le (ih later)
      · exact Nat.le_of_succ_le (ih member)

/-- A token that is no assignment to a constant leaves the rest of a scan. -/
theorem scan_take {s t : State} (takes : s.Takes kind t)
    (calm : bindings.breaks kind t.rest = false) :
    bindings.scan s.position s.rest = (bindings.next kind).scan t.position t.rest := by
  obtain ⟨current, rfl⟩ := takes
  unfold State.current at current
  simp only [State.advanced] at calm ⊢
  cases readings : s.rest with
  | nil => rfl
  | cons reading rest =>
    simp only [readings, List.head?_cons, Option.getD_some, List.tail_cons] at current calm ⊢
    rw [current, scan, calm]
    rfl

theorem breaks_of_ne (other : ∀ name, kind ≠ .identifier name) :
    bindings.breaks kind rest = false := by
  cases kind with
  | identifier name => exact absurd rfl (other name)
  | _ => rfl

end Bindings

/-- The name of a symbol, whether it is a constant, and its rank. -/
def Symbol.binding (symbol : Symbol) : String × Bool × Nat :=
  (symbol.name, symbol.isConst, symbol.rank)

/-- The name of a parameter and whether it is a constant. -/
def Param.binding (param : Param) : String × Bool :=
  (param.name, param.isConst)

/-- The entries of globals that are told apart by whether they are constants. -/
def globalBindings (globals : List (String × Bool)) : List (String × Bool × Nat) :=
  globals.map fun global => (global.1, global.2, 0)

theorem globalBindings_rank {globals : List (String × Bool)} {entry : String × Bool × Nat}
    (member : entry ∈ globalBindings globals) : entry.2.2 = 0 := by
  obtain ⟨global, _, rfl⟩ := List.mem_map.mp member
  rfl

theorem find?_globalBindings (globals : List (String × Bool)) (name : String) :
    ((globalBindings globals).find? fun entry => entry.2.2 == 0 && entry.1 == name).map (·.2.1) =
      globals.lookup name := by
  induction globals with
  | nil => rfl
  | cons global globals ih =>
    obtain ⟨other, isConst⟩ := global
    by_cases same : other = name
    · simp [globalBindings, same]
    · have different : (name == other) = false := by simpa using Ne.symm same
      rw [List.lookup_cons, different, globalBindings, List.map_cons,
        List.find?_cons_of_neg (by simp [same])]
      exact ih

theorem param?_isConst (signature : Signature) (name : String) :
    ((signature.param? name).map signature.paramVariable).map Variable.isConst =
      (signature.params.map Param.binding).lookup name := by
  have found (params : List Param) (start : Nat) :
      ((params.zipIdx start).find? (·.1.name == name)).map (·.1.isConst) =
        (params.map Param.binding).lookup name := by
    induction params generalizing start with
    | nil => rfl
    | cons first params ih =>
      rw [List.zipIdx_cons, List.map_cons, Param.binding, List.lookup_cons]
      by_cases same : first.name = name
      · simp [same]
      · have different : (name == first.name) = false := by simpa using Ne.symm same
        rw [List.find?_cons_of_neg (by simp [same]), different]
        exact ih (start + 1)
  rw [Signature.param?, Option.map_map, Option.map_map, ← found signature.params 0]
  rfl

/-- The bindings are those of the symbols in sight and of the parameters of a scope. -/
structure Bindings.Fits (bindings : Bindings) (scope : Scope) (cores : List Symbol) : Prop where
  symbols : cores.map Symbol.binding =
    blockEntries bindings.blocks ++ globalBindings bindings.globals
  rank : scope.rank = bindings.blocks.length
  params : scope.signature.params.map Param.binding = bindings.params

namespace Bindings.Fits

variable {bindings : Bindings} {scope : Scope} {cores : List Symbol}

theorem facing (fits : bindings.Fits scope cores) (stance : Stance) :
    (bindings.facing stance).Fits scope cores :=
  ⟨fits.symbols, fits.rank, fits.params⟩

theorem firstVariable?_isConst (s : State) (test : String × Bool × Nat → Bool) :
    (s.firstVariable? fun symbol => test symbol.binding).map Variable.isConst =
      ((s.cores.map Symbol.binding).find? test).map (·.2.1) := by
  rw [State.firstVariable?, List.find?_map, Option.map_map, Option.map_map]
  rfl

/-- The table finds a constant where the bindings have one. -/
theorem isConst {s : State} (fits : bindings.Fits scope s.cores) (name : String) :
    ( s.variable? scope name).map Variable.isConst = bindings.constant? name := by
  have inBlocks := firstVariable?_isConst s fun entry =>
    entry.2.2 != 0 && entry.2.2 ≤ scope.rank && entry.1 == name
  have global := firstVariable?_isConst s fun entry => entry.2.2 == 0 && entry.1 == name
  have noGlobal : (globalBindings bindings.globals).find? (fun entry =>
      entry.2.2 != 0 && entry.2.2 ≤ scope.rank && entry.1 == name) = none := by
    refine List.find?_eq_none.mpr fun entry member => ?_
    simp [globalBindings_rank member]
  have noLocal : (blockEntries bindings.blocks).find? (fun entry =>
      entry.2.2 == 0 && entry.1 == name) = none := by
    refine List.find?_eq_none.mpr fun entry member => ?_
    simp [(blockEntries_rank member).1]
  rw [fits.symbols, List.find?_append, noGlobal, Option.or_none,
    lookup_blockEntries (Nat.le_of_eq fits.rank.symm)] at inBlocks
  rw [fits.symbols, List.find?_append, noLocal, Option.none_or, find?_globalBindings] at global
  rw [State.resolved_eq, Option.map_or, Option.map_or, param?_isConst, fits.params, constant?]
  exact congrArg₂ Option.or inBlocks (congrArg₂ Option.or rfl global)

/-- A symbol that is added is declared in the innermost block. -/
theorem declare {symbol : Symbol} (fits : bindings.Fits scope cores)
    (ranked : symbol.rank = scope.rank) :
    (bindings.declare symbol.name symbol.isConst).Fits scope (symbol :: cores) := by
  obtain ⟨symbols, rank, params⟩ := fits
  unfold Bindings.declare
  cases inside : bindings.blocks with
  | nil =>
    refine ⟨?_, by rw [rank, inside], params⟩
    rw [List.map_cons, symbols, inside, Symbol.binding, ranked, rank, inside]
    rfl
  | cons block outer =>
    refine ⟨?_, by rw [rank, inside]; rfl, params⟩
    rw [List.map_cons, symbols, inside, Symbol.binding, ranked, rank, inside]
    rfl

theorem opened {inner : Scope} (fits : bindings.Fits scope cores)
    (same : inner.signature = scope.signature) (deeper : inner.rank = scope.rank + 1) :
    bindings.opened.Fits inner cores :=
  ⟨fits.symbols, by rw [deeper, fits.rank]; rfl, by rw [same]; exact fits.params⟩

/-- Closing a block leaves the symbols around it, and closing the last one no parameters. -/
theorem closed {outer : Scope} (fits : bindings.Fits scope cores)
    (deeper : scope.rank = outer.rank + 1)
    (params : outer.signature.params =
      if outer.rank = 0 then [] else scope.signature.params) :
    bindings.closed.Fits outer (cores.filter (·.rank != scope.rank)) := by
  cases inside : bindings.blocks with
  | nil => simp [fits.rank, inside] at deeper
  | cons block blocks =>
    have rank : outer.rank = blocks.length := by
      rw [fits.rank, inside] at deeper
      exact (Nat.succ.inj deeper).symm
    refine ⟨?_, by rw [rank, Bindings.closed, inside]; rfl, ?_⟩
    · have filtered : (cores.filter (·.rank != scope.rank)).map Symbol.binding =
          (cores.map Symbol.binding).filter fun entry => entry.2.2 != blocks.length + 1 := by
        rw [deeper, rank, List.filter_map]
        rfl
      rw [filtered, fits.symbols, inside, Bindings.closed, inside]
      exact filter_blockEntries fun _ => globalBindings_rank
    · rw [params, rank, Bindings.closed, inside]
      cases blocks with
      | nil => rfl
      | cons second blocks => exact fits.params

end Bindings.Fits

end C0
