import C0.Fault
import C0.Variable

namespace C0

/-- A declared variable or constant. -/
structure Symbol where
  name : String
  ty : Ty
  isConst : Bool
  /-- Whether a value has been given to it. -/
  isInitialized : Bool
  /-- Where it is kept: among the globals at rank 0, else among the locals of its function. -/
  slot : Nat
  /-- How many blocks it stands in. Globals have rank 0 and a function's body has rank 1. -/
  rank : Nat
  deriving DecidableEq, Repr

namespace Symbol

/-- Where the symbol is kept. -/
def place (symbol : Symbol) : Place :=
  if symbol.rank = 0 then .static symbol.slot else .frame symbol.slot

/-- The symbol as a variable. -/
def toVariable (symbol : Symbol) : Variable :=
  ⟨symbol.name, symbol.ty, symbol.isConst, symbol.place, some symbol.rank⟩

/-- Whether the symbol has a name at exactly a rank. -/
def isAt (symbol : Symbol) (name : String) (rank : Nat) : Bool :=
  symbol.rank == rank && symbol.name == name

end Symbol

/-- The symbols in sight, the newest first. A rank has at most one of each name. -/
structure SymbolTable where
  symbols : List Symbol

namespace SymbolTable

/-- No symbols. -/
def empty : SymbolTable :=
  ⟨[]⟩

/-- How many symbols there are. -/
def size (table : SymbolTable) : Nat :=
  table.symbols.length

/-- Whether there are no symbols. -/
def isEmpty (table : SymbolTable) : Bool :=
  table.symbols.isEmpty

/-- Whether a name is declared at exactly a rank. -/
def isDeclaredAt (table : SymbolTable) (name : String) (rank : Nat) : Bool :=
  table.symbols.any (·.isAt name rank)

/-- Adds a symbol whose name is free at its rank. -/
def declare {σ : Type} (table : SymbolTable) (symbol : Symbol) (site : σ) :
    Except (Fault σ) SymbolTable :=
  if table.isDeclaredAt symbol.name symbol.rank then .error ⟨.duplicateDeclaration, site⟩
  else .ok ⟨symbol :: table.symbols⟩

/-- The number of globals, which is the slot of the next one. -/
def globalCount (table : SymbolTable) : Nat :=
  (table.symbols.filter (·.rank == 0)).length

/-- The innermost symbol of a name that is no global and has at most a rank. -/
def lookupLocal? (table : SymbolTable) (name : String) (rank : Nat) : Option Symbol :=
  table.symbols.find? fun symbol =>
    symbol.rank != 0 && symbol.rank ≤ rank && symbol.name == name

/-- The global of a name. -/
def lookupGlobal? (table : SymbolTable) (name : String) : Option Symbol :=
  table.symbols.find? (·.isAt name 0)

/-- Symbols, the first one of a name at exactly a rank noted to have a value. -/
def markFirst (name : String) (rank : Nat) : List Symbol → List Symbol
  | [] => []
  | symbol :: rest =>
    if symbol.isAt name rank then { symbol with isInitialized := true } :: rest
    else symbol :: markFirst name rank rest

/-- Notes that the symbol of a name at exactly a rank has a value. The oldest one is looked for. -/
def markInitialized (table : SymbolTable) (name : String) (rank : Nat) : SymbolTable :=
  ⟨(markFirst name rank table.symbols.reverse).reverse⟩

/-- Removes the symbols of a rank. -/
def dropRank (table : SymbolTable) (rank : Nat) : SymbolTable :=
  ⟨table.symbols.filter (·.rank != rank)⟩

theorem map_markFirst {α : Type} {f : Symbol → α}
    (blind : ∀ symbol : Symbol, f { symbol with isInitialized := true } = f symbol)
    (name : String) (rank : Nat) (symbols : List Symbol) :
    (markFirst name rank symbols).map f = symbols.map f := by
  induction symbols with
  | nil => rfl
  | cons symbol rest ih =>
    rw [markFirst]
    split
    · simp only [List.map_cons, blind]
    · simp only [List.map_cons, ih]

/-- A mark changes nothing but whether a symbol has a value. -/
theorem map_markInitialized {α : Type} {f : Symbol → α}
    (blind : ∀ symbol : Symbol, f { symbol with isInitialized := true } = f symbol)
    (table : SymbolTable) (name : String) (rank : Nat) :
    (table.markInitialized name rank).symbols.map f = table.symbols.map f := by
  simp only [markInitialized, List.map_reverse, map_markFirst blind, List.reverse_reverse]

theorem size_markInitialized (table : SymbolTable) (name : String) (rank : Nat) :
    (table.markInitialized name rank).size = table.size := by
  have names := table.map_markInitialized (f := Symbol.name) (fun _ => rfl) name rank
  simpa [size] using congrArg List.length names

end SymbolTable

end C0
