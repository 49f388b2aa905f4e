import C0.Library
import C0.Text.Quoted

namespace C0

/-- Something that code refers to by an address. -/
inductive Entry where
  | routine (name : String)
  | global (name : String)
  | library (function : Library)
  | text (value : String)
  deriving DecidableEq, Repr

namespace Entry

/-- Whether the entry is a function or a variable of a name. -/
def isNamed (name : String) : Entry → Bool
  | routine other => other == name
  | global other => other == name
  | library _ => false
  | text _ => false

/-- The entry in records of a compilation. -/
def render : Entry → String
  | routine name => s!"Function({Text.quoted name})"
  | global name => s!"Variable({Text.quoted name})"
  | library function => s!"Library({function.label})"
  | text value => s!"StringLiteral({Text.quoted value})"

end Entry

/-- The entries of a program. The address of an entry is its place among them. -/
structure Directory where
  entries : List Entry

namespace Directory

/-- No entries. -/
def empty : Directory :=
  ⟨[]⟩

/-- How many entries there are. -/
def size (directory : Directory) : Nat :=
  directory.entries.length

/-- Whether there are no entries. -/
def isEmpty (directory : Directory) : Bool :=
  directory.entries.isEmpty

/-- The address of an entry, if it has one. -/
def address? (directory : Directory) (entry : Entry) : Option Nat :=
  directory.entries.idxOf? entry

/-- Gives an entry an address. An entry keeps the address that it got first. -/
def register (directory : Directory) (entry : Entry) : Nat × Directory :=
  match directory.address? entry with
  | some address => (address, directory)
  | none => (directory.size, ⟨directory.entries ++ [entry]⟩)

/-- Whether a function or a variable has a name. -/
def containsName (directory : Directory) (name : String) : Bool :=
  directory.entries.any (·.isNamed name)

end Directory

end C0
