import C0.Directory
import C0.Routine

namespace C0

/-- The name of the function that gives the globals their first values and calls `main`. -/
def entryName : String :=
  "_start"

/-- The name of the function that the author of a program starts it with. -/
def mainName : String :=
  "main"

/-- A global variable or constant. -/
structure GlobalVariable where
  name : String
  isConst : Bool
  deriving DecidableEq, Repr

/-- A compiled program. -/
structure Program where
  directory : Directory
  /-- The globals in the order of their declaration, which is the order of their slots. -/
  globals : List GlobalVariable
  /-- The functions in the order of their definition. The entry function is the last. -/
  routines : List Routine

namespace Program

/-- A program with nothing in it. -/
def empty : Program :=
  ⟨.empty, [], []⟩

/-- The function of a name. -/
def routine? (program : Program) (name : String) : Option Routine :=
  program.routines.find? (·.name == name)

/-- Whether a global of a name is constant. -/
def isConstant (program : Program) (name : String) : Bool :=
  program.globals.any fun v => v.name == name && v.isConst

/-- An entry of the directory in listings. -/
def renderEntry (program : Program) (entry : Entry) (address : Nat) : String :=
  let described := match entry with
    | .routine name => s!"fn {name}"
    | .global name => if program.isConstant name then s!"const {name}" else s!"var {name}"
    | .library function => s!"lib {function.name}"
    | .text value => s!"str {Text.quoted value}"
  s!"static [{address}] {described}\n"

/-- The program as a listing: the directory line by line, then each function after an empty line. -/
def render (program : Program) : String :=
  let statics := program.directory.entries.zipIdx.map fun (entry, address) =>
    program.renderEntry entry address
  let routines := program.routines.map fun routine => "\n" ++ routine.render
  String.join statics ++ String.join routines

end Program

end C0
