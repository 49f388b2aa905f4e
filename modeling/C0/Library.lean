import C0.Ty

namespace C0

/-- A function that the machine provides and programs call by name. -/
inductive Library where
  | getInt | getDouble | getChar
  | putInt | putDouble | putChar | putStr | putLn
  deriving DecidableEq, Repr

/-- What a library function takes between its parentheses. -/
inductive Library.Argument where
  | nothing
  /-- One expression of a type. -/
  | value (ty : Ty)
  /-- One string literal. -/
  | text
  deriving DecidableEq, Repr

namespace Library

/-- All library functions. -/
def all : List Library :=
  [getInt, getDouble, getChar, putInt, putDouble, putChar, putStr, putLn]

/-- The name that programs call the function by. -/
def name : Library → String
  | getInt => "getint"
  | getDouble => "getdouble"
  | getChar => "getchar"
  | putInt => "putint"
  | putDouble => "putdouble"
  | putChar => "putchar"
  | putStr => "putstr"
  | putLn => "putln"

/-- The name of the function in records of a compilation. -/
def label : Library → String
  | getInt => "GetInt"
  | getDouble => "GetDouble"
  | getChar => "GetChar"
  | putInt => "PutInt"
  | putDouble => "PutDouble"
  | putChar => "PutChar"
  | putStr => "PutStr"
  | putLn => "PutLn"

/-- The library function of a name. -/
def ofName? (text : String) : Option Library :=
  all.find? (·.name == text)

/-- The type of what the function returns. -/
def returnType : Library → Ty
  | getInt => .int
  | getDouble => .double
  | getChar => .int
  | putInt => .void
  | putDouble => .void
  | putChar => .void
  | putStr => .void
  | putLn => .void

/-- What the function takes. -/
def argument : Library → Argument
  | getInt => .nothing
  | getDouble => .nothing
  | getChar => .nothing
  | putInt => .value .int
  | putDouble => .value .double
  | putChar => .value .int
  | putStr => .text
  | putLn => .nothing

end Library

end C0
