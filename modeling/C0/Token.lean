import C0.Ty

namespace C0

/-- A reserved word other than the name of a type. -/
inductive Keyword where
  | fnWord | letWord | constWord | asWord
  | whileWord | ifWord | elseWord
  | returnWord | breakWord | continueWord
  deriving DecidableEq, Repr

/-- A sign of one or two characters. -/
inductive Mark where
  | plus | minus | star | slash
  | assign | equal | notEqual | less | greater | lessEqual | greaterEqual
  | openParen | closeParen | openBrace | closeBrace
  | arrow | comma | colon | semicolon
  deriving DecidableEq, Repr

/-- What a token is. Everything that a program's meaning can depend on is in its kind: names,
values and contents of literals. -/
inductive Kind where
  /-- The end of the source. -/
  | eof
  | identifier (name : String)
  | uint (value : UInt64)
  /-- A floating point number by its bits. -/
  | double (bits : UInt64)
  | char (value : Char)
  /-- A string literal by what it stands for. -/
  | string (value : String)
  | type (ty : Ty)
  | keyword (keyword : Keyword)
  | mark (mark : Mark)
  deriving DecidableEq, Repr

namespace Keyword

/-- All reserved words that name no type. -/
def all : List Keyword :=
  [fnWord, letWord, constWord, asWord, whileWord, ifWord, elseWord, returnWord, breakWord,
   continueWord]

/-- How the word is written. -/
def spelling : Keyword → String
  | fnWord => "fn"
  | letWord => "let"
  | constWord => "const"
  | asWord => "as"
  | whileWord => "while"
  | ifWord => "if"
  | elseWord => "else"
  | returnWord => "return"
  | breakWord => "break"
  | continueWord => "continue"

/-- The reserved word that is written so. -/
def ofSpelling? (text : String) : Option Keyword :=
  all.find? (·.spelling == text)

end Keyword

namespace Mark

/-- All signs. One that extends another stands before it, so the first that fits is the longest. -/
def all : List Mark :=
  [arrow, equal, notEqual, lessEqual, greaterEqual, plus, minus, star, slash, assign, less,
   greater, openParen, closeParen, openBrace, closeBrace, comma, colon, semicolon]

/-- The characters of the sign. -/
def chars : Mark → List Char
  | plus => ['+']
  | minus => ['-']
  | star => ['*']
  | slash => ['/']
  | assign => ['=']
  | equal => ['=', '=']
  | notEqual => ['!', '=']
  | less => ['<']
  | greater => ['>']
  | lessEqual => ['<', '=']
  | greaterEqual => ['>', '=']
  | openParen => ['(']
  | closeParen => [')']
  | openBrace => ['\x7b']
  | closeBrace => ['\x7d']
  | arrow => ['-', '>']
  | comma => [',']
  | colon => [':']
  | semicolon => [';']

/-- The longest sign that a text starts with. -/
def ofStart? (cs : List Char) : Option Mark :=
  all.find? (·.chars.isPrefixOf cs)

end Mark

namespace Kind

/-- The kind of a name: a reserved word, a type, or an identifier if it is neither. -/
def ofName (name : String) : Kind :=
  match Keyword.ofSpelling? name, Ty.ofName? name with
  | some word, _ => keyword word
  | none, some ty => type ty
  | none, none => identifier name

/-- What tokens of the kind are called in listings. -/
def name : Kind → String
  | eof => "eof"
  | identifier _ => "identifier"
  | uint _ => "uint"
  | double _ => "double"
  | char _ => "char"
  | string _ => "string"
  | type _ => "type"
  | keyword word => word.spelling
  | mark sign => String.ofList sign.chars

end Kind

end C0
