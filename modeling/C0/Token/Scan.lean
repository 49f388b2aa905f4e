import C0.Fault
import C0.Literal
import C0.Numeral
import C0.Token
import C0.Text.Alphabetic
import C0.Text.Blank
import C0.Text.Numeric

namespace C0

/-- What is found at a place of the source: a token's kind, or why there is no token. -/
abbrev Reading := Except Cause Kind

/-- What a scan makes of the characters before it: what it found or why it failed, the characters
that it used, and those that it left. -/
structure Piece (α : Type) where
  reading : Except Cause α
  used : List Char
  rest : List Char

/-- Whether a character can begin a name. -/
def startsName (c : Char) : Bool :=
  Text.isAlphabetic c || c == '_'

/-- Whether a character can go on with a name. -/
def continuesName (c : Char) : Bool :=
  Text.isAlphabetic c || Text.isNumeric c || c == '_'

namespace Piece

/-- A piece that begins with one more character. -/
def cons {α : Type} (c : Char) (piece : Piece α) : Piece α :=
  { piece with used := c :: piece.used }

/-- A number, as far as it goes. It must be complete, and small enough if it is whole. -/
def number (cs : List Char) : Piece Kind :=
  let (numeral, rest) := Numeral.read cs
  let reading : Reading :=
    if !numeral.isComplete then .error .invalidLiteral
    else if !numeral.isWhole then .ok (.double numeral.double)
    else match numeral.word? with
      | some value => .ok (.uint value)
      | none => .error .invalidLiteral
  ⟨reading, numeral.text, rest⟩

/-- A name, as far as it goes. -/
def name (cs : List Char) : Piece Kind :=
  let letters := cs.takeWhile continuesName
  ⟨.ok (Kind.ofName (String.ofList letters)), letters, cs.dropWhile continuesName⟩

/-- The closing quote of a character literal. -/
def closingQuote (value : Char) : List Char → Piece Kind
  | '\'' :: rest => ⟨.ok (.char value), ['\''], rest⟩
  | rest => ⟨.error .invalidInput, [], rest⟩

/-- A character literal after its opening quote: one character or escape and the closing quote. -/
def character : List Char → Piece Kind
  | [] => ⟨.error .invalidInput, [], []⟩
  | ['\\'] => ⟨.error .invalidInput, ['\\'], []⟩
  | '\'' :: rest => ⟨.error .invalidInput, [], '\'' :: rest⟩
  | '\\' :: c :: rest =>
    match Literal.unescape c with
    | some value => ((closingQuote value rest).cons c).cons '\\'
    | none => ⟨.error .invalidInput, ['\\', c], rest⟩
  | c :: rest => (closingQuote c rest).cons c

/-- The rest of a string literal up to the quote that ends it. It fails at an unknown escape and at
the end of the source. -/
def stringBody : List Char → Piece Unit
  | [] => ⟨.error .invalidInput, [], []⟩
  | ['\\'] => ⟨.error .invalidInput, ['\\'], []⟩
  | '"' :: rest => ⟨.ok (), ['"'], rest⟩
  | '\\' :: c :: rest =>
    if (Literal.unescape c).isSome then ((stringBody rest).cons c).cons '\\'
    else ⟨.error .invalidInput, ['\\', c], rest⟩
  | c :: rest => (stringBody rest).cons c

/-- A string literal after its opening quote. -/
def string (cs : List Char) : Piece Kind :=
  let body := stringBody cs
  let value := Literal.stringValue ('"' :: body.used)
  ⟨body.reading.map fun _ => .string (String.ofList value), body.used, body.rest⟩

/-- A sign, or a character that begins no token. -/
def sign (c : Char) (rest : List Char) : Piece Kind :=
  match Mark.ofStart? (c :: rest) with
  | some mark => ⟨.ok (.mark mark), mark.chars, (c :: rest).drop mark.chars.length⟩
  | none => ⟨.error .invalidInput, [c], rest⟩

/-- The piece at the start of a text that begins with neither blank nor comment. The first
character tells which. -/
def first : List Char → Piece Kind
  | [] => ⟨.ok .eof, [], []⟩
  | c :: rest =>
    if c.isDigit then number (c :: rest)
    else if startsName c then name (c :: rest)
    else if c = '\'' then (character rest).cons c
    else if c = '"' then (string rest).cons c
    else sign c rest

end Piece

/-- A reading and the stretch of source that it covers. -/
structure Lexeme where
  span : Span
  reading : Reading

/-- Whether nothing is read after the lexeme: it is the end of the source or a fault. -/
def Lexeme.isLast (lexeme : Lexeme) : Bool :=
  match lexeme.reading with
  | .ok .eof => true
  | .ok _ => false
  | .error _ => true

/-- A place in a source: the bytes before it and the characters after it. -/
structure Scanner where
  offset : Nat
  rest : List Char

namespace Scanner

/-- The start of a source. -/
def ofSource (source : String) : Scanner :=
  ⟨0, source.toList⟩

/-- Skips blanks and comments. A comment goes from two slashes up to the end of the line. -/
def skipFrom (inComment : Bool) (offset : Nat) : List Char → Scanner
  | [] => ⟨offset, []⟩
  | c :: rest =>
    if inComment then skipFrom (c != '\n') (offset + c.utf8Size) rest
    else if Text.isBlank c then skipFrom false (offset + c.utf8Size) rest
    else if c = '/' ∧ rest.head? = some '/' then skipFrom true (offset + c.utf8Size) rest
    else ⟨offset, c :: rest⟩

/-- Skips the blanks and comments at the scanner's place. -/
def skip (scanner : Scanner) : Scanner :=
  skipFrom false scanner.offset scanner.rest

/-- Reads the next lexeme and moves to its end, also after a fault. -/
def scan (scanner : Scanner) : Lexeme × Scanner :=
  let place := scanner.skip
  let piece := Piece.first place.rest
  let stop := place.offset + byteLength piece.used
  (⟨⟨place.offset, stop⟩, piece.reading⟩, ⟨stop, piece.rest⟩)

/-- At most so many lexemes, up to and with the last. -/
def lexemes : Nat → Scanner → List Lexeme
  | 0, _ => []
  | n + 1, scanner =>
    let (lexeme, next) := scanner.scan
    lexeme :: if lexeme.isLast then [] else lexemes n next

end Scanner

/-- All lexemes of a source up to its end or its first fault. Each lexeme but the last uses a
character, so there is at most one more than there are characters. -/
def lexemes (source : String) : List Lexeme :=
  let scanner := Scanner.ofSource source
  scanner.lexemes (scanner.rest.length + 1)

end C0
