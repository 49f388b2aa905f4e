import C0.Token.Scan

namespace C0

/-- A reader of tokens that can look at the next one before taking it. A token that was looked at
is held back until it is taken. -/
structure Cursor where
  scanner : Scanner
  held : Option Lexeme

namespace Cursor

/-- The start of a source, with nothing held back. -/
def ofSource (source : String) : Cursor :=
  ⟨Scanner.ofSource source, none⟩

/-- Takes the next lexeme. -/
def next (cursor : Cursor) : Lexeme × Cursor :=
  match cursor.held with
  | some lexeme => (lexeme, ⟨cursor.scanner, none⟩)
  | none =>
    let (lexeme, scanner) := cursor.scanner.scan
    (lexeme, ⟨scanner, none⟩)

/-- Looks at the next lexeme. A fault is reported once and is not held back. -/
def peek (cursor : Cursor) : Lexeme × Cursor :=
  match cursor.held with
  | some lexeme => (lexeme, cursor)
  | none =>
    let (lexeme, scanner) := cursor.scanner.scan
    match lexeme.reading with
    | .ok _ => (lexeme, ⟨scanner, some lexeme⟩)
    | .error _ => (lexeme, ⟨scanner, none⟩)

end Cursor

end C0
