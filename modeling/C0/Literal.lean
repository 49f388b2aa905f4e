namespace C0.Literal

/-- The character that a backslash and another character stand for. -/
def unescape : Char → Option Char
  | '\'' => some '\''
  | '"' => some '"'
  | '\\' => some '\\'
  | 'n' => some '\n'
  | 't' => some '\t'
  | 'r' => some '\r'
  | _ => none

/-- Text without the double quotes around it. Text that does not have both stays as it is. -/
def unquoted : List Char → List Char
  | '"' :: rest => if rest.getLast? = some '"' then rest.dropLast else '"' :: rest
  | text => text

/-- Puts each escape's character in its place. An escape that stands for nothing is left out. -/
def resolveEscapes : List Char → List Char
  | [] => []
  | ['\\'] => []
  | '\\' :: c :: rest => (unescape c).toList ++ resolveEscapes rest
  | c :: rest => c :: resolveEscapes rest

/-- The characters that the text of a string literal stands for. -/
def stringValue (text : List Char) : List Char :=
  resolveEscapes (unquoted text)

end C0.Literal
