import C0.Text.DefaultIgnorable
import C0.Text.ExtendingMark
import C0.Text.Unprintable

namespace C0.Text

/-- The hexadecimal digits of a number, lower case and without leading zeros. -/
def hexDigits (n : Nat) : List Char :=
  Nat.toDigits 16 n

/-- Whether a character is written by its code point, because a reader could not see it or could
not tell it from its surroundings. -/
def isHidden (c : Char) : Bool :=
  isExtendingMark c || isDefaultIgnorable c || isUnprintable c

/-- One character between double quotes. Five characters have a short escape beside the quote
itself, hidden characters are written by their code point, and all others stand for themselves. -/
def quotedChar (c : Char) : List Char :=
  match c with
  | '\x00' => ['\\', '0']
  | '\t' => ['\\', 't']
  | '\r' => ['\\', 'r']
  | '\n' => ['\\', 'n']
  | '"' => ['\\', '"']
  | '\\' => ['\\', '\\']
  | c => if isHidden c then ['\\', 'u', '\x7b'] ++ hexDigits c.toNat ++ ['\x7d'] else [c]

/-- Text between double quotes, on one line and without hidden characters. -/
def quoted (text : String) : String :=
  String.ofList ('"' :: text.toList.flatMap quotedChar ++ ['"'])

end C0.Text
