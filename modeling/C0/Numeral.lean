import C0.Binary64

namespace C0

/-- The number that decimal digits spell. -/
def ofDigits (digits : List Char) : Nat :=
  digits.foldl (fun n c => 10 * n + (c.toNat - '0'.toNat)) 0

/-- A number as it is spelled: digits, a point with digits after it or nothing, and an exponent
mark with a signed number after it or nothing. -/
structure Numeral where
  whole : List Char
  fraction : List Char
  exponent : List Char
  deriving DecidableEq, Repr

namespace Numeral

/-- All characters of the numeral. -/
def text (numeral : Numeral) : List Char :=
  numeral.whole ++ numeral.fraction ++ numeral.exponent

/-- Splits an exponent's sign, if it has one, from what follows. -/
def splitSign : List Char → List Char × List Char
  | '+' :: rest => (['+'], rest)
  | '-' :: rest => (['-'], rest)
  | rest => ([], rest)

/-- Reads a point and the digits after it. -/
def readFraction : List Char → List Char × List Char
  | '.' :: rest => ('.' :: rest.takeWhile Char.isDigit, rest.dropWhile Char.isDigit)
  | rest => ([], rest)

/-- Reads an exponent mark, a sign if there is one, and the digits after them. -/
def readExponent : List Char → List Char × List Char
  | [] => ([], [])
  | c :: rest =>
    if c = 'e' ∨ c = 'E' then
      let (sign, rest) := splitSign rest
      (c :: sign ++ rest.takeWhile Char.isDigit, rest.dropWhile Char.isDigit)
    else ([], c :: rest)

/-- Reads as much of a numeral as there is. A point without digits ends it. -/
def read (cs : List Char) : Numeral × List Char :=
  let whole := cs.takeWhile Char.isDigit
  let (fraction, rest) := readFraction (cs.dropWhile Char.isDigit)
  if fraction = ['.'] then (⟨whole, fraction, []⟩, rest)
  else
    let (exponent, rest) := readExponent rest
    (⟨whole, fraction, exponent⟩, rest)

/-- The sign and the digits of the exponent. -/
def exponentParts (numeral : Numeral) : List Char × List Char :=
  splitSign numeral.exponent.tail

/-- Whether digits follow the point and the exponent mark, if these are there. -/
def isComplete (numeral : Numeral) : Bool :=
  numeral.fraction != ['.'] && (numeral.exponent.isEmpty || !numeral.exponentParts.2.isEmpty)

/-- Whether the numeral has neither fraction nor exponent. -/
def isWhole (numeral : Numeral) : Bool :=
  numeral.fraction.isEmpty && numeral.exponent.isEmpty

/-- The value of a whole numeral, if 64 bits hold it. -/
def word? (numeral : Numeral) : Option UInt64 :=
  let n := ofDigits numeral.whole
  if n < UInt64.size then some (UInt64.ofNat n) else none

/-- The power of ten that the exponent stands for. -/
def power (numeral : Numeral) : Int :=
  let (sign, digits) := numeral.exponentParts
  if sign = ['-'] then -(ofDigits digits : Int) else ofDigits digits

/-- The bits of the floating point number closest to the numeral. -/
def double (numeral : Numeral) : UInt64 :=
  let places := numeral.fraction.tail
  Binary64.ofDecimal (ofDigits (numeral.whole ++ places)) (numeral.power - places.length)

end Numeral

end C0
