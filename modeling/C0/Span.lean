namespace C0

/-- The number of bytes that characters take in UTF-8. -/
def byteLength : List Char → Nat
  | [] => 0
  | c :: cs => c.utf8Size + byteLength cs

/-- The longest prefix that fits into a number of bytes. -/
def takeBytes : Nat → List Char → List Char
  | _, [] => []
  | n, c :: cs => if c.utf8Size ≤ n then c :: takeBytes (n - c.utf8Size) cs else []

/-- What is left after the longest prefix that fits into a number of bytes. -/
def dropBytes : Nat → List Char → List Char
  | _, [] => []
  | n, c :: cs => if c.utf8Size ≤ n then dropBytes (n - c.utf8Size) cs else c :: cs

/-- A stretch of source text, from the byte at `start` up to and without the byte at `stop`. -/
structure Span where
  start : Nat
  stop : Nat
  deriving DecidableEq, Repr

/-- A place in a text as a reader counts it, from line 1 and column 1. -/
structure Position where
  line : Nat
  column : Nat
  deriving DecidableEq, Repr

/-- The place just after some text: one line further for each line end in it, and one column
further for each character after the last of them, however many bytes it takes. -/
def Position.after (text : List Char) : Position where
  line := text.count '\n' + 1
  column := (text.reverse.takeWhile (· != '\n')).length + 1

namespace Span

/-- The number of bytes in the span. -/
def length (span : Span) : Nat :=
  span.stop - span.start

/-- Whether the span covers nothing. -/
def isEmpty (span : Span) : Bool :=
  span.start == span.stop

/-- The characters of a source that the span covers. -/
def slice (span : Span) (source : List Char) : List Char :=
  takeBytes span.length (dropBytes span.start source)

/-- The text of a source that the span covers. -/
def text (span : Span) (source : String) : String :=
  String.ofList (span.slice source.toList)

/-- Where the span starts. A start beyond the source counts as its end. -/
def position (span : Span) (source : String) : Position :=
  Position.after (takeBytes span.start source.toList)

/-- The span as its two ends with dots between them. -/
def render (span : Span) : String :=
  s!"{span.start}..{span.stop}"

end Span

end C0
