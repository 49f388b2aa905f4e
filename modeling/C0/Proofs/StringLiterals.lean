import C0.Proofs.Tiling

namespace C0

/-- The escapes of string literals. -/
inductive Escape where
  | apostrophe | quote | backslash | newline | tab | carriageReturn
  deriving DecidableEq, Repr

namespace Escape

/-- What is written after the backslash. -/
def sign : Escape → Char
  | apostrophe => '\''
  | quote => '"'
  | backslash => '\\'
  | newline => 'n'
  | tab => 't'
  | carriageReturn => 'r'

/-- The character that the escape stands for. -/
def value : Escape → Char
  | apostrophe => '\''
  | quote => '"'
  | backslash => '\\'
  | newline => '\n'
  | tab => '\t'
  | carriageReturn => '\r'

theorem mem_escapes_iff {c value : Char} :
    (c, value) ∈ Literal.escapes ↔ ∃ escape : Escape, escape.sign = c ∧ escape.value = value := by
  constructor
  · simp only [Literal.escapes, List.mem_cons, Prod.mk.injEq, List.not_mem_nil, or_false]
    rintro (⟨rfl, rfl⟩ | ⟨rfl, rfl⟩ | ⟨rfl, rfl⟩ | ⟨rfl, rfl⟩ | ⟨rfl, rfl⟩ | ⟨rfl, rfl⟩)
    exacts [⟨apostrophe, rfl, rfl⟩, ⟨quote, rfl, rfl⟩, ⟨backslash, rfl, rfl⟩,
      ⟨newline, rfl, rfl⟩, ⟨tab, rfl, rfl⟩, ⟨carriageReturn, rfl, rfl⟩]
  · rintro ⟨escape, rfl, rfl⟩
    cases escape <;> decide

end Escape

/-- What a string literal is written with between its quotes, character by character. -/
inductive StringPiece where
  | raw (c : Char) (notQuote : c ≠ '"') (notBackslash : c ≠ '\\')
  | escape (known : Escape)

namespace StringPiece

/-- How the piece is written. -/
def text : StringPiece → List Char
  | raw c _ _ => [c]
  | escape known => ['\\', known.sign]

/-- The character that the piece denotes. -/
def value : StringPiece → Char
  | raw c _ _ => c
  | escape known => known.value

theorem writes_iff {text : List Char} {value : Char} :
    Literal.Writes '"' text value ↔
      ∃ piece : StringPiece, piece.text = text ∧ piece.value = value := by
  constructor
  · intro writes
    cases writes with
    | raw notQuote notBackslash => exact ⟨raw value notQuote notBackslash, rfl, rfl⟩
    | escape known =>
      obtain ⟨escape, rfl, rfl⟩ := Escape.mem_escapes_iff.mp known
      exact ⟨.escape escape, rfl, rfl⟩
  · rintro ⟨piece, rfl, rfl⟩
    cases piece with
    | raw c notQuote notBackslash => exact .raw notQuote notBackslash
    | escape known => exact .escape (Escape.mem_escapes_iff.mpr ⟨known, rfl, rfl⟩)

/-- Each character has a piece that denotes it. -/
theorem exists_value (c : Char) : ∃ piece : StringPiece, piece.value = c := by
  by_cases quote : c = '"'
  · exact ⟨.escape .quote, quote.symm⟩
  · by_cases backslash : c = '\\'
    · exact ⟨.escape .backslash, backslash.symm⟩
    · exact ⟨.raw c quote backslash, rfl⟩

end StringPiece

/-- The text of the literal that some pieces make up. -/
def literalText (pieces : List StringPiece) : List Char :=
  '"' :: pieces.flatMap StringPiece.text ++ ['"']

/-- The characters that some pieces denote, in order. -/
def literalValue (pieces : List StringPiece) : List Char :=
  pieces.map StringPiece.value

theorem writesAll_iff {text values : List Char} :
    Literal.WritesAll '"' text values ↔ ∃ pieces : List StringPiece,
      pieces.flatMap StringPiece.text = text ∧ literalValue pieces = values := by
  constructor
  · intro writes
    induction writes with
    | nil => exact ⟨[], rfl, rfl⟩
    | cons first _ ih =>
      obtain ⟨piece, rfl, rfl⟩ := StringPiece.writes_iff.mp first
      obtain ⟨pieces, rfl, rfl⟩ := ih
      exact ⟨piece :: pieces, rfl, rfl⟩
  · rintro ⟨pieces, rfl, rfl⟩
    induction pieces with
    | nil => exact .nil
    | cons piece pieces ih => exact .cons (StringPiece.writes_iff.mpr ⟨piece, rfl, rfl⟩) ih

theorem stringValue_literalText (pieces : List StringPiece) :
    Literal.stringValue (literalText pieces) = literalValue pieces :=
  (writesAll_iff.mpr ⟨pieces, rfl, rfl⟩).stringValue

theorem exists_literalValue (values : List Char) : ∃ pieces, literalValue pieces = values := by
  induction values with
  | nil => exact ⟨[], rfl⟩
  | cons c values ih =>
    obtain ⟨piece, rfl⟩ := StringPiece.exists_value c
    obtain ⟨pieces, rfl⟩ := ih
    exact ⟨piece :: pieces, rfl⟩

/-- A literal is found whole, whatever comes after it. -/
theorem Piece.first_literalText (pieces : List StringPiece) (rest : List Char) :
    first (literalText pieces ++ rest) =
      ⟨.ok (.string (String.ofList (literalValue pieces))), literalText pieces, rest⟩ := by
  have read := string_of_writes (writesAll_iff.mpr ⟨pieces, rfl, rfl⟩) rest
  rw [literalText, List.append_assoc, List.cons_append, first_of_quote (.inr rfl),
    if_neg (by decide), List.singleton_append, read]
  rfl

/-- A scan in front of a literal covers the literal and stops at its end. -/
theorem Scanner.scan_literalText {scanner : Scanner} {pieces : List StringPiece} {rest : List Char}
    (ahead : scanner.skip.rest = literalText pieces ++ rest) :
    scanner.scan =
      (⟨⟨scanner.skip.offset, scanner.skip.offset + byteLength (literalText pieces)⟩,
        .ok (.string (String.ofList (literalValue pieces)))⟩,
        ⟨scanner.skip.offset + byteLength (literalText pieces), rest⟩) := by
  simp only [scan, ahead, Piece.first_literalText]

/-- A scanner that has skipped blanks and comments stands further on in the same source. -/
theorem Scanner.Stands.skip {source before : List Char} {scanner : Scanner}
    (stands : scanner.Stands source before) :
    ∃ gap, scanner.skip.Stands source (before ++ gap) := by
  obtain ⟨gap, split, offset, -⟩ := scanner.skip_gap
  refine ⟨gap, ?_, ?_⟩
  · rw [stands.split, List.append_assoc, ← split]
  · rw [offset, stands.offset, byteLength_append]

/-- A literal alone is a source whose first token it is. -/
theorem result_literalText (pieces : List StringPiece) :
    (Cursor.ofSource (String.ofList (literalText pieces))).result 0 =
      ⟨⟨0, byteLength (literalText pieces)⟩,
        .ok (.string (String.ofList (literalValue pieces)))⟩ := by
  have solid : Solid (literalText pieces) := solid_cons (by decide) (by decide)
  have skip : (Scanner.ofSource (String.ofList (literalText pieces))).skip =
      ⟨0, literalText pieces⟩ := by
    rw [Scanner.ofSource, String.toList_ofList]
    exact Scanner.skipFrom_gap 0 .nil solid
  have ahead : (Scanner.ofSource (String.ofList (literalText pieces))).skip.rest =
      literalText pieces ++ [] := by rw [skip, List.append_nil]
  have scan := Scanner.scan_literalText ahead
  rw [skip, Nat.zero_add] at scan
  exact congrArg Prod.fst scan

/-- The text of a string token is that of a literal. -/
theorem exists_pieces_of_string {source : String} {index : Nat} {value : String}
    (found : ((Cursor.ofSource source).result index).reading = .ok (.string value)) :
    ∃ pieces, ((Cursor.ofSource source).result index).span.slice source.toList =
      literalText pieces ∧ value = String.ofList (literalValue pieces) := by
  obtain ⟨before, gap, used, rest, split, tile, -⟩ := result_tile source index
  rw [split, tile.slice]
  have spelled := tile.spelled _ found (by simp)
  generalize kind : Kind.string value = token at spelled
  cases spelled with
  | string writes =>
    obtain ⟨pieces, rfl, rfl⟩ := writesAll_iff.mp writes
    exact ⟨pieces, rfl, Kind.string.inj kind⟩
  | _ => cases kind

/-- String literals stand for exactly what they are written with. Wherever a scan has skipped up to
the text of a literal, it covers that text, and the value is what the pieces denote. The text of
any string token is that of a literal, so that no character of it is lost. Every text is the value
of some literal. Words of 32 bits keep the ends of what is covered in a source of less than two to
the 32 bytes. -/
theorem strings_exact :
    (∀ (source : String) (before rest : List Char) (scanner : Scanner) (pieces : List StringPiece),
      scanner.Stands source.toList before → scanner.skip.rest = literalText pieces ++ rest →
      ∃ span stop, scanner.scan =
          (⟨span, .ok (.string (String.ofList (literalValue pieces)))⟩, ⟨stop, rest⟩) ∧
        span = ⟨scanner.skip.offset, stop⟩ ∧ span.slice source.toList = literalText pieces ∧
        Literal.stringValue (span.slice source.toList) = literalValue pieces ∧
        (source.utf8ByteSize < 2 ^ 32 → span.FitsWords)) ∧
    (∀ (source : String) (index : Nat) (value : String),
      ((Cursor.ofSource source).result index).reading = .ok (.string value) →
      ∃ pieces, ((Cursor.ofSource source).result index).span.slice source.toList =
          literalText pieces ∧
        Literal.stringValue (((Cursor.ofSource source).result index).span.slice source.toList) =
          literalValue pieces ∧
        value = String.ofList (literalValue pieces) ∧
        (source.utf8ByteSize < 2 ^ 32 →
          ((Cursor.ofSource source).result index).span.FitsWords)) ∧
    ∀ value : String, ∃ literal : String, (Cursor.ofSource literal).result 0 =
      ⟨⟨0, literal.utf8ByteSize⟩, .ok (.string value)⟩ := by
  refine ⟨?_, ?_, ?_⟩
  · intro source before rest scanner pieces stands ahead
    obtain ⟨gap, skipped⟩ := stands.skip
    have fits := Scanner.scan_fits stands
    rw [Scanner.scan_literalText ahead] at fits
    refine ⟨_, _, Scanner.scan_literalText ahead, rfl, ?_⟩
    have covers : Span.slice ⟨scanner.skip.offset,
        scanner.skip.offset + byteLength (literalText pieces)⟩ source.toList =
          literalText pieces := by
      rw [skipped.offset, skipped.split, ahead, ← List.append_assoc]
      exact Span.slice_append _ _ _
    exact ⟨covers, by rw [covers, stringValue_literalText], fits.fitsWords⟩
  · intro source index value found
    obtain ⟨pieces, covers, same⟩ := exists_pieces_of_string found
    exact ⟨pieces, covers, by rw [covers, stringValue_literalText], same,
      (result_fits source index).fitsWords⟩
  · intro value
    obtain ⟨pieces, values⟩ := exists_literalValue value.toList
    refine ⟨String.ofList (literalText pieces), ?_⟩
    rw [result_literalText, ← byteLength_toList, String.toList_ofList, values, String.ofList_toList]

/-- A literal may end in an escaped backslash. -/
theorem strings_exact_backslash :
    ∃ span stop, (Scanner.ofSource " \"a\\\\\"b").scan =
        (⟨span, .ok (.string (String.ofList ['a', '\\']))⟩, ⟨stop, ['b']⟩) ∧
      span = ⟨1, stop⟩ ∧ span.slice " \"a\\\\\"b".toList = ['"', 'a', '\\', '\\', '"'] ∧
      Literal.stringValue (span.slice " \"a\\\\\"b".toList) = ['a', '\\'] ∧
      (" \"a\\\\\"b".utf8ByteSize < 2 ^ 32 → span.FitsWords) :=
  strings_exact.1 " \"a\\\\\"b" [] ['b'] (Scanner.ofSource " \"a\\\\\"b")
    [.raw 'a' (by decide) (by decide), .escape .backslash] (Scanner.stands_ofSource _)
    (by decide +kernel)

end C0
