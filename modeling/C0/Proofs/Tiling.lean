import C0.Proofs.Printing
import C0.Proofs.Spelling.Recognition
import C0.Token.Cursor

namespace C0

/-- How a lexeme lies in its source. The scan that found it started behind the characters `before`,
skipped `gap`, covered `used` and stopped in front of `rest`. -/
structure Tile (before gap used rest : List Char) (lexeme : Lexeme) : Prop where
  skipped : Gap gap (used ++ rest)
  span : lexeme.span = ⟨byteLength (before ++ gap), byteLength (before ++ gap ++ used)⟩
  spelled : ∀ kind, lexeme.reading = .ok kind → kind ≠ .eof → kind.Spelled used
  covers : lexeme.reading ≠ .ok .eof → used ≠ []
  ends : lexeme.reading = .ok .eof → used = [] ∧ rest = []

namespace Tile

variable {before gap used rest : List Char} {lexeme : Lexeme}

theorem slice (tile : Tile before gap used rest lexeme) :
    lexeme.span.slice (before ++ gap ++ used ++ rest) = used := by
  rw [tile.span, byteLength_append (before ++ gap)]
  exact Span.slice_append _ used rest

theorem start_lt_stop (tile : Tile before gap used rest lexeme)
    (more : lexeme.reading ≠ .ok .eof) : lexeme.span.start < lexeme.span.stop := by
  have positive := byteLength_pos (tile.covers more)
  rw [tile.span, byteLength_append (before ++ gap)]
  exact Nat.lt_add_of_pos_right positive

theorem eq_eof (tile : Tile before gap used rest lexeme) (last : lexeme.reading = .ok .eof) :
    lexeme = ⟨⟨byteLength (before ++ gap ++ used ++ rest),
      byteLength (before ++ gap ++ used ++ rest)⟩, .ok .eof⟩ := by
  obtain ⟨rfl, rfl⟩ := tile.ends last
  obtain ⟨span, reading⟩ := lexeme
  have spans := tile.span
  simp only [List.append_nil] at spans last ⊢
  rw [spans, last]

end Tile

/-- The scanner stands in a source behind the characters `before`. -/
structure Scanner.Stands (source before : List Char) (scanner : Scanner) : Prop where
  split : source = before ++ scanner.rest
  offset : scanner.offset = byteLength before

namespace Scanner

theorem stands_ofSource (source : String) : (ofSource source).Stands source.toList [] :=
  ⟨rfl, rfl⟩

/-- One scan lays one tile and moves to its end. -/
theorem scan_tile {source before : List Char} {scanner : Scanner}
    (stands : scanner.Stands source before) :
    ∃ gap used, Tile before gap used scanner.scan.2.rest scanner.scan.1 ∧
      scanner.scan.2.Stands source (before ++ gap ++ used) := by
  obtain ⟨gap, split, offset, skipped, -⟩ := scanner.skip_gap
  have pieces := Piece.first_split scanner.skip.rest
  refine ⟨gap, (Piece.first scanner.skip.rest).used, ⟨?_, ?_, ?_, ?_, ?_⟩, ?_, ?_⟩
  · exact pieces.symm ▸ skipped
  · simp only [scan, offset, stands.offset, byteLength_append]
  · intro kind found more
    refine Piece.spelled_of_first (fun none => more ?_) found
    simp only [scan, none] at found
    exact (Except.ok.inj found).symm
  · intro more
    refine Piece.first_used_ne_nil fun none => more ?_
    simp only [scan, none]
    rfl
  · intro last
    have none : scanner.skip.rest = [] := by
      by_contra some
      exact (Piece.spelled_of_first some last).ne_eof rfl
    simp only [scan, none]
    exact ⟨rfl, rfl⟩
  · rw [stands.split, split]
    simp only [scan, List.append_assoc, pieces]
  · simp only [scan, offset, stands.offset, byteLength_append]

/-- What a scan covers can be cut out of the source. -/
theorem scan_fits {source : String} {before : List Char} {scanner : Scanner}
    (stands : scanner.Stands source.toList before) : scanner.scan.1.span.Fits source := by
  obtain ⟨gap, used, tile, later⟩ := scan_tile stands
  rw [tile.span]
  exact Span.fits_append later.split

theorem scan_at_end (offset : Nat) : (scan ⟨offset, []⟩).1.reading = .ok .eof :=
  rfl

end Scanner

namespace Cursor

/-- The reader after so many lexemes were taken, faults among them. -/
def after (cursor : Cursor) : Nat → Cursor
  | 0 => cursor
  | n + 1 => (cursor.after n).next.2

/-- The lexeme that is taken after so many others. -/
def result (cursor : Cursor) (index : Nat) : Lexeme :=
  (cursor.after index).next.1

/-- The byte in front of which the reader stands after so many lexemes. -/
def place (cursor : Cursor) (index : Nat) : Nat :=
  (cursor.after index).scanner.offset

theorem next_of_free {cursor : Cursor} (free : cursor.held = none) :
    cursor.next = (cursor.scanner.scan.1, ⟨cursor.scanner.scan.2, none⟩) := by
  simp only [next, free]

end Cursor

section

variable (source : String)

theorem after_ofSource (index : Nat) : ((Cursor.ofSource source).after index).held = none ∧
    ∃ before, ((Cursor.ofSource source).after index).scanner.Stands source.toList before := by
  induction index with
  | zero => exact ⟨rfl, [], Scanner.stands_ofSource source⟩
  | succ index ih =>
    obtain ⟨free, before, stands⟩ := ih
    obtain ⟨gap, used, -, later⟩ := Scanner.scan_tile stands
    simp only [Cursor.after, Cursor.next_of_free free]
    exact ⟨trivial, _, later⟩

/-- Each result lies in the source where the reader goes on. -/
theorem result_tile (index : Nat) : ∃ before gap used rest,
    source.toList = before ++ gap ++ used ++ rest ∧
      Tile before gap used rest ((Cursor.ofSource source).result index) ∧
      ((Cursor.ofSource source).after index).scanner =
        ⟨byteLength before, gap ++ used ++ rest⟩ ∧
      ((Cursor.ofSource source).after (index + 1)).scanner =
        ⟨byteLength (before ++ gap ++ used), rest⟩ := by
  obtain ⟨free, before, stands⟩ := after_ofSource source index
  obtain ⟨gap, used, tile, later⟩ := Scanner.scan_tile stands
  have result : (Cursor.ofSource source).result index =
      ((Cursor.ofSource source).after index).scanner.scan.1 := by
    rw [Cursor.result, Cursor.next_of_free free]
  have next : ((Cursor.ofSource source).after (index + 1)).scanner =
      ((Cursor.ofSource source).after index).scanner.scan.2 := by
    rw [Cursor.after, Cursor.next_of_free free]
  refine ⟨before, gap, used, _, later.split, result ▸ tile, ?_, ?_⟩
  · have same := stands.split.symm.trans later.split
    rw [List.append_assoc, List.append_assoc, List.append_cancel_left_eq] at same
    rw [List.append_assoc, ← same, ← stands.offset]
  · rw [next, ← later.offset]

theorem result_fits (index : Nat) : ((Cursor.ofSource source).result index).span.Fits source := by
  obtain ⟨free, before, stands⟩ := after_ofSource source index
  rw [Cursor.result, Cursor.next_of_free free]
  exact Scanner.scan_fits stands

/-- A token but the end takes at least one character. -/
theorem rest_length_lt {index : Nat}
    (more : ((Cursor.ofSource source).result index).reading ≠ .ok .eof) :
    ((Cursor.ofSource source).after (index + 1)).scanner.rest.length <
      ((Cursor.ofSource source).after index).scanner.rest.length := by
  obtain ⟨before, gap, used, rest, -, tile, now, next⟩ := result_tile source index
  have positive : 0 < used.length := List.length_pos_iff.mpr (tile.covers more)
  rw [now, next]
  simp only [List.length_append]
  omega

theorem rest_length_le {index : Nat}
    (more : ∀ i < index, ((Cursor.ofSource source).result i).reading ≠ .ok .eof) :
    index + ((Cursor.ofSource source).after index).scanner.rest.length ≤ source.length := by
  induction index with
  | zero => exact Nat.le_of_eq (Nat.zero_add _)
  | succ index ih =>
    have before := ih fun i less => more i (by omega)
    have taken := rest_length_lt source (more index (Nat.lt_succ_self _))
    omega

theorem place_le {i j : Nat} (le : i ≤ j) :
    (Cursor.ofSource source).place i ≤ (Cursor.ofSource source).place j := by
  induction j, le using Nat.le_induction with
  | base => exact Nat.le_refl _
  | succ j _ ih =>
    obtain ⟨before, gap, used, rest, -, -, now, next⟩ := result_tile source j
    refine Nat.le_trans ih ?_
    simp only [Cursor.place, now, next, byteLength_append]
    omega

/-- After the end of the source comes nothing but the end. -/
theorem result_eof {i j : Nat} (last : ((Cursor.ofSource source).result i).reading = .ok .eof)
    (le : i ≤ j) : ((Cursor.ofSource source).result j).reading = .ok .eof := by
  induction j, le using Nat.le_induction with
  | base => exact last
  | succ j _ ih =>
    obtain ⟨before, gap, used, rest, -, tile, -, next⟩ := result_tile source j
    obtain ⟨free, -⟩ := after_ofSource source (j + 1)
    rw [Cursor.result, Cursor.next_of_free free, next, (tile.ends ih).2]
    exact Scanner.scan_at_end _

theorem stop_le_start {i j : Nat} (less : i < j) :
    ((Cursor.ofSource source).result i).span.stop ≤
      ((Cursor.ofSource source).result j).span.start := by
  obtain ⟨before, gap, used, rest, -, tile, -, next⟩ := result_tile source i
  obtain ⟨before', gap', used', rest', -, tile', now', -⟩ := result_tile source j
  have ordered := place_le source (Nat.succ_le_of_lt less)
  rw [Cursor.place, Cursor.place, next, now'] at ordered
  rw [tile.span, tile'.span, byteLength_append before' gap']
  exact Nat.le_trans ordered (Nat.le_add_right _ _)

theorem exists_eof : ∃ index, ((Cursor.ofSource source).result index).reading = .ok .eof := by
  by_contra never
  rw [not_exists] at never
  have bound : source.length + 1 + _ ≤ source.length := rest_length_le source fun i _ => never i
  omega

/-- The text of a token alone is a source of that token. -/
theorem lexemes_of_text {index : Nat} {kind : Kind} {text : String}
    (found : ((Cursor.ofSource source).result index).reading = .ok kind) (more : kind ≠ .eof)
    (cut : ((Cursor.ofSource source).result index).span.text source = text) :
    lexemes text = [⟨⟨0, text.utf8ByteSize⟩, .ok kind⟩,
      ⟨⟨text.utf8ByteSize, text.utf8ByteSize⟩, .ok .eof⟩] := by
  obtain ⟨before, gap, used, rest, split, tile, -⟩ := result_tile source index
  rw [Span.text, split, tile.slice] at cut
  have spelled := tile.spelled kind found more
  simp only [← cut, ← byteLength_toList, String.toList_ofList]
  simpa [Sheet.lexemesFrom, Sheet.textAfter] using Sheet.lexemes_tokens ⟨kind, used, spelled⟩ []

/-- The lexemes that a reader takes one after the other, faults among them, cover a source. -/
structure Cursor.Tiles (reader : Cursor) (source : String) : Prop where
  start : reader.place 0 = 0
  /-- Before a lexeme stand only blanks and comments, and the reader goes on at its end. -/
  tile : ∀ i, ∃ before gap used rest, source.toList = before ++ gap ++ used ++ rest ∧
    reader.place i = byteLength before ∧
    Gap gap (used ++ rest) ∧
    (reader.result i).span = ⟨byteLength (before ++ gap), reader.place (i + 1)⟩ ∧
    reader.after (i + 1) = ⟨⟨byteLength (before ++ gap ++ used), rest⟩, none⟩
  /-- Each lexeme but the end covers something. -/
  nonempty : ∀ i, (reader.result i).reading ≠ .ok .eof →
    (reader.result i).span.start < (reader.result i).span.stop
  disjoint : ∀ i j, i < j → (reader.result i).span.stop ≤ (reader.result j).span.start
  /-- The end comes after no more lexemes than there are characters, and then again and again. -/
  ends : ∃ count ≤ source.length, (∀ i < count, (reader.result i).reading ≠ .ok .eof) ∧
    ∀ i ≥ count, reader.result i = ⟨⟨source.utf8ByteSize, source.utf8ByteSize⟩, .ok .eof⟩
  /-- The text of a token alone is a source of that token. -/
  alone : ∀ i kind text, (reader.result i).reading = .ok kind → kind ≠ .eof →
    (reader.result i).span.text source = text →
      lexemes text = [⟨⟨0, text.utf8ByteSize⟩, .ok kind⟩,
        ⟨⟨text.utf8ByteSize, text.utf8ByteSize⟩, .ok .eof⟩]

/-- What is taken from a source covers it, up to its end. -/
theorem results_tile_source : (Cursor.ofSource source).Tiles source where
  start := rfl
  tile i := by
    obtain ⟨before, gap, used, rest, split, tile, now, next⟩ := result_tile source i
    obtain ⟨free, -⟩ := after_ofSource source (i + 1)
    refine ⟨before, gap, used, rest, split, ?_, tile.skipped, ?_, ?_⟩
    · rw [Cursor.place, now]
    · rw [Cursor.place, next, tile.span]
    · rw [← next, ← free]
  nonempty i more := by
    obtain ⟨before, gap, used, rest, -, tile, -⟩ := result_tile source i
    exact tile.start_lt_stop more
  disjoint i j less := stop_le_start source less
  ends := by
    have first := Nat.find_spec (exists_eof source)
    have before (i : Nat) := Nat.find_min (m := i) (exists_eof source)
    refine ⟨Nat.find (exists_eof source), ?_, before, fun i le => ?_⟩
    · have bound := rest_length_le source before
      omega
    · obtain ⟨before, gap, used, rest, split, tile, -⟩ := result_tile source i
      rw [tile.eq_eof (result_eof source first le), ← split, byteLength_toList]
  alone i kind text found more cut := lexemes_of_text source found more cut

end

end C0
