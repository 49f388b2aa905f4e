import C0.Proofs.Bytes
import Mathlib.Data.List.Induction

namespace C0

theorem takeBytes_of_le {n : Nat} {text : List Char} (whole : byteLength text ≤ n) :
    takeBytes n text = text := by
  induction text generalizing n with
  | nil => cases n <;> rfl
  | cons c text ih =>
    rw [byteLength] at whole
    rw [takeBytes, if_pos (by omega), ih (by omega)]

namespace Position

/-- The position behind one more character: the start of the next line behind a line end, else the
next column. -/
def step (position : Position) (c : Char) : Position :=
  if c = '\n' then ⟨position.line + 1, 1⟩ else ⟨position.line, position.column + 1⟩

/-- The position that is reached from the start of a text, character by character. -/
def walk (text : List Char) : Position :=
  text.foldl step ⟨1, 1⟩

/-- Positions in the order of reading. -/
instance : LT Position where
  lt first second := first.line < second.line ∨
    first.line = second.line ∧ first.column < second.column

theorem lt_iff {first second : Position} : first < second ↔ first.line < second.line ∨
    first.line = second.line ∧ first.column < second.column :=
  Iff.rfl

theorem lt_irrefl (position : Position) : ¬ position < position := by
  rw [lt_iff]
  omega

theorem lt_trans {first second third : Position} (less : first < second) (later : second < third) :
    first < third := by
  rw [lt_iff] at *
  omega

theorem lt_step (position : Position) (c : Char) : position < position.step c := by
  rw [lt_iff, step]
  split
  · exact .inl (Nat.lt_succ_self _)
  · exact .inr ⟨rfl, Nat.lt_succ_self _⟩

theorem walk_concat (text : List Char) (c : Char) : walk (text ++ [c]) = (walk text).step c := by
  rw [walk, List.foldl_append]
  rfl

/-- Counting lines and the characters of the last one comes to what a walk comes to. -/
theorem after_eq_walk (text : List Char) : after text = walk text := by
  induction text using List.reverseRecOn with
  | nil => rfl
  | append_singleton text c ih =>
    rw [walk_concat, ← ih, after, after, step]
    by_cases ends : c = '\n'
    · simp [ends]
    · simp [ends, List.count_append]

/-- Each character leads further. -/
theorem walk_lt_walk (text : List Char) {more : List Char} (some : more ≠ []) :
    walk text < walk (text ++ more) := by
  induction more using List.reverseRecOn with
  | nil => exact absurd rfl some
  | append_singleton more c ih =>
    rw [← List.append_assoc, walk_concat]
    cases more with
    | nil =>
      rw [List.append_nil]
      exact lt_step _ c
    | cons d more => exact lt_trans (ih (List.cons_ne_nil d more)) (lt_step _ c)

end Position

namespace Span

variable {source : String} {span other : Span}

/-- A span that starts on a boundary starts behind some characters, and its position is reached by
a walk over them. -/
theorem position_of_isValid (boundary : String.Pos.Raw.IsValid source ⟨span.start⟩) :
    ∃ before rest, source.toList = before ++ rest ∧ byteLength before = span.start ∧
      span.position source = Position.walk before := by
  obtain ⟨before, rest, rfl, start⟩ := String.Pos.Raw.isValid_iff_exists_append.mp boundary
  have bytes : byteLength before.toList = span.start := by
    rw [byteLength_toList]
    exact (congrArg String.Pos.Raw.byteIdx start).symm
  refine ⟨before.toList, rest.toList, String.toList_append, bytes, ?_⟩
  rw [position, ← bytes, String.toList_append, takeBytes_append, Position.after_eq_walk]

theorem position_lt (boundary : String.Pos.Raw.IsValid source ⟨span.start⟩)
    (boundary' : String.Pos.Raw.IsValid source ⟨other.start⟩) (less : span.start < other.start) :
    span.position source < other.position source := by
  obtain ⟨before, rest, split, start, walks⟩ := position_of_isValid boundary
  obtain ⟨before', rest', split', start', walks'⟩ := position_of_isValid boundary'
  rw [split] at split'
  rw [walks, walks']
  rcases List.append_eq_append_iff.mp split' with ⟨more, rfl, rfl⟩ | ⟨more, rfl, rfl⟩
  · refine Position.walk_lt_walk before ?_
    rintro rfl
    rw [List.append_nil] at start'
    omega
  · rw [byteLength_append] at start
    omega

/-- Reported positions are those of a reader who walks over the characters of a source. A span that
starts on a boundary between characters has the position that the characters before it lead to. Of
two boundaries the earlier one has the smaller position, so that different boundaries have different
ones. A start beyond the source has the position of its end. -/
theorem position_faithful (source : String) :
    (∀ span : Span, String.Pos.Raw.IsValid source ⟨span.start⟩ →
      ∃ before rest, source.toList = before ++ rest ∧ byteLength before = span.start ∧
        span.position source = Position.walk before) ∧
    (∀ span other : Span, String.Pos.Raw.IsValid source ⟨span.start⟩ →
      String.Pos.Raw.IsValid source ⟨other.start⟩ →
        (span.start < other.start → span.position source < other.position source) ∧
        (span.start ≠ other.start → span.position source ≠ other.position source)) ∧
    ∀ span : Span, source.utf8ByteSize ≤ span.start →
      span.position source = Position.walk source.toList := by
  refine ⟨fun span boundary => position_of_isValid boundary,
    fun span other boundary boundary' => ⟨position_lt boundary boundary', fun differ same => ?_⟩,
    fun span beyond => ?_⟩
  · rcases Nat.lt_or_gt_of_ne differ with less | more
    · exact Position.lt_irrefl _ (same ▸ position_lt boundary boundary' less)
    · exact Position.lt_irrefl _ (same ▸ position_lt boundary' boundary more)
  · rw [← byteLength_toList] at beyond
    rw [position, takeBytes_of_le beyond, Position.after_eq_walk]

/-- A line end right before a start, behind a character of two bytes. -/
theorem position_faithful_lines :
    String.Pos.Raw.IsValid "é\n\nb" ⟨2⟩ ∧ String.Pos.Raw.IsValid "é\n\nb" ⟨4⟩ ∧
      (∃ before rest, "é\n\nb".toList = before ++ rest ∧ byteLength before = 4 ∧
        position ⟨4, 5⟩ "é\n\nb" = Position.walk before) ∧
      position ⟨2, 3⟩ "é\n\nb" < position ⟨4, 5⟩ "é\n\nb" ∧
      position ⟨9, 9⟩ "é\n\nb" = Position.walk "é\n\nb".toList := by
  have first : String.Pos.Raw.IsValid "é\n\nb" ⟨2⟩ := by decide +kernel
  have last : String.Pos.Raw.IsValid "é\n\nb" ⟨4⟩ := by decide +kernel
  obtain ⟨walks, ordered, beyond⟩ := position_faithful "é\n\nb"
  exact ⟨first, last, walks ⟨4, 5⟩ last, (ordered ⟨2, 3⟩ ⟨4, 5⟩ first last).1 (by decide),
    beyond ⟨9, 9⟩ (by decide)⟩

end Span

end C0
