import C0.Proofs.Bytes
import C0.Proofs.Spelling

namespace C0

/-- The text is empty or begins with a line end. -/
def EndsLine (text : List Char) : Prop :=
  ∀ c ∈ text.head?, c = '\n'

/-- What may stand before the text `rest` and is passed over: blanks, and comments from two slashes
up to the next line end or the end of the source. -/
inductive Gap : List Char → List Char → Prop
  | nil {rest} : Gap [] rest
  | blank {c gap rest} : Text.isBlank c = true → Gap gap rest → Gap (c :: gap) rest
  | comment {body gap rest} : '\n' ∉ body → EndsLine (gap ++ rest) → Gap gap rest →
      Gap ('/' :: '/' :: body ++ gap) rest

/-- The text begins with neither a blank nor a comment. -/
structure Solid (text : List Char) : Prop where
  blank : Stops Text.isBlank text
  comment : ¬ ['/', '/'] <+: text

theorem Solid.nil : Solid [] :=
  ⟨by simp [Stops], by simp⟩

theorem Text.not_isBlank_of_continuesName {c : Char} (continues : continuesName c = true) :
    Text.isBlank c = false := by
  by_contra blank
  simp [Text.continuesName_of_isBlank (Bool.eq_true_of_not_eq_false blank)] at continues

theorem slashes_prefix_iff {c : Char} {rest : List Char} :
    ['/', '/'] <+: c :: rest ↔ c = '/' ∧ rest.head? = some '/' := by
  cases rest <;> simp [List.cons_prefix_cons, eq_comm]

theorem solid_cons {c : Char} {rest : List Char} (solid : Text.isBlank c = false)
    (noSlash : c ≠ '/') : Solid (c :: rest) := by
  constructor
  · rintro d ⟨⟩
    exact solid
  · exact fun comment => noSlash (slashes_prefix_iff.mp comment).1

/-- A token begins with neither a blank nor a comment. -/
theorem Kind.Spelled.solid {kind : Kind} {text rest : List Char} (spelled : kind.Spelled text)
    (apart : Apart rest) : Solid (text ++ rest) := by
  have named {c : Char} (continues : continuesName c = true) (more : List Char) :
      Solid (c :: more) := by
    refine solid_cons (Text.not_isBlank_of_continuesName continues) ?_
    rintro rfl
    cases continues
  have digits {text : List Char} (proper : Digits text) (more : List Char) :
      Solid (text ++ more) := by
    obtain ⟨c, others, rfl⟩ := List.exists_cons_of_ne_nil proper.nonempty
    exact named (Text.isDigit_class (proper.all c (by simp))).1 _
  cases spelled with
  | identifier starts => exact named (startsName_continues starts) _
  | uint proper => exact digits proper rest
  | double proper =>
    rw [List.append_assoc, List.append_assoc]
    exact digits proper _
  | char | string => exact solid_cons (by decide) (by decide)
  | type ty => cases ty <;> exact named (by decide) _
  | keyword word => cases word <;> exact named (by decide) _
  | mark sign =>
    cases sign with
    | slash =>
      refine ⟨by rintro c ⟨⟩; rfl, fun comment => ?_⟩
      exact apart.head_ne (by decide) (slashes_prefix_iff.mp comment).2
    | _ => exact solid_cons (by decide) (by decide)

/-- A text has a first line, up to a line end or to its own end. -/
theorem exists_line (text : List Char) :
    ∃ line rest, text = line ++ rest ∧ '\n' ∉ line ∧ EndsLine rest := by
  induction text with
  | nil => exact ⟨[], [], rfl, by simp, by simp [EndsLine]⟩
  | cons c text ih =>
    by_cases lineEnd : c = '\n'
    · exact ⟨[], c :: text, rfl, by simp, by simp [EndsLine, lineEnd]⟩
    · obtain ⟨line, rest, rfl, oneLine, ends⟩ := ih
      exact ⟨c :: line, rest, rfl, by simp [Ne.symm lineEnd, oneLine], ends⟩

/-- A text is a gap and then something that begins with neither a blank nor a comment. -/
theorem exists_gap (text : List Char) :
    ∃ gap rest, text = gap ++ rest ∧ Gap gap rest ∧ Solid rest := by
  -- A comment is passed over as a whole, so the induction is on the length.
  induction size : text.length using Nat.strong_induction_on generalizing text with
  | _ n ih =>
    cases text with
    | nil => exact ⟨[], [], rfl, .nil, .nil⟩
    | cons c text =>
      rw [List.length_cons] at size
      by_cases isBlank : Text.isBlank c = true
      · obtain ⟨gap, rest, rfl, skipped, solid⟩ := ih text.length (by omega) text rfl
        exact ⟨c :: gap, rest, rfl, .blank isBlank skipped, solid⟩
      · by_cases slashes : ['/', '/'] <+: c :: text
        · obtain ⟨body, split⟩ := slashes
          simp only [List.cons_append, List.nil_append, List.cons.injEq] at split
          obtain ⟨rfl, rfl⟩ := split
          obtain ⟨line, later, rfl, oneLine, ends⟩ := exists_line body
          have shorter : later.length < n := by
            simp only [List.length_cons, List.length_append] at size
            omega
          obtain ⟨gap, rest, rfl, skipped, solid⟩ := ih later.length shorter later rfl
          exact ⟨'/' :: '/' :: line ++ gap, rest, by simp, .comment oneLine ends skipped, solid⟩
        · refine ⟨[], c :: text, rfl, .nil, ⟨?_, slashes⟩⟩
          rintro d ⟨⟩
          simpa using isBlank

namespace Scanner

theorem skipFrom_comment {body rest : List Char} (offset : Nat) (oneLine : '\n' ∉ body)
    (ends : EndsLine rest) :
    skipFrom true offset (body ++ rest) = skipFrom false (offset + byteLength body) rest := by
  induction body generalizing offset with
  | nil =>
    cases rest with
    | nil => rfl
    | cons c rest =>
      obtain rfl := ends c rfl
      have blank : Text.isBlank '\n' = true := by decide
      simp [skipFrom, byteLength, blank]
  | cons c body ih =>
    obtain ⟨notEnd, later⟩ := List.ne_and_not_mem_of_not_mem_cons oneLine
    have inComment : (c != '\n') = true := by simpa using notEnd.symm
    simp only [List.cons_append, skipFrom, if_true, inComment, ih _ later, byteLength,
      Nat.add_assoc]

/-- A gap is skipped whole, and nothing more. -/
theorem skipFrom_gap {gap rest : List Char} (offset : Nat) (skipped : Gap gap rest)
    (solid : Solid rest) :
    skipFrom false offset (gap ++ rest) = ⟨offset + byteLength gap, rest⟩ := by
  induction skipped generalizing offset with
  | @nil rest =>
    cases rest with
    | nil => rfl
    | cons c rest =>
      have noBlank : Text.isBlank c = false := solid.blank c rfl
      have noComment : ¬ (c = '/' ∧ rest.head? = some '/') :=
        fun slashes => solid.comment (slashes_prefix_iff.mpr slashes)
      simp [skipFrom, noBlank, noComment, byteLength]
  | blank isBlank _ ih =>
    simp [skipFrom, isBlank, ih _ solid, byteLength, Nat.add_assoc]
  | @comment body gap rest oneLine ends _ ih =>
    have slash : Text.isBlank '/' = false := by decide
    have enter : skipFrom false offset ('/' :: '/' :: body ++ gap ++ rest) =
        skipFrom true (offset + '/'.utf8Size + '/'.utf8Size) (body ++ (gap ++ rest)) := by
      simp [skipFrom, slash]
    rw [enter, skipFrom_comment _ oneLine ends, ih _ solid]
    simp [byteLength, byteLength_append, Nat.add_assoc]

/-- What a scanner skips is a gap, and it stops where no more is to be skipped. -/
theorem skip_gap (scanner : Scanner) :
    ∃ gap, scanner.rest = gap ++ scanner.skip.rest ∧
      scanner.skip.offset = scanner.offset + byteLength gap ∧ Gap gap scanner.skip.rest ∧
      Solid scanner.skip.rest := by
  obtain ⟨gap, rest, split, skipped, solid⟩ := exists_gap scanner.rest
  have stops : scanner.skip = ⟨scanner.offset + byteLength gap, rest⟩ := by
    rw [skip, split, skipFrom_gap _ skipped solid]
  rw [stops]
  exact ⟨gap, split, rfl, skipped, solid⟩

/-- A token is scanned after a gap, and the scanner stops at its end. -/
theorem scan_spelled {kind : Kind} {gap text rest : List Char} (offset : Nat)
    (skipped : Gap gap (text ++ rest)) (spelled : kind.Spelled text) (apart : Apart rest) :
    scan ⟨offset, gap ++ (text ++ rest)⟩ =
      (⟨⟨offset + byteLength gap, offset + byteLength gap + byteLength text⟩, .ok kind⟩,
        ⟨offset + byteLength gap + byteLength text, rest⟩) := by
  simp only [scan, skip, skipFrom_gap offset skipped (spelled.solid apart),
    Piece.first_of_spelled spelled apart]

end Scanner

end C0
