import C0.Proofs.Gaps

namespace C0

/-- A token with one of its texts. -/
structure WrittenToken where
  kind : Kind
  text : List Char
  spelled : kind.Spelled text

/-- Blanks, and comments that end with their lines. -/
inductive Filler : List Char → Prop
  | nil : Filler []
  | blank {c filler} : Text.isBlank c = true → Filler filler → Filler (c :: filler)
  | comment {body filler} : '\n' ∉ body → Filler filler →
      Filler ('/' :: '/' :: body ++ '\n' :: filler)

/-- What may stand between two tokens: a blank, and then blanks and comments. -/
structure Separator where
  head : Char
  filler : List Char
  isBlank : Text.isBlank head = true
  proper : Filler filler

/-- The separator as it is written. -/
def Separator.text (separator : Separator) : List Char :=
  separator.head :: separator.filler

/-- Tokens in the order in which they are written, with separators between neighbours. -/
inductive Sheet where
  | empty
  | tokens (first : WrittenToken) (others : List (Separator × WrittenToken))

namespace Sheet

/-- The text of tokens that follow another one. -/
def textAfter : List (Separator × WrittenToken) → List Char
  | [] => []
  | (separator, token) :: others => separator.text ++ (token.text ++ textAfter others)

/-- The sheet as it is written. -/
def text : Sheet → List Char
  | empty => []
  | tokens first others => first.text ++ textAfter others

/-- The tokens in their order. -/
def toList : Sheet → List WrittenToken
  | empty => []
  | tokens first others => first :: others.map Prod.snd

/-- The tokens' lexemes and the end, if the first token starts at a byte of the source. -/
def lexemesFrom (start : Nat) (token : WrittenToken) : List (Separator × WrittenToken) → List Lexeme
  | [] =>
    let stop := start + byteLength token.text
    [⟨⟨start, stop⟩, .ok token.kind⟩, ⟨⟨stop, stop⟩, .ok .eof⟩]
  | (separator, next) :: others =>
    let stop := start + byteLength token.text
    ⟨⟨start, stop⟩, .ok token.kind⟩ :: lexemesFrom (stop + byteLength separator.text) next others

/-- The lexemes of the sheet: its tokens, each where it is written, and the end. -/
def lexemes : Sheet → List Lexeme
  | empty => [⟨⟨0, 0⟩, .ok .eof⟩]
  | tokens first others => lexemesFrom 0 first others

end Sheet

theorem Filler.gap {filler : List Char} (proper : Filler filler) (rest : List Char) :
    Gap filler rest := by
  induction proper with
  | nil => exact .nil
  | blank isBlank _ ih => exact .blank isBlank ih
  | comment oneLine _ ih => exact .comment oneLine (by simp [EndsLine]) (.blank (by decide) ih)

theorem Separator.gap (separator : Separator) (rest : List Char) : Gap separator.text rest :=
  .blank separator.isBlank (separator.proper.gap rest)

theorem Sheet.apart_textAfter (others : List (Separator × WrittenToken)) :
    Apart (textAfter others) := by
  cases others with
  | nil => simp [Apart, textAfter]
  | cons pair others =>
    rintro c ⟨⟩
    exact pair.1.isBlank

theorem WrittenToken.isLast_eq_false (token : WrittenToken) (span : Span) :
    Lexeme.isLast ⟨span, .ok token.kind⟩ = false := by
  cases found : token.kind with
  | eof => exact absurd found token.spelled.ne_eof
  | _ => rfl

theorem WrittenToken.fits (token : WrittenToken) (before rest : List Char) :
    Span.Fits ⟨byteLength before, byteLength before + byteLength token.text⟩
      (String.ofList (before ++ token.text ++ rest)) := by
  rw [← byteLength_append]
  exact Span.fits_append String.toList_ofList

/-- A token is found behind a gap, and the scan goes on at its end. -/
theorem WrittenToken.lexemes_succ {gap rest : List Char} (n offset : Nat) (token : WrittenToken)
    (skipped : Gap gap (token.text ++ rest)) (apart : Apart rest) :
    Scanner.lexemes (n + 1) ⟨offset, gap ++ (token.text ++ rest)⟩ =
      ⟨⟨offset + byteLength gap, offset + byteLength gap + byteLength token.text⟩,
        .ok token.kind⟩ ::
        Scanner.lexemes n ⟨offset + byteLength gap + byteLength token.text, rest⟩ := by
  simp only [Scanner.lexemes, Scanner.scan_spelled offset skipped token.spelled apart,
    token.isLast_eq_false, Bool.false_eq_true, if_false]

theorem lexemes_at_end (n offset : Nat) :
    Scanner.lexemes (n + 1) ⟨offset, []⟩ = [⟨⟨offset, offset⟩, .ok .eof⟩] :=
  rfl

namespace Sheet

/-- Tokens are found one after the other behind a gap. -/
theorem lexemes_behind_gap {n : Nat} (offset : Nat) {gap : List Char} {token : WrittenToken}
    {others : List (Separator × WrittenToken)} (skipped : Gap gap (token.text ++ textAfter others))
    (enough : (token.text ++ textAfter others).length < n) :
    Scanner.lexemes n ⟨offset, gap ++ (token.text ++ textAfter others)⟩ =
      lexemesFrom (offset + byteLength gap) token others := by
  induction others generalizing n offset gap token with
  | nil =>
    have positive := List.length_pos_iff.mpr token.spelled.ne_nil
    rw [List.length_append] at enough
    obtain ⟨n, rfl⟩ : ∃ m, n = m + 2 := Nat.exists_eq_add_of_le' (by omega)
    rw [token.lexemes_succ _ _ skipped (apart_textAfter []), lexemesFrom, textAfter,
      lexemes_at_end]
  | cons pair others ih =>
    obtain ⟨separator, next⟩ := pair
    simp only [textAfter, List.length_append] at enough
    obtain ⟨n, rfl⟩ : ∃ m, n = m + 1 := Nat.exists_eq_add_of_le' (by omega)
    rw [token.lexemes_succ _ _ skipped (apart_textAfter _), lexemesFrom, textAfter,
      ih _ (separator.gap _)]
    have positive := List.length_pos_iff.mpr token.spelled.ne_nil
    rw [List.length_append]
    omega

/-- A token and others behind it make a source of these tokens and no others. -/
theorem lexemes_tokens (token : WrittenToken) (others : List (Separator × WrittenToken)) :
    C0.lexemes (String.ofList (token.text ++ textAfter others)) = lexemesFrom 0 token others := by
  simp only [C0.lexemes, Scanner.ofSource, String.toList_ofList]
  exact lexemes_behind_gap 0 .nil (Nat.lt_succ_self _)

/-- The lexemes of tokens that are written behind some text say what the tokens are, and cover
them. -/
theorem map_lexemesFrom (before : List Char) (token : WrittenToken)
    (others : List (Separator × WrittenToken)) :
    (lexemesFrom (byteLength before) token others).map
        (fun lexeme => (lexeme.reading,
          lexeme.span.slice (before ++ token.text ++ textAfter others))) =
      (token :: others.map Prod.snd).map (fun token => (.ok token.kind, token.text)) ++
        [(.ok .eof, [])] := by
  induction others generalizing before token with
  | nil =>
    have last := Span.slice_append (before ++ token.text) [] []
    have found := Span.slice_append before token.text []
    simp only [byteLength_append, byteLength, List.append_nil, Nat.add_zero] at last found
    simp [lexemesFrom, textAfter, last, found]
  | cons pair others ih =>
    obtain ⟨separator, next⟩ := pair
    have found := Span.slice_append before token.text (textAfter ((separator, next) :: others))
    have later := ih (before ++ token.text ++ separator.text) next
    simp only [byteLength_append, List.append_assoc, ← Nat.add_assoc, textAfter] at found later
    simp only [lexemesFrom, textAfter, List.map_cons, List.append_assoc, later, found]
    rfl

/-- The lexemes of tokens that are written behind some text can be cut out of what is written. -/
theorem fits_lexemesFrom (before : List Char) (token : WrittenToken)
    (others : List (Separator × WrittenToken)) (lexeme : Lexeme)
    (member : lexeme ∈ lexemesFrom (byteLength before) token others) :
    lexeme.span.Fits (String.ofList (before ++ token.text ++ textAfter others)) := by
  induction others generalizing before token with
  | nil =>
    have ends : (String.ofList (before ++ token.text)).toList =
        before ++ token.text ++ [] ++ [] := by simp
    have behind := Span.fits_append ends
    simp only [List.append_nil, byteLength_append] at behind
    simp only [lexemesFrom, List.mem_cons, List.not_mem_nil, or_false] at member
    rcases member with rfl | rfl
    · exact token.fits before _
    · simpa only [textAfter, List.append_nil] using behind
  | cons pair others ih =>
    obtain ⟨separator, next⟩ := pair
    rcases List.mem_cons.mp member with rfl | later
    · exact token.fits before _
    · have fits := ih (before ++ token.text ++ separator.text) next
        (by simpa only [byteLength_append] using later)
      simpa only [textAfter, List.append_assoc] using fits

end Sheet

/-- Scanning undoes writing: whatever tokens are written, with separators between neighbours, a scan
finds these tokens, each where it is written, and then the end of the source. Words of 32 bits keep
the ends of what is found where less than two to the 32 bytes are written. Every number of 64 bits
is among the tokens, by its decimal digits. -/
theorem lexemes_of_sheet :
    (∀ sheet : Sheet, lexemes (String.ofList sheet.text) = sheet.lexemes ∧
      sheet.lexemes.map (fun lexeme => (lexeme.reading, lexeme.span.slice sheet.text)) =
        sheet.toList.map (fun token => (.ok token.kind, token.text)) ++ [(.ok .eof, [])] ∧
      (byteLength sheet.text < 2 ^ 32 → ∀ lexeme ∈ sheet.lexemes, lexeme.span.FitsWords)) ∧
      ∀ value : UInt64, (Kind.uint value).Spelled (Nat.toDigits 10 value.toNat) := by
  refine ⟨fun sheet => ?_, Kind.spelled_toDigits⟩
  cases sheet with
  | empty =>
    refine ⟨rfl, rfl, fun _ lexeme member => ?_⟩
    rw [List.mem_singleton.mp member]
    exact ⟨rfl, rfl⟩
  | tokens first others =>
    refine ⟨Sheet.lexemes_tokens first others, Sheet.map_lexemesFrom [] first others,
      fun small lexeme member => ?_⟩
    rw [← String.toList_ofList (l := Sheet.text _), byteLength_toList] at small
    exact (Sheet.fits_lexemesFrom [] first others lexeme member).fitsWords small

end C0
