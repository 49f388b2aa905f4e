import C0.Token.Scan
import Mathlib.Algebra.Ring.Nat
import Mathlib.Data.List.Basic
import Mathlib.Tactic.Common

namespace C0

/-- A number that every token has at least as many characters as. The end of the source has none. -/
def Kind.weight : Kind → Nat
  | .eof => 0
  | .mark sign => sign.chars.length
  | .keyword word => word.spelling.length
  | _ => 1

/-- The weight of what was read. A fault has none. -/
def weightOf : Reading → Nat
  | .ok kind => kind.weight
  | .error _ => 0

/-- Every token but the end of the source is worth something. -/
theorem Kind.weight_pos {kind : Kind} (more : kind ≠ .eof) : 0 < kind.weight := by
  cases kind with
  | eof => exact absurd rfl more
  | keyword word => cases word <;> decide
  | mark sign => cases sign <;> decide
  | _ => exact Nat.one_pos

/-- A word is worth no more than its letters. -/
theorem Kind.weight_ofName {letters : List Char} (some : letters ≠ []) :
    (Kind.ofName (String.ofList letters)).weight ≤ letters.length := by
  have positive : 1 ≤ letters.length := List.length_pos_iff.mpr some
  unfold Kind.ofName
  cases found : Keyword.ofSpelling? (String.ofList letters) with
  | some word =>
    have spelled : word.spelling = String.ofList letters := by
      unfold Keyword.ofSpelling? at found
      simpa using List.find?_some found
    simp [weight, spelled]
  | none => cases Ty.ofName? (String.ofList letters) <;> exact positive

namespace Numeral

/-- A sign is split off, and nothing is lost. -/
theorem splitSign_split (cs : List Char) : (splitSign cs).1 ++ (splitSign cs).2 = cs := by
  unfold splitSign
  split <;> rfl

theorem readFraction_split (cs : List Char) : (readFraction cs).1 ++ (readFraction cs).2 = cs := by
  unfold readFraction
  split
  · simp [List.takeWhile_append_dropWhile]
  · rfl

theorem readExponent_split (cs : List Char) : (readExponent cs).1 ++ (readExponent cs).2 = cs := by
  unfold readExponent
  split
  · rfl
  · rename_i c rest
    split
    · have sign := splitSign_split rest
      simp only [List.cons_append, List.append_assoc, List.takeWhile_append_dropWhile, sign]
    · rfl

/-- A numeral and what follows it make up the text. -/
theorem read_split (cs : List Char) : (read cs).1.text ++ (read cs).2 = cs := by
  have whole : cs.takeWhile Char.isDigit ++ cs.dropWhile Char.isDigit = cs :=
    List.takeWhile_append_dropWhile
  have fraction := readFraction_split (cs.dropWhile Char.isDigit)
  have exponent := readExponent_split (readFraction (cs.dropWhile Char.isDigit)).2
  simp only [read]
  split
  · simp only [text, List.append_nil, List.append_assoc, fraction, whole]
  · simp only [text, List.append_assoc, exponent, fraction, whole]

end Numeral

namespace Piece

theorem closingQuote_split (value : Char) (cs : List Char) :
    (closingQuote value cs).used ++ (closingQuote value cs).rest = cs := by
  unfold closingQuote
  split <;> rfl

/-- What a literal uses and what it leaves are the text. -/
theorem character_split (cs : List Char) : (character cs).used ++ (character cs).rest = cs := by
  unfold character
  split
  · rfl
  · rfl
  · rfl
  · rename_i c rest
    cases Literal.unescape c with
    | none => rfl
    | some value => simp [cons, closingQuote_split]
  · simp [cons, closingQuote_split]

theorem stringBody_split (cs : List Char) : (stringBody cs).used ++ (stringBody cs).rest = cs := by
  fun_induction stringBody cs with
  | case4 c rest known ih => simp [cons, ih]
  | case6 c rest _ _ _ ih => simp [cons, ih]
  | _ => rfl

theorem sign_split (c : Char) (rest : List Char) :
    (sign c rest).used ++ (sign c rest).rest = c :: rest := by
  unfold sign
  cases found : Mark.ofStart? (c :: rest) with
  | none => rfl
  | some mark =>
    unfold Mark.ofStart? at found
    have fits := List.find?_some found
    obtain ⟨after, same⟩ := List.isPrefixOf_iff_prefix.mp fits
    simp only [← same, List.drop_left]

/-- What a scan uses and what it leaves make up the text before it. -/
theorem first_split (cs : List Char) : (first cs).used ++ (first cs).rest = cs := by
  unfold first
  split
  · rfl
  · rename_i c rest
    split
    · exact Numeral.read_split (c :: rest)
    · split
      · exact List.takeWhile_append_dropWhile
      · split
        · simp [cons, character_split]
        · split
          · simp [cons, string, stringBody_split]
          · exact sign_split c rest

theorem number_weight {cs : List Char} {kind : Kind} (found : (number cs).reading = .ok kind) :
    kind.weight = 1 := by
  simp only [number] at found
  split at found
  · simp at found
  · split at found
    · cases found
      rfl
    · cases word : (Numeral.read cs).1.word? with
      | none => simp [word] at found
      | some value =>
        simp only [word, Except.ok.injEq] at found
        subst found
        rfl

theorem closingQuote_weight {value : Char} {cs : List Char} {kind : Kind}
    (found : (closingQuote value cs).reading = .ok kind) : kind.weight = 1 := by
  unfold closingQuote at found
  split at found
  · cases found
    rfl
  · simp at found

theorem character_weight {cs : List Char} {kind : Kind}
    (found : (character cs).reading = .ok kind) : kind.weight = 1 := by
  unfold character at found
  split at found
  · simp at found
  · simp at found
  · simp at found
  · rename_i c rest
    cases known : Literal.unescape c with
    | none => simp [known] at found
    | some value =>
      simp only [known] at found
      exact closingQuote_weight found
  · exact closingQuote_weight found

theorem string_weight {cs : List Char} {kind : Kind} (found : (string cs).reading = .ok kind) :
    kind.weight = 1 := by
  simp only [string] at found
  cases body : (stringBody cs).reading with
  | error cause => simp [body, Except.map] at found
  | ok value =>
    simp only [body, Except.map, Except.ok.injEq] at found
    subst found
    rfl

/-- A sign is worth the characters that it is made of. -/
theorem sign_weight {c : Char} {rest : List Char} {kind : Kind}
    (found : (sign c rest).reading = .ok kind) : kind.weight = (sign c rest).used.length := by
  unfold sign at found ⊢
  cases mark : Mark.ofStart? (c :: rest) with
  | none => simp [mark] at found
  | some mark =>
    simp only [mark, Except.ok.injEq] at found ⊢
    subst found
    rfl

/-- A token has at least as many characters as its weight says. -/
theorem first_weight {cs : List Char} {kind : Kind} (found : (first cs).reading = .ok kind) :
    kind.weight ≤ (first cs).used.length := by
  cases cs with
  | nil =>
    cases found
    exact Nat.zero_le _
  | cons c rest =>
    simp only [first] at found ⊢
    split at found
    · rename_i digit
      rw [if_pos digit, number_weight found]
      simp only [number, Numeral.read]
      split <;> simp [Numeral.text, digit]
    · rename_i notDigit
      rw [if_neg notDigit]
      split at found
      · rename_i letter
        have continues : continuesName c = true := by
          simp only [startsName, continuesName, Bool.or_eq_true] at letter ⊢
          rcases letter with letter | letter
          · exact .inl (.inl letter)
          · exact .inr letter
        cases found
        rw [if_pos letter]
        exact Kind.weight_ofName (by simp [continues])
      · rename_i notLetter
        rw [if_neg notLetter]
        split at found
        · rename_i quote
          rw [if_pos quote, character_weight found]
          simp [cons]
        · rename_i notQuote
          rw [if_neg notQuote]
          split at found
          · rename_i quote
            rw [if_pos quote, string_weight found]
            simp [cons]
          · rename_i notQuote'
            rw [if_neg notQuote']
            exact Nat.le_of_eq (sign_weight found)

/-- Outside numbers, there is one lexical fault only. -/
theorem closingQuote_error {value : Char} {cs : List Char} {cause : Cause}
    (failed : (closingQuote value cs).reading = .error cause) : cause = .invalidInput := by
  unfold closingQuote at failed
  split at failed <;> cases failed
  rfl

theorem character_error {cs : List Char} {cause : Cause}
    (failed : (character cs).reading = .error cause) : cause = .invalidInput := by
  unfold character at failed
  split at failed
  · cases failed
    rfl
  · cases failed
    rfl
  · cases failed
    rfl
  · split at failed
    · exact closingQuote_error failed
    · cases failed
      rfl
  · exact closingQuote_error failed

theorem stringBody_error {cs : List Char} {cause : Cause}
    (failed : (stringBody cs).reading = .error cause) : cause = .invalidInput := by
  fun_induction stringBody cs with
  | case1 | case2 | case5 =>
    cases failed
    rfl
  | case3 => cases failed
  | case4 c rest _ ih => exact ih failed
  | case6 c rest _ _ _ ih => exact ih failed

theorem string_error {cs : List Char} {cause : Cause}
    (failed : (string cs).reading = .error cause) : cause = .invalidInput := by
  simp only [string] at failed
  cases body : (stringBody cs).reading with
  | ok value => simp [body, Except.map] at failed
  | error other =>
    rw [body] at failed
    cases failed
    exact stringBody_error body

/-- A number has a lexical fault of its own. -/
theorem number_error {cs : List Char} {cause : Cause}
    (failed : (number cs).reading = .error cause) : cause = .invalidLiteral := by
  simp only [number] at failed
  split at failed
  · cases failed
    rfl
  · split at failed
    · cases failed
    · split at failed <;> cases failed
      rfl

theorem sign_error {c : Char} {rest : List Char} {cause : Cause}
    (failed : (sign c rest).reading = .error cause) : cause = .invalidInput := by
  unfold sign at failed
  split at failed <;> cases failed
  rfl

/-- What begins no token is either a bad literal or no literal at all. -/
theorem first_error {cs : List Char} {cause : Cause} (failed : (first cs).reading = .error cause) :
    cause = .invalidInput ∨ cause = .invalidLiteral := by
  unfold first at failed
  split at failed
  · cases failed
  · split at failed
    · exact .inr (number_error failed)
    · split at failed
      · cases failed
      · split at failed
        · exact .inl (character_error failed)
        · split at failed
          · exact .inl (string_error failed)
          · exact .inl (sign_error failed)

end Piece

theorem byteLength_toList (text : String) : byteLength text.toList = text.utf8ByteSize := by
  have ofList (cs : List Char) : byteLength cs = (String.ofList cs).utf8ByteSize := by
    induction cs with
    | nil => simp [byteLength]
    | cons c cs ih =>
      have split : String.ofList (c :: cs) = String.ofList [c] ++ String.ofList cs := by
        rw [← String.ofList_append]
        rfl
      have one : (String.ofList [c]).utf8ByteSize = c.utf8Size := by
        rw [← String.singleton_eq_ofList, String.utf8ByteSize_singleton]
      rw [byteLength, ih, split, String.utf8ByteSize_append, one]
  rw [ofList, String.ofList_toList]

theorem length_le_byteLength (cs : List Char) : cs.length ≤ byteLength cs := by
  induction cs with
  | nil => exact Nat.zero_le _
  | cons c cs ih =>
    have positive := c.utf8Size_pos
    simp only [byteLength, List.length_cons]
    omega

namespace Scanner

/-- Blanks and comments only make the text shorter. -/
theorem skipFrom_length (inComment : Bool) (offset : Nat) (cs : List Char) :
    (skipFrom inComment offset cs).rest.length ≤ cs.length := by
  induction cs generalizing inComment offset with
  | nil => exact Nat.le_refl _
  | cons c rest ih =>
    simp only [skipFrom]
    split
    · exact Nat.le_succ_of_le (ih _ _)
    · split
      · exact Nat.le_succ_of_le (ih _ _)
      · split
        · exact Nat.le_succ_of_le (ih _ _)
        · exact Nat.le_refl _

/-- A scan takes at least the weight of what it finds from the characters before it. -/
theorem scan_length (scanner : Scanner) :
    weightOf scanner.scan.1.reading + scanner.scan.2.rest.length ≤ scanner.rest.length := by
  have skipped : scanner.skip.rest.length ≤ scanner.rest.length := skipFrom_length _ _ _
  have split := congrArg List.length (Piece.first_split scanner.skip.rest)
  rw [List.length_append] at split
  have weighed : weightOf scanner.scan.1.reading ≤
      (Piece.first scanner.skip.rest).used.length := by
    simp only [scan, weightOf]
    cases found : (Piece.first scanner.skip.rest).reading with
    | ok kind => exact Piece.first_weight found
    | error cause => exact Nat.zero_le _
  have left : scanner.scan.2.rest = (Piece.first scanner.skip.rest).rest := rfl
  rw [left]
  omega

/-- The tokens of a text are worth no more than its characters. The induction is on the tokens. -/
theorem lexemes_weight (n : Nat) (scanner : Scanner) :
    (((scanner.lexemes n).map Lexeme.reading).map weightOf).sum ≤ scanner.rest.length := by
  induction n generalizing scanner with
  | zero => exact Nat.zero_le _
  | succ n ih =>
    have taken := scanner.scan_length
    have later := ih scanner.scan.2
    simp only [lexemes, List.map_cons, List.sum_cons]
    split
    · simp only [List.map_nil, List.sum_nil]
      omega
    · omega

/-- There are no other lexical faults than these two. -/
theorem lexemes_error {n : Nat} {scanner : Scanner} {cause : Cause}
    (failed : .error cause ∈ (scanner.lexemes n).map Lexeme.reading) :
    cause = .invalidInput ∨ cause = .invalidLiteral := by
  induction n generalizing scanner with
  | zero => simp [lexemes] at failed
  | succ n ih =>
    simp only [lexemes, List.map_cons, List.mem_cons] at failed
    rcases failed with here | later
    · exact Piece.first_error here.symm
    · split at later
      · simp at later
      · exact ih later

end Scanner

/-- The tokens of a source weigh no more than it has bytes. -/
theorem lexemes_weight (source : String) :
    (((lexemes source).map Lexeme.reading).map weightOf).sum ≤ source.utf8ByteSize := by
  have weighed := Scanner.lexemes_weight (source.toList.length + 1) (.ofSource source)
  have bytes := length_le_byteLength source.toList
  rw [byteLength_toList] at bytes
  exact Nat.le_trans weighed bytes

end C0
