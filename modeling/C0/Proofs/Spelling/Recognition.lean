import C0.Proofs.Spelling
import Mathlib.Data.List.TakeWhile

namespace C0

theorem digits_takeWhile {cs : List Char} (some : cs.takeWhile Char.isDigit ≠ []) :
    Digits (cs.takeWhile Char.isDigit) :=
  ⟨some, fun _ member => List.mem_takeWhile_imp member⟩

namespace Numeral

/-- A point with digits after it is a fraction. -/
theorem fraction_of_readFraction {cs : List Char} (pointed : (readFraction cs).1 ≠ ['.']) :
    ∃ places, Fraction (readFraction cs).1 places := by
  unfold readFraction at pointed ⊢
  split
  · exact ⟨_, .point (digits_takeWhile fun none => pointed (by simp [none]))⟩
  · exact ⟨[], .absent⟩

/-- An exponent with digits is one that may be written. -/
theorem exponent_of_readExponent {cs : List Char}
    (complete : (readExponent cs).1 = [] ∨ (splitSign (readExponent cs).1.tail).2 ≠ []) :
    ∃ power, Exponent (readExponent cs).1 power := by
  cases cs with
  | nil => exact ⟨0, .absent⟩
  | cons c rest =>
    by_cases mark : c = 'e' ∨ c = 'E'
    · simp only [readExponent, if_pos mark] at complete ⊢
      unfold splitSign at complete ⊢
      split
      · simp only [List.cons_append, List.nil_append, List.tail_cons, reduceCtorEq,
          false_or] at complete
        exact ⟨_, .plus mark (digits_takeWhile complete)⟩
      · simp only [List.cons_append, List.nil_append, List.tail_cons, reduceCtorEq,
          false_or] at complete
        exact ⟨_, .minus mark (digits_takeWhile complete)⟩
      · rename_i noPlus noMinus
        have some : rest.takeWhile Char.isDigit ≠ [] := by
          intro none
          simp [none] at complete
        exact ⟨_, .unsigned mark (digits_takeWhile some)⟩
    · simp only [readExponent, if_neg mark]
      exact ⟨0, .absent⟩

/-- The parts of a complete numeral that was read. -/
theorem parts_of_read {cs : List Char} (begins : ∃ c ∈ cs.head?, c.isDigit = true)
    (complete : (read cs).1.isComplete = true) :
    Digits (read cs).1.whole ∧ (∃ places, Fraction (read cs).1.fraction places) ∧
      ∃ power, Exponent (read cs).1.exponent power := by
  have whole : Digits (cs.takeWhile Char.isDigit) := by
    obtain ⟨c, first, digit⟩ := begins
    refine digits_takeWhile ?_
    cases cs with
    | nil => cases first
    | cons d rest =>
      cases first
      simp [digit]
  simp only [isComplete, exponentParts, Bool.and_eq_true, bne_iff_ne, Bool.or_eq_true,
    List.isEmpty_iff, Bool.not_eq_true', List.isEmpty_eq_false_iff] at complete
  simp only [read] at complete ⊢
  split at complete
  · rename_i pointed
    exact absurd pointed complete.1
  · rename_i pointed
    rw [if_neg pointed]
    exact ⟨whole, fraction_of_readFraction pointed, exponent_of_readExponent complete.2⟩

end Numeral

namespace Piece

/-- A number that was read is spelled as what it was read as. -/
theorem spelled_of_number {cs : List Char} {kind : Kind} (begins : ∃ c ∈ cs.head?, c.isDigit = true)
    (found : (number cs).reading = .ok kind) : kind.Spelled (number cs).used := by
  simp only [number] at found ⊢
  generalize atNumeral : (Numeral.read cs).1 = numeral at found ⊢
  split at found
  · simp at found
  · rename_i complete
    rw [Bool.not_eq_true', Bool.not_eq_false, ← atNumeral] at complete
    obtain ⟨digits, ⟨places, proper⟩, power, raised⟩ := Numeral.parts_of_read begins complete
    rw [atNumeral] at digits proper raised
    obtain ⟨whole, fraction, exponent⟩ := numeral
    split at found
    · rename_i broken
      cases found
      have value : Numeral.double ⟨whole, fraction, exponent⟩ =
          Binary64.ofDecimal (decimal (whole ++ places)) (power - places.length) := by
        simp only [Numeral.double, Numeral.tail_of_fraction proper,
          Numeral.power_of_exponent raised, decimal_eq]
      rw [value]
      refine .double digits proper raised ?_
      simpa [Numeral.isWhole, List.isEmpty_eq_false_iff, or_iff_not_imp_left] using broken
    · rename_i isWhole
      obtain ⟨rfl, rfl⟩ : fraction = [] ∧ exponent = [] := by
        simpa [Numeral.isWhole] using isWhole
      simp only [Numeral.text, List.append_nil]
      split at found
      · rename_i value read
        cases found
        simp only [Numeral.word?, decimal_eq, Option.ite_none_right_eq_some, Option.some.injEq]
          at read
        obtain ⟨small, rfl⟩ := read
        exact .uint digits (UInt64.toNat_ofNat_of_lt' small).symm
      · cases found

theorem spelled_of_name {c : Char} {rest : List Char} (starts : startsName c = true) {kind : Kind}
    (found : (name (c :: rest)).reading = .ok kind) : kind.Spelled (name (c :: rest)).used := by
  cases found
  have continues := startsName_continues starts
  have split : (c :: rest).takeWhile continuesName = c :: rest.takeWhile continuesName := by
    simp [continues]
  simp only [name, split]
  unfold Kind.ofName
  generalize text : String.ofList (c :: rest.takeWhile continuesName) = letters
  have spelled : c :: rest.takeWhile continuesName = letters.toList := by
    rw [← text, String.toList_ofList]
  split
  · rename_i word keyword
    have same : word.spelling = letters := by simpa using List.find?_some keyword
    rw [spelled, ← same]
    exact .keyword word
  · rename_i ty _ typed
    have same : ty.name = letters := by simpa using List.find?_some typed
    rw [spelled, ← same]
    exact .type ty
  · rename_i noKeyword noType
    subst text
    refine .identifier starts (fun _ member => List.mem_takeWhile_imp member) (fun word same => ?_)
      fun ty same => ?_
    · rw [Keyword.ofSpelling?, List.find?_eq_none] at noKeyword
      exact noKeyword word (by cases word <;> decide) (by simp [same])
    · rw [Ty.ofName?, List.find?_eq_none] at noType
      exact noType ty (by cases ty <;> decide) (by simp [same])

theorem spelled_of_closingQuote {value : Char} {cs : List Char} {kind : Kind}
    (found : (closingQuote value cs).reading = .ok kind) :
    kind = .char value ∧ (closingQuote value cs).used = ['\''] := by
  unfold closingQuote at found ⊢
  split at found
  · cases found
    exact ⟨rfl, rfl⟩
  · cases found

theorem spelled_of_character {cs : List Char} {kind : Kind}
    (found : (character cs).reading = .ok kind) : kind.Spelled ('\'' :: (character cs).used) := by
  unfold character at found ⊢
  split at found
  · cases found
  · cases found
  · cases found
  · rename_i c rest
    split at found
    · rename_i value known
      obtain ⟨rfl, closed⟩ := spelled_of_closingQuote found
      simp only [cons, closed]
      exact .char (.escape (Literal.unescape_eq_some_iff.mp known))
    · cases found
  · rename_i c rest single quote plain
    obtain ⟨rfl, closed⟩ := spelled_of_closingQuote found
    simp only [cons, closed]
    refine .char (.raw quote fun slash => ?_)
    cases rest with
    | nil => exact single slash rfl
    | cons d rest => exact plain d rest slash rfl

/-- The characters of a string were written one by one. The induction is on the text. -/
theorem writes_of_stringBody {cs : List Char} (found : (stringBody cs).reading = .ok ()) :
    ∃ text values, (stringBody cs).used = text ++ ['"'] ∧ Literal.WritesAll '"' text values := by
  fun_induction stringBody cs with
  | case1 | case2 | case5 => cases found
  | case3 rest => exact ⟨[], [], rfl, .nil⟩
  | case4 c rest known ih =>
    obtain ⟨text, values, used, writes⟩ := ih found
    obtain ⟨value, known⟩ := Option.isSome_iff_exists.mp known
    exact ⟨['\\', c] ++ text, value :: values, by simp [cons, used],
      .cons (.escape (Literal.unescape_eq_some_iff.mp known)) writes⟩
  | case6 c rest single quote plain ih =>
    obtain ⟨text, values, used, writes⟩ := ih found
    have notSlash : c ≠ '\\' := by
      intro slash
      cases rest with
      | nil => exact single slash rfl
      | cons d rest => exact plain d rest slash rfl
    exact ⟨[c] ++ text, c :: values, by simp [cons, used], .cons (.raw quote notSlash) writes⟩

theorem spelled_of_string {cs : List Char} {kind : Kind} (found : (string cs).reading = .ok kind) :
    kind.Spelled ('"' :: (string cs).used) := by
  simp only [string] at found ⊢
  cases body : (stringBody cs).reading with
  | error cause => simp [body, Except.map] at found
  | ok value =>
    obtain ⟨text, values, used, writes⟩ := writes_of_stringBody body
    simp only [body, Except.map, Except.ok.injEq] at found
    subst found
    rw [used, ← List.cons_append, writes.stringValue]
    exact .string writes

theorem spelled_of_sign {c : Char} {rest : List Char} {kind : Kind}
    (found : (sign c rest).reading = .ok kind) : kind.Spelled (sign c rest).used := by
  unfold sign at found ⊢
  cases read : Mark.ofStart? (c :: rest) with
  | none => simp [read] at found
  | some mark =>
    simp only [read, Except.ok.injEq] at found ⊢
    subst found
    exact .mark mark

/-- Whatever is found, the end apart, has one of the texts of its kind. -/
theorem spelled_of_first {cs : List Char} {kind : Kind} (some : cs ≠ [])
    (found : (first cs).reading = .ok kind) : kind.Spelled (first cs).used := by
  cases cs with
  | nil => exact absurd rfl some
  | cons c rest =>
    simp only [first] at found ⊢
    split at found
    · rename_i digit
      rw [if_pos digit]
      exact spelled_of_number ⟨c, rfl, digit⟩ found
    · rename_i notDigit
      rw [if_neg notDigit]
      split at found
      · rename_i letter
        rw [if_pos letter]
        exact spelled_of_name letter found
      · rename_i notLetter
        rw [if_neg notLetter]
        split at found
        · rename_i quote
          subst quote
          exact spelled_of_character found
        · rename_i notQuote
          rw [if_neg notQuote]
          split at found
          · rename_i quote
            subst quote
            exact spelled_of_string found
          · rename_i notString
            rw [if_neg notString]
            exact spelled_of_sign found

/-- A text that is not empty is used in part, also by a fault. -/
theorem first_used_ne_nil {cs : List Char} (some : cs ≠ []) : (first cs).used ≠ [] := by
  cases cs with
  | nil => exact absurd rfl some
  | cons c rest =>
    simp only [first]
    split
    · rename_i digit
      simp only [number, Numeral.read]
      split <;> simp [Numeral.text, digit]
    · split
      · rename_i letter
        simp [name, startsName_continues letter]
      · split
        · simp [cons]
        · split
          · simp [cons]
          · unfold sign
            split
            · rename_i mark _
              cases mark <;> simp [Mark.chars]
            · simp

end Piece

end C0
