import C0.Proofs.Scanning
import Mathlib.Data.Nat.Digits.Defs

namespace C0

namespace Literal

/-- The escapes of literals: the character after the backslash, and what the two stand for. -/
def escapes : List (Char × Char) :=
  [('\'', '\''), ('"', '"'), ('\\', '\\'), ('n', '\n'), ('t', '\t'), ('r', '\r')]

/-- How one character of a literal in quotes is written: as it is, unless it is the quote or a
backslash, or as an escape. -/
inductive Writes (quote : Char) : List Char → Char → Prop
  | raw {c} : c ≠ quote → c ≠ '\\' → Writes quote [c] c
  | escape {c value} : (c, value) ∈ escapes → Writes quote ['\\', c] value

/-- How the characters of a literal in quotes are written, one after the other. -/
inductive WritesAll (quote : Char) : List Char → List Char → Prop
  | nil : WritesAll quote [] []
  | cons {text value rest values} : Writes quote text value → WritesAll quote rest values →
      WritesAll quote (text ++ rest) (value :: values)

end Literal

/-- At least one decimal digit, and nothing else. -/
structure Digits (text : List Char) : Prop where
  nonempty : text ≠ []
  all : ∀ c ∈ text, c.isDigit = true

/-- The number that digits stand for, of which the last one counts once. -/
def decimal (digits : List Char) : Nat :=
  Nat.ofDigits 10 (digits.reverse.map fun c => c.toNat - '0'.toNat)

/-- A fraction as it is written, if there is one, and its places. -/
inductive Fraction : List Char → List Char → Prop
  | absent : Fraction [] []
  | point {places} : Digits places → Fraction ('.' :: places) places

/-- An exponent as it is written, if there is one, and the power of ten that it stands for. -/
inductive Exponent : List Char → Int → Prop
  | absent : Exponent [] 0
  | unsigned {mark digits} : mark = 'e' ∨ mark = 'E' → Digits digits →
      Exponent (mark :: digits) (decimal digits)
  | plus {mark digits} : mark = 'e' ∨ mark = 'E' → Digits digits →
      Exponent (mark :: '+' :: digits) (decimal digits)
  | minus {mark digits} : mark = 'e' ∨ mark = 'E' → Digits digits →
      Exponent (mark :: '-' :: digits) (-(decimal digits : Int))

/-- The texts that a token of a kind can have. -/
inductive Kind.Spelled : Kind → List Char → Prop
  | identifier {c rest} : startsName c = true → (∀ d ∈ rest, continuesName d = true) →
      (∀ word : Keyword, word.spelling ≠ String.ofList (c :: rest)) →
      (∀ ty : Ty, ty.name ≠ String.ofList (c :: rest)) →
      Spelled (.identifier (String.ofList (c :: rest))) (c :: rest)
  | uint {digits value} : Digits digits → decimal digits = value.toNat →
      Spelled (.uint value) digits
  | double {whole fraction places exponent power} : Digits whole → Fraction fraction places →
      Exponent exponent power → fraction ≠ [] ∨ exponent ≠ [] →
      Spelled (.double (Binary64.ofDecimal (decimal (whole ++ places)) (power - places.length)))
        (whole ++ fraction ++ exponent)
  | char {text value} : Literal.Writes '\'' text value →
      Spelled (.char value) ('\'' :: text ++ ['\''])
  | string {text value} : Literal.WritesAll '"' text value →
      Spelled (.string (String.ofList value)) ('"' :: text ++ ['"'])
  | type (ty) : Spelled (.type ty) ty.name.toList
  | keyword (word) : Spelled (.keyword word) word.spelling.toList
  | mark (sign) : Spelled (.mark sign) sign.chars

/-- The text is empty or begins with a blank, so that it goes on with no token before it. -/
def Apart (text : List Char) : Prop :=
  ∀ c ∈ text.head?, Text.isBlank c = true

namespace Text

theorem Ranges.exists_of_holds {ranges : Ranges} {n : Nat} (holds : ranges.holds n = true) :
    ∃ range ∈ ranges, range.1 ≤ n ∧ n ≤ range.2 := by
  induction ranges with
  | nil => simp [Ranges.holds] at holds
  | cons range ranges ih =>
    simp only [Ranges.holds] at holds
    split at holds
    · simp at holds
    · rename_i above
      rw [Bool.or_eq_true, decide_eq_true_eq] at holds
      rcases holds with below | later
      · exact ⟨range, by simp, by omega, below⟩
      · obtain ⟨other, member, bounds⟩ := ih later
        exact ⟨other, by simp [member], bounds⟩

/-- A blank is part of no name. -/
theorem continuesName_of_isBlank {c : Char} (isBlank : isBlank c = true) :
    continuesName c = false := by
  have apart : ∀ range ∈ blank, ∀ n ∈ List.range' range.1 (range.2 - range.1 + 1),
      alphabetic.holds n = false ∧ numeric.holds n = false ∧ n ≠ '_'.toNat := by
    decide +kernel
  obtain ⟨range, member, low, high⟩ := Ranges.exists_of_holds isBlank
  obtain ⟨letter, digit, other⟩ := apart range member c.toNat (by
    rw [List.mem_range'_1]
    omega)
  have underscore : c ≠ '_' := fun same => other (by rw [same])
  simp [continuesName, isAlphabetic, isNumeric, letter, digit, underscore]

/-- A decimal digit can go on with a name and begins none. -/
theorem isDigit_class {c : Char} (isDigit : c.isDigit = true) :
    continuesName c = true ∧ startsName c = false := by
  have classes : ∀ n ∈ List.range' 48 10,
      numeric.holds n = true ∧ alphabetic.holds n = false ∧ n ≠ '_'.toNat := by
    decide +kernel
  obtain ⟨digit, letter, other⟩ := classes c.toNat (by
    simp only [Char.isDigit, Bool.and_eq_true, decide_eq_true_eq, ge_iff_le, UInt32.le_iff_toNat_le]
      at isDigit
    rw [List.mem_range'_1]
    simp only [Char.toNat]
    exact ⟨isDigit.1, Nat.lt_succ_of_le isDigit.2⟩)
  have underscore : c ≠ '_' := fun same => other (by rw [same])
  simp [continuesName, startsName, isAlphabetic, isNumeric, letter, digit, underscore]

theorem isDigit_of_isBlank {c : Char} (isBlank : isBlank c = true) : c.isDigit = false := by
  by_contra digit
  have named := (isDigit_class (Bool.eq_true_of_not_eq_false digit)).1
  simp [continuesName_of_isBlank isBlank] at named

end Text

/-- A text does not go on with characters of a class. -/
def Stops (p : Char → Bool) (text : List Char) : Prop :=
  ∀ c ∈ text.head?, p c = false

/-- What must be apart ends every run of characters that no blank carries on. -/
theorem Apart.stops {p : Char → Bool} {rest : List Char} (apart : Apart rest)
    (blanks : ∀ c, Text.isBlank c = true → p c = false) : Stops p rest :=
  fun c first => blanks c (apart c first)

/-- A blank comes first, or nothing does. -/
theorem Apart.head_ne {rest : List Char} (apart : Apart rest) {c : Char}
    (solid : Text.isBlank c = false) : rest.head? ≠ some c := by
  intro first
  simp [apart c first] at solid

/-- A run is taken up to what stops it. -/
theorem takeWhile_of_stops {p : Char → Bool} {run rest : List Char} (all : ∀ c ∈ run, p c = true)
    (stops : Stops p rest) : (run ++ rest).takeWhile p = run := by
  rw [List.takeWhile_append_of_pos all]
  cases rest with
  | nil => simp
  | cons c rest => simp [stops c rfl]

theorem dropWhile_of_stops {p : Char → Bool} {run rest : List Char} (all : ∀ c ∈ run, p c = true)
    (stops : Stops p rest) : (run ++ rest).dropWhile p = rest := by
  rw [List.dropWhile_append_of_pos all]
  cases rest with
  | nil => rfl
  | cons c rest => simp [stops c rfl]

/-- Digits are read as the number that they write. -/
theorem decimal_eq (digits : List Char) : ofDigits digits = decimal digits := by
  have horner (start : Nat) (digits : List Char) :
      digits.foldl (fun n c => 10 * n + (c.toNat - '0'.toNat)) start =
        10 ^ digits.length * start + decimal digits := by
    induction digits generalizing start with
    | nil => simp [decimal]
    | cons c digits ih =>
      have split : decimal (c :: digits) =
          decimal digits + 10 ^ digits.length * (c.toNat - '0'.toNat) := by
        simp [decimal, Nat.ofDigits_append]
      rw [List.foldl_cons, ih, split, List.length_cons, Nat.pow_succ]
      ring
  rw [ofDigits, horner]
  simp

namespace Numeral

/-- Digits begin with no sign. -/
theorem splitSign_digits {digits : List Char} (proper : Digits digits) (rest : List Char) :
    splitSign (digits ++ rest) = ([], digits ++ rest) := by
  obtain ⟨some, all⟩ := proper
  cases digits with
  | nil => exact absurd rfl some
  | cons c digits =>
    have digit := all c (by simp)
    unfold splitSign
    split
    · rename_i same
      obtain ⟨rfl, _⟩ := List.cons.inj same
      cases digit
    · rename_i same
      obtain ⟨rfl, _⟩ := List.cons.inj same
      cases digit
    · rfl

theorem readFraction_of_fraction {fraction places rest : List Char}
    (proper : Fraction fraction places) (stops : Stops Char.isDigit rest)
    (noPoint : rest.head? ≠ some '.') : readFraction (fraction ++ rest) = (fraction, rest) := by
  cases proper with
  | absent =>
    unfold readFraction
    split
    · rename_i same
      exact absurd (by rw [← List.nil_append rest, same]; rfl) noPoint
    · rfl
  | point digits =>
    simp only [List.cons_append, readFraction, takeWhile_of_stops digits.all stops,
      dropWhile_of_stops digits.all stops]

theorem readExponent_of_exponent {exponent rest : List Char} {power : Int}
    (proper : Exponent exponent power) (stops : Stops Char.isDigit rest)
    (noMark : rest.head? ≠ some 'e' ∧ rest.head? ≠ some 'E') :
    readExponent (exponent ++ rest) = (exponent, rest) := by
  cases proper with
  | absent =>
    cases rest with
    | nil => rfl
    | cons c rest =>
      simp only [List.head?_cons, ne_eq, Option.some.injEq] at noMark
      simp [readExponent, noMark]
  | unsigned mark digits =>
    simp only [List.cons_append, readExponent, if_pos mark, splitSign_digits digits rest,
      takeWhile_of_stops digits.all stops, dropWhile_of_stops digits.all stops]
    rfl
  | plus mark digits =>
    simp only [List.cons_append, readExponent, if_pos mark, splitSign,
      takeWhile_of_stops digits.all stops, dropWhile_of_stops digits.all stops]
    rfl
  | minus mark digits =>
    simp only [List.cons_append, readExponent, if_pos mark, splitSign,
      takeWhile_of_stops digits.all stops, dropWhile_of_stops digits.all stops]
    rfl

section

variable {whole fraction places exponent rest : List Char} {power : Int}

/-- A numeral is read up to its end if nothing goes on with it. -/
theorem read_of_parts (digits : Digits whole) (proper : Fraction fraction places)
    (raised : Exponent exponent power) (apart : Apart rest) :
    read (whole ++ fraction ++ exponent ++ rest) = (⟨whole, fraction, exponent⟩, rest) := by
  have blank : Stops Char.isDigit rest := apart.stops fun _ => Text.isDigit_of_isBlank
  have afterFraction : Stops Char.isDigit (exponent ++ rest) ∧
      (exponent ++ rest).head? ≠ some '.' := by
    cases raised with
    | absent => exact ⟨blank, apart.head_ne (by decide)⟩
    | unsigned mark | plus mark | minus mark =>
      rcases mark with rfl | rfl <;> exact ⟨by rintro _ ⟨⟩; rfl, by simp⟩
  have afterWhole : Stops Char.isDigit (fraction ++ (exponent ++ rest)) := by
    cases proper with
    | absent => exact afterFraction.1
    | point _ =>
      rintro _ ⟨⟩
      rfl
  have pointed : fraction ≠ ['.'] := by
    rintro rfl
    cases proper with
    | point digits => exact digits.nonempty rfl
  simp only [read, List.append_assoc, takeWhile_of_stops digits.all afterWhole,
    dropWhile_of_stops digits.all afterWhole,
    readFraction_of_fraction proper afterFraction.1 afterFraction.2, if_neg pointed,
    readExponent_of_exponent raised blank ⟨apart.head_ne (by decide), apart.head_ne (by decide)⟩]

theorem isComplete_of_parts (proper : Fraction fraction places) (raised : Exponent exponent power) :
    isComplete ⟨whole, fraction, exponent⟩ = true := by
  have pointed : fraction ≠ ['.'] := by
    rintro rfl
    cases proper with
    | point digits => exact digits.nonempty rfl
  cases raised with
  | absent => simp [isComplete, pointed]
  | @unsigned _ digits _ proper =>
    have signless := splitSign_digits proper []
    rw [List.append_nil] at signless
    simp [isComplete, exponentParts, signless, pointed, proper.nonempty]
  | plus _ proper | minus _ proper =>
    simp [isComplete, exponentParts, splitSign, pointed, proper.nonempty]

theorem power_of_exponent (raised : Exponent exponent power) :
    Numeral.power ⟨whole, fraction, exponent⟩ = power := by
  cases raised with
  | absent => rfl
  | @unsigned _ digits _ proper =>
    have signless := splitSign_digits proper []
    rw [List.append_nil] at signless
    simp [Numeral.power, exponentParts, signless, decimal_eq]
  | plus _ proper | minus _ proper =>
    simp [Numeral.power, exponentParts, splitSign, decimal_eq]

theorem tail_of_fraction (proper : Fraction fraction places) : fraction.tail = places := by
  cases proper <;> rfl

end

end Numeral

namespace Piece

theorem number_of_digits {digits rest : List Char} {value : UInt64} (proper : Digits digits)
    (same : decimal digits = value.toNat) (apart : Apart rest) :
    number (digits ++ rest) = ⟨.ok (.uint value), digits, rest⟩ := by
  have read := Numeral.read_of_parts proper .absent .absent apart
  simp only [List.append_nil] at read
  have complete : Numeral.isComplete ⟨digits, [], []⟩ = true :=
    Numeral.isComplete_of_parts .absent .absent
  have word : Numeral.word? ⟨digits, [], []⟩ = some value := by
    simp [Numeral.word?, decimal_eq, same, UInt64.toNat_lt_size]
  simp [number, read, complete, word, Numeral.isWhole, Numeral.text]

theorem number_of_parts {whole fraction places exponent rest : List Char} {power : Int}
    (digits : Digits whole) (proper : Fraction fraction places) (raised : Exponent exponent power)
    (more : fraction ≠ [] ∨ exponent ≠ []) (apart : Apart rest) :
    number (whole ++ fraction ++ exponent ++ rest) =
      ⟨.ok (.double (Binary64.ofDecimal (decimal (whole ++ places)) (power - places.length))),
        whole ++ fraction ++ exponent, rest⟩ := by
  have broken : Numeral.isWhole ⟨whole, fraction, exponent⟩ = false := by
    rcases more with more | more <;> simp [Numeral.isWhole, more]
  simp only [number, Numeral.read_of_parts digits proper raised apart,
    Numeral.isComplete_of_parts proper raised, broken, Bool.not_true, Bool.not_false,
    Bool.false_eq_true, if_true, if_false, Numeral.double, Numeral.tail_of_fraction proper,
    Numeral.power_of_exponent raised, decimal_eq, Numeral.text]

end Piece

namespace Literal

theorem unescape_eq_some_iff {c value : Char} :
    unescape c = some value ↔ (c, value) ∈ escapes := by
  unfold unescape
  split <;> simp_all [escapes, eq_comm]

variable {quote : Char} {text values : List Char}

theorem resolveEscapes_raw {c : Char} (plain : c ≠ '\\') (rest : List Char) :
    resolveEscapes (c :: rest) = c :: resolveEscapes rest := by
  rw [resolveEscapes]
  · rintro rfl
    exact absurd rfl plain
  · rintro _ _ rfl
    exact absurd rfl plain

theorem WritesAll.resolveEscapes (writes : WritesAll quote text values) :
    resolveEscapes text = values := by
  induction writes with
  | nil => rfl
  | cons first _ ih =>
    cases first with
    | raw _ plain => rw [List.singleton_append, resolveEscapes_raw plain, ih]
    | escape known =>
      simp [Literal.resolveEscapes, unescape_eq_some_iff.mpr known, ih]

/-- A string literal stands for the characters that are written between its quotes. -/
theorem WritesAll.stringValue (writes : WritesAll quote text values) :
    stringValue ('"' :: text ++ ['"']) = values := by
  simp only [Literal.stringValue, List.cons_append, unquoted, List.getLast?_concat, if_true,
    List.dropLast_concat]
  exact writes.resolveEscapes

end Literal

namespace Piece

theorem character_of_writes {text : List Char} {value : Char}
    (writes : Literal.Writes '\'' text value) (rest : List Char) :
    character (text ++ '\'' :: rest) = ⟨.ok (.char value), text ++ ['\''], rest⟩ := by
  cases writes with
  | raw quote plain =>
    rw [List.singleton_append, character]
    · rfl
    · simp
    · exact quote
    · rintro _ _ rfl
      exact absurd rfl plain
  | escape known =>
    simp [character, Literal.unescape_eq_some_iff.mpr known, closingQuote, cons]

theorem stringBody_of_writes {text values : List Char}
    (writes : Literal.WritesAll '"' text values) (rest : List Char) :
    stringBody (text ++ '"' :: rest) = ⟨.ok (), text ++ ['"'], rest⟩ := by
  induction writes with
  | nil => rfl
  | cons first _ ih =>
    cases first with
    | raw quote plain =>
      rw [List.append_assoc, List.singleton_append, stringBody]
      · rw [ih]
        rfl
      · simp
      · exact quote
      · rintro _ _ rfl
        exact absurd rfl plain
    | escape known =>
      simp [stringBody, Literal.unescape_eq_some_iff.mpr known, ih, cons]

theorem string_of_writes {text values : List Char}
    (writes : Literal.WritesAll '"' text values) (rest : List Char) :
    string (text ++ '"' :: rest) =
      ⟨.ok (.string (String.ofList values)), text ++ ['"'], rest⟩ := by
  have value : Literal.stringValue ('"' :: (text ++ ['"'])) = values := writes.stringValue
  simp only [string, stringBody_of_writes writes rest, value]
  rfl

theorem name_of_all {text rest : List Char} (all : ∀ c ∈ text, continuesName c = true)
    (apart : Apart rest) :
    name (text ++ rest) = ⟨.ok (Kind.ofName (String.ofList text)), text, rest⟩ := by
  have stops : Stops continuesName rest := apart.stops fun _ => Text.continuesName_of_isBlank
  simp only [name, takeWhile_of_stops all stops, dropWhile_of_stops all stops]

/-- A sign is found whole if neither `=` nor `>` goes on with it. -/
theorem sign_of_apart (mark : Mark) {c : Char} {more rest : List Char}
    (split : mark.chars = c :: more) (apart : Apart rest) :
    sign c (more ++ rest) = ⟨.ok (.mark mark), mark.chars, rest⟩ := by
  have whole : c :: (more ++ rest) = mark.chars ++ rest := by rw [split, List.cons_append]
  have found : Mark.ofStart? (mark.chars ++ rest) = some mark := by
    cases rest with
    | nil => cases mark <;> rfl
    | cons d rest =>
      have blank := apart d rfl
      have notEqual : ['='].isPrefixOf (d :: rest) = false := by
        simp only [List.isPrefixOf, Bool.and_true, beq_eq_false_iff_ne]
        rintro rfl
        cases blank
      have notGreater : ['>'].isPrefixOf (d :: rest) = false := by
        simp only [List.isPrefixOf, Bool.and_true, beq_eq_false_iff_ne]
        rintro rfl
        cases blank
      cases mark <;> simp [Mark.ofStart?, Mark.all, Mark.chars, notEqual, notGreater]
  simp only [sign, whole, found, List.drop_left]

end Piece

theorem Kind.ofName_of_other {name : String} (noKeyword : ∀ word : Keyword, word.spelling ≠ name)
    (noType : ∀ ty : Ty, ty.name ≠ name) : Kind.ofName name = .identifier name := by
  have first : Keyword.ofSpelling? name = none := by
    simp [Keyword.ofSpelling?, noKeyword]
  have second : Ty.ofName? name = none := by
    simp [Ty.ofName?, noType]
  simp only [Kind.ofName, first, second]

theorem startsName_continues {c : Char} (starts : startsName c = true) :
    continuesName c = true := by
  simp only [startsName, continuesName, Bool.or_eq_true] at starts ⊢
  rcases starts with letter | underscore
  · exact .inl (.inl letter)
  · exact .inr underscore

namespace Piece

/-- What begins with a letter is a name. -/
theorem first_of_name {c : Char} {text rest : List Char} (starts : startsName c = true)
    (all : ∀ d ∈ text, continuesName d = true) (apart : Apart rest) :
    first (c :: text ++ rest) =
      ⟨.ok (Kind.ofName (String.ofList (c :: text))), c :: text, rest⟩ := by
  have notDigit : c.isDigit = false := by
    by_contra digit
    simp [(Text.isDigit_class (Bool.eq_true_of_not_eq_false digit)).2] at starts
  have named := name_of_all (List.forall_mem_cons.mpr ⟨startsName_continues starts, all⟩) apart
  rw [List.cons_append] at named
  simp only [List.cons_append, first, notDigit, starts, Bool.false_eq_true, if_false, if_true,
    named]

/-- What begins with a digit is a number. -/
theorem first_of_number {cs : List Char} {c : Char} (begins : cs.head? = some c)
    (digit : c.isDigit = true) : first cs = number cs := by
  cases cs with
  | nil => cases begins
  | cons d rest =>
    cases begins
    simp only [first, digit, if_true]

/-- A quote begins a literal of its kind. -/
theorem first_of_quote {c : Char} {rest : List Char} (quote : c = '\'' ∨ c = '"') :
    first (c :: rest) = if c = '\'' then (character rest).cons c else (string rest).cons c := by
  have other : c.isDigit = false ∧ startsName c = false := by
    rcases quote with rfl | rfl <;> decide
  simp only [first, other, Bool.false_eq_true, if_false]
  rcases quote with rfl | rfl <;> rfl

/-- A sign is taken as a whole, also where a shorter one begins it. -/
theorem first_of_mark (mark : Mark) {rest : List Char} (apart : Apart rest) :
    first (mark.chars ++ rest) = ⟨.ok (.mark mark), mark.chars, rest⟩ := by
  have begins : ∃ c more, mark.chars = c :: more ∧ c.isDigit = false ∧ startsName c = false ∧
      c ≠ '\'' ∧ c ≠ '"' := by
    cases mark <;> exact ⟨_, _, rfl, by decide⟩
  obtain ⟨c, more, split, notDigit, notName, notQuote, notString⟩ := begins
  rw [← sign_of_apart mark split apart, split]
  simp only [List.cons_append, first, notDigit, notName, notQuote, notString, Bool.false_eq_true,
    if_false]

/-- A token is found where its text stands, whatever comes after a blank. -/
theorem first_of_spelled {kind : Kind} {text rest : List Char} (spelled : kind.Spelled text)
    (apart : Apart rest) : first (text ++ rest) = ⟨.ok kind, text, rest⟩ := by
  cases spelled with
  | identifier starts all noKeyword noType =>
    rw [first_of_name starts all apart, Kind.ofName_of_other noKeyword noType]
  | uint proper same =>
    obtain ⟨c, more, rfl⟩ := List.exists_cons_of_ne_nil proper.nonempty
    rw [first_of_number rfl (proper.all c (by simp)), number_of_digits proper same apart]
  | @double whole fraction places exponent power digits proper raised more =>
    obtain ⟨c, others, rfl⟩ := List.exists_cons_of_ne_nil digits.nonempty
    rw [first_of_number (by simp) (digits.all c (by simp)),
      number_of_parts digits proper raised more apart]
  | char writes =>
    have read := character_of_writes writes rest
    rw [List.append_assoc, List.cons_append, first_of_quote (.inl rfl), if_pos rfl,
      List.singleton_append, read]
    rfl
  | string writes =>
    have read := string_of_writes writes rest
    rw [List.append_assoc, List.cons_append, first_of_quote (.inr rfl), if_neg (by decide),
      List.singleton_append, read]
    rfl
  | type ty =>
    have named : ∃ c more, ty.name.toList = c :: more ∧ startsName c = true ∧
        more.all continuesName = true ∧
        Kind.ofName (String.ofList (c :: more)) = .type ty := by
      cases ty <;> exact ⟨_, _, rfl, by decide⟩
    obtain ⟨c, more, split, starts, all, same⟩ := named
    rw [split, first_of_name starts (List.all_eq_true.mp all) apart, same]
  | keyword word =>
    have named : ∃ c more, word.spelling.toList = c :: more ∧ startsName c = true ∧
        more.all continuesName = true ∧
        Kind.ofName (String.ofList (c :: more)) = .keyword word := by
      cases word <;> exact ⟨_, _, rfl, by decide⟩
    obtain ⟨c, more, split, starts, all, same⟩ := named
    rw [split, first_of_name starts (List.all_eq_true.mp all) apart, same]
  | mark sign => exact first_of_mark sign apart

end Piece

theorem Kind.Spelled.ne_eof {kind : Kind} {text : List Char} (spelled : kind.Spelled text) :
    kind ≠ .eof := by
  rintro rfl
  cases spelled

theorem Kind.Spelled.ne_nil {kind : Kind} {text : List Char} (spelled : kind.Spelled text) :
    text ≠ [] := by
  rintro rfl
  have atEnd : Piece.first [] = ⟨.ok kind, [], []⟩ :=
    Piece.first_of_spelled spelled (by simp [Apart])
  exact spelled.ne_eof (Except.ok.inj (congrArg Piece.reading atEnd)).symm

/-- Every number of 64 bits is spelled by its decimal digits. -/
theorem Kind.spelled_toDigits (value : UInt64) :
    (Kind.uint value).Spelled (Nat.toDigits 10 value.toNat) := by
  refine .uint ⟨Nat.toDigits_ne_nil, fun c member => ?_⟩ ?_
  · exact Nat.isDigit_of_mem_toDigits (by decide) (by decide) member
  · rw [← decimal_eq]
    exact Nat.ofDigitChars_toDigits (by decide) (by decide)

end C0
