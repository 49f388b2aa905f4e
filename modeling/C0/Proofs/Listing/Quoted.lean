import C0.Text.Quoted
import Mathlib.Data.Nat.Digits.Defs

namespace C0.Text

/-- What a hexadecimal digit stands for. -/
def hexDigitValue (c : Char) : Nat :=
  if c.isDigit then c.toNat - '0'.toNat else c.toNat - 'a'.toNat + 10

/-- The number that hexadecimal digits stand for. -/
def hexValue (digits : List Char) : Nat :=
  digits.foldl (fun n c => 16 * n + hexDigitValue c) 0

theorem hexDigitValue_digitChar {n : Nat} (small : n < 16) : hexDigitValue n.digitChar = n := by
  have values : ∀ k < 16, hexDigitValue (Nat.digitChar k) = k := by decide
  exact values n small

theorem hexValue_hexDigits (n : Nat) : hexValue (hexDigits n) = n := by
  induction n using Nat.strong_induction_on with
  | _ n ih =>
    rw [hexDigits, Nat.toDigits_eq_if (by decide)]
    split
    · rename_i small
      simp [hexValue, hexDigitValue_digitChar small]
    · have before : hexValue (Nat.toDigits 16 (n / 16)) = n / 16 := ih (n / 16) (by omega)
      have last := hexDigitValue_digitChar (Nat.mod_lt n (by decide : 0 < 16))
      rw [hexValue, List.foldl_append]
      change 16 * hexValue (Nat.toDigits 16 (n / 16)) + _ = n
      rw [before, last]
      omega

theorem digitChar_plain {n : Nat} (small : n < 16) :
    n.digitChar ≠ '\x7d' ∧ n.digitChar ≠ '\n' := by
  have plain : ∀ k < 16, Nat.digitChar k ≠ '\x7d' ∧ Nat.digitChar k ≠ '\n' := by decide
  exact plain n small

theorem hexDigits_plain (n : Nat) : ∀ c ∈ hexDigits n, c ≠ '\x7d' ∧ c ≠ '\n' := by
  induction n using Nat.strong_induction_on with
  | _ n ih =>
    intro c member
    rw [hexDigits, Nat.toDigits_eq_if (by decide)] at member
    split at member
    · rename_i small
      rw [List.mem_singleton.mp member]
      exact digitChar_plain small
    · rw [List.mem_append, List.mem_singleton] at member
      rcases member with early | rfl
      · exact ih (n / 16) (by omega) c early
      · exact digitChar_plain (Nat.mod_lt n (by decide))

/-- Reads one character of a text between double quotes, and tells what comes after it. -/
def unquoteChar : List Char → Option (Char × List Char)
  | '\\' :: '0' :: rest => some ('\x00', rest)
  | '\\' :: 't' :: rest => some ('\t', rest)
  | '\\' :: 'r' :: rest => some ('\r', rest)
  | '\\' :: 'n' :: rest => some ('\n', rest)
  | '\\' :: '"' :: rest => some ('"', rest)
  | '\\' :: '\\' :: rest => some ('\\', rest)
  | '\\' :: 'u' :: '\x7b' :: rest =>
    some (Char.ofNat (hexValue (rest.takeWhile (· != '\x7d'))),
      (rest.dropWhile (· != '\x7d')).tail)
  | c :: rest => some (c, rest)
  | [] => none

/-- A character can be read back from how it is quoted, whatever comes after it. -/
theorem unquoteChar_quotedChar (c : Char) (rest : List Char) :
    unquoteChar (quotedChar c ++ rest) = some (c, rest) := by
  unfold quotedChar
  split
  · rfl
  · rfl
  · rfl
  · rfl
  · rfl
  · rfl
  · rename_i plain
    split
    · have digits : ∀ d ∈ hexDigits c.toNat, (d != '\x7d') = true := fun d member => by
        simpa using (hexDigits_plain _ d member).1
      simp only [List.cons_append, List.nil_append, List.append_assoc, unquoteChar,
        List.takeWhile_append_of_pos digits, List.dropWhile_append_of_pos digits]
      simp [hexValue_hexDigits]
    · unfold unquoteChar
      split <;> simp_all

theorem quotedChar_ne_nil (c : Char) : quotedChar c ≠ [] := by
  intro nothing
  have back := unquoteChar_quotedChar c []
  simp [nothing, unquoteChar] at back

theorem quotedChar_plain (c : Char) : '\n' ∉ quotedChar c := by
  unfold quotedChar
  split
  case h_7 _ _ _ notEnd _ _ =>
    split
    · intro member
      simp only [List.mem_append, List.mem_cons, List.not_mem_nil, or_false] at member
      rcases member with (member | member) | member
      · simp at member
      · exact (hexDigits_plain _ _ member).2 rfl
      · simp at member
    · simpa using fun same => notEnd same.symm
  all_goals decide

theorem quotedChars_injective : Function.Injective (List.flatMap quotedChar) := by
  intro text
  induction text with
  | nil =>
    intro other same
    cases other with
    | nil => rfl
    | cons d other => simp [quotedChar_ne_nil] at same
  | cons c text ih =>
    intro other same
    cases other with
    | nil => simp [quotedChar_ne_nil] at same
    | cons d other =>
      rw [List.flatMap_cons, List.flatMap_cons] at same
      have read := congrArg unquoteChar same
      rw [unquoteChar_quotedChar, unquoteChar_quotedChar, Option.some.injEq, Prod.mk.injEq] at read
      rw [read.1, ih read.2]

/-- Different texts are quoted differently. -/
theorem quoted_injective : Function.Injective quoted := by
  intro text other same
  have inside := String.ofList_injective same
  rw [List.cons_append, List.cons_append, List.cons.injEq, List.append_cancel_right_eq] at inside
  exact String.toList_inj.mp (quotedChars_injective inside.2)

/-- A quoted text has no line end. -/
theorem quoted_plain (text : String) : '\n' ∉ (quoted text).toList := by
  simp only [quoted, String.toList_ofList, List.mem_append, List.mem_cons, List.mem_flatMap,
    List.not_mem_nil, or_false]
  rintro ((lineEnd | ⟨c, _, member⟩) | lineEnd)
  · cases lineEnd
  · exact quotedChar_plain c member
  · cases lineEnd

end C0.Text
