import C0.Proofs.Scanning

namespace C0

namespace Scanner

/-- The lexemes that one scan after the other finds, also behind the end and behind faults. -/
def results (scanner : Scanner) : Nat → Lexeme
  | 0 => scanner.scan.1
  | index + 1 => scanner.scan.2.results index

theorem skipFrom_offset (inComment : Bool) (offset : Nat) (cs : List Char) :
    offset ≤ (skipFrom inComment offset cs).offset := by
  induction cs generalizing inComment offset with
  | nil => exact Nat.le_refl _
  | cons c rest ih =>
    have further := fun inComment => Nat.le_trans (Nat.le_add_right _ _)
      (ih inComment (offset + c.utf8Size))
    simp only [skipFrom]
    split
    · exact further _
    · split
      · exact further _
      · split
        · exact further _
        · exact Nat.le_refl _

theorem scan_start (scanner : Scanner) : scanner.offset ≤ scanner.scan.1.span.start :=
  skipFrom_offset _ _ _

theorem weight_pos {lexeme : Lexeme} (more : lexeme.isLast = false) :
    0 < weightOf lexeme.reading := by
  obtain ⟨span, reading⟩ := lexeme
  cases reading with
  | error cause => simp [Lexeme.isLast] at more
  | ok kind =>
    refine Kind.weight_pos ?_
    rintro rfl
    simp [Lexeme.isLast] at more

/-- A token but the end takes at least one byte. -/
theorem scan_stop {scanner : Scanner} (more : scanner.scan.1.isLast = false) :
    scanner.scan.1.span.start < scanner.scan.2.offset := by
  have weighed : weightOf scanner.scan.1.reading ≤
      byteLength (Piece.first scanner.skip.rest).used := by
    refine Nat.le_trans ?_ (length_le_byteLength _)
    simp only [scan, weightOf]
    cases found : (Piece.first scanner.skip.rest).reading with
    | ok kind => exact Piece.first_weight found
    | error cause => exact Nat.zero_le _
  have positive := weight_pos more
  simp only [scan] at positive weighed ⊢
  omega

theorem start_results (scanner : Scanner) (index : Nat)
    (more : ∀ i < index, (scanner.results i).isLast = false) :
    scanner.offset ≤ (scanner.results index).span.start := by
  induction index generalizing scanner with
  | zero => exact scanner.scan_start
  | succ index ih =>
    have here := scan_stop (more 0 (Nat.succ_pos _))
    have before := scanner.scan_start
    have later := ih scanner.scan.2 fun i less => more (i + 1) (by omega)
    exact Nat.le_trans (by omega) later

/-- Lexemes up to the last one start one after the other. -/
theorem results_lt {scanner : Scanner} {i j : Nat} (less : i < j)
    (more : ∀ k < j, (scanner.results k).isLast = false) :
    (scanner.results i).span.start < (scanner.results j).span.start := by
  induction i generalizing scanner j with
  | zero =>
    cases j with
    | zero => omega
    | succ j =>
      have here := scan_stop (more 0 (Nat.succ_pos _))
      have later := scanner.scan.2.start_results j fun k less => more (k + 1) (by omega)
      exact Nat.lt_of_lt_of_le here later
  | succ i ih =>
    cases j with
    | zero => omega
    | succ j => exact ih (by omega) fun k less => more (k + 1) (by omega)

/-- Enough scans find the lexemes up to and with the last one. -/
theorem lexemes_eq_map {n : Nat} (scanner : Scanner) (enough : scanner.rest.length < n) :
    ∃ last, scanner.lexemes n = (List.range (last + 1)).map scanner.results ∧
      (scanner.results last).isLast = true ∧
        ∀ i < last, (scanner.results i).isLast = false := by
  induction n generalizing scanner with
  | zero => omega
  | succ n ih =>
    cases ends : scanner.scan.1.isLast with
    | true => exact ⟨0, by simp [lexemes, results, ends], ends, by simp⟩
    | false =>
      have taken := scanner.scan_length
      have positive := weight_pos ends
      obtain ⟨last, listed, atEnd, before⟩ := ih scanner.scan.2 (by omega)
      refine ⟨last + 1, ?_, atEnd, fun i less => ?_⟩
      · rw [List.range_succ_eq_map, List.map_cons, List.map_map]
        simp only [lexemes, ends, Bool.false_eq_true, if_false, listed]
        rfl
      · cases i with
        | zero => exact ends
        | succ i => exact before i (by omega)

end Scanner

/-- The result of a scan of a source, by how many scans came before. -/
def scanResult (source : String) (index : Nat) : Lexeme :=
  (Scanner.ofSource source).results index

/-- How many tokens a source has before its end or its first fault. -/
def tokenCount (source : String) : Nat :=
  (lexemes source).length - 1

/-- The lexemes of a source are the first results of scans, up to the end or a fault. -/
theorem lexemes_eq_scanResult (source : String) :
    lexemes source = (List.range (tokenCount source + 1)).map (scanResult source) ∧
      (scanResult source (tokenCount source)).isLast = true ∧
        ∀ i < tokenCount source, (scanResult source i).isLast = false := by
  obtain ⟨last, listed, ends, before⟩ :=
    Scanner.lexemes_eq_map (.ofSource source) (Nat.lt_succ_self _)
  have count : tokenCount source = last := by
    rw [tokenCount, lexemes, listed]
    simp
  rw [count]
  exact ⟨listed, ends, before⟩

theorem length_lexemes (source : String) : (lexemes source).length = tokenCount source + 1 := by
  rw [(lexemes_eq_scanResult source).1, List.length_map, List.length_range]

end C0
