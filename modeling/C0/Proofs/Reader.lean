import C0.Proofs.ScanStream
import C0.Proofs.Tiling

namespace C0

theorem Cursor.after_succ (cursor : Cursor) (n : Nat) :
    cursor.after (n + 1) = cursor.next.2.after n := by
  induction n with
  | zero => rfl
  | succ n ih =>
    rw [after, ih]
    rfl

/-- What is taken one after the other is what one scan after the other finds. -/
theorem result_ofSource (source : String) (index : Nat) :
    (Cursor.ofSource source).result index = scanResult source index := by
  have free (scanner : Scanner) : Cursor.result ⟨scanner, none⟩ index = scanner.results index := by
    induction index generalizing scanner with
    | zero => rfl
    | succ index ih =>
      rw [Cursor.result, Cursor.after_succ]
      exact ih scanner.scan.2
  exact free _

/-- The reader stands before the scan result at an index, which it may hold back. -/
inductive Cursor.Before (source : String) (index : Nat) : Cursor → Prop
  | free : Before source index ((Cursor.ofSource source).after index)
  | held {kind} : (scanResult source index).reading = .ok kind →
      Before source index
        ⟨((Cursor.ofSource source).after (index + 1)).scanner, some (scanResult source index)⟩

namespace Cursor.Before

variable {source : String} {index : Nat} {cursor : Cursor}

theorem after_free (source : String) (index : Nat) : (Cursor.ofSource source).after index =
    ⟨((Cursor.ofSource source).after index).scanner, none⟩ := by
  rw [← (after_ofSource source index).1]

theorem next_after (source : String) (index : Nat) : ((Cursor.ofSource source).after index).next =
    (scanResult source index, (Cursor.ofSource source).after (index + 1)) := by
  rw [← result_ofSource]
  rfl

theorem scan_after (source : String) (index : Nat) :
    ((Cursor.ofSource source).after index).scanner.scan =
      (scanResult source index, ((Cursor.ofSource source).after (index + 1)).scanner) := by
  have taken := next_after source index
  rw [Cursor.next_of_free (after_ofSource source index).1] at taken
  have first := congrArg Prod.fst taken
  have second := congrArg (fun pair => pair.2.scanner) taken
  exact Prod.ext first second

theorem next (before : cursor.Before source index) :
    cursor.next = (scanResult source index, (Cursor.ofSource source).after (index + 1)) := by
  cases before with
  | free => exact next_after source index
  | held =>
    rw [after_free source (index + 1)]
    rfl

/-- A token that was looked at is held back. -/
theorem peek {kind : Kind} (before : cursor.Before source index)
    (found : (scanResult source index).reading = .ok kind) :
    ∃ held, cursor.peek = (scanResult source index, held) ∧ held.Before source index := by
  cases before with
  | free =>
    refine ⟨_, ?_, .held found⟩
    simp only [Cursor.peek, (after_ofSource source index).1, scan_after source index, found]
  | held => exact ⟨_, rfl, .held found⟩

theorem peek_error {cause : Cause} (before : cursor.Before source index)
    (failed : (scanResult source index).reading = .error cause) :
    cursor.peek.1 = scanResult source index := by
  cases before with
  | free =>
    simp only [Cursor.peek, (after_ofSource source index).1, scan_after source index, failed]
  | held found => rfl

end Cursor.Before

/-- The stretch of a source that a site stands for. -/
def locate (source : String) (site : Nat) : Span :=
  (scanResult source site).span

theorem locate_fits (source : String) (site : Nat) : (locate source site).Fits source := by
  rw [locate, ← result_ofSource]
  exact result_fits source site

/-- A token covers one of the texts of its kind. -/
theorem spelled_text {source : String} {site : Nat} {kind : Kind}
    (read : (scanResult source site).reading = .ok kind) (more : kind ≠ .eof) :
    kind.Spelled ((locate source site).text source).toList := by
  obtain ⟨before, gap, used, rest, split, tile, -⟩ := result_tile source site
  rw [result_ofSource] at tile
  rw [locate, Span.text, split, tile.slice, String.toList_ofList]
  exact tile.spelled kind read more

theorem text_of_identifier {source : String} {site : Nat} {name : String}
    (read : (scanResult source site).reading = .ok (.identifier name)) :
    (locate source site).text source = name := by
  have spelled := spelled_text read (by simp)
  generalize (locate source site).text source = text at spelled
  generalize letters : text.toList = cs at spelled
  cases spelled with
  | identifier => rw [← letters, String.ofList_toList]

theorem stringValue_of_string {source : String} {site : Nat} {value : String}
    (read : (scanResult source site).reading = .ok (.string value)) :
    String.ofList (Literal.stringValue ((locate source site).text source).toList) = value := by
  have spelled := spelled_text read (by simp)
  generalize ((locate source site).text source).toList = text at spelled
  cases spelled with
  | string writes => rw [writes.stringValue]

end C0
