import C0.Proofs.Likeness.Program
import C0.Proofs.Reading.Program
import C0.Proofs.ScanStream

namespace C0

open Analysis

/-- The last of the readings is the end of a source or a fault. -/
def Complete (readings : List Reading) : Prop :=
  ∃ before last, readings = before ++ [last] ∧ ∀ kind, last = .ok kind → kind = .eof

theorem Complete.tail {readings : List Reading} {kind : Kind} (complete : Complete readings)
    (head : readings.head?.getD (.ok .eof) = .ok kind) (more : kind ≠ .eof) :
    Complete readings.tail := by
  obtain ⟨before, last, rfl, ends⟩ := complete
  cases before with
  | nil => exact absurd (ends kind head) more
  | cons reading before => exact ⟨before, last, rfl, ends⟩

theorem Complete.ne_nil {readings : List Reading} (complete : Complete readings) :
    readings ≠ [] := by
  obtain ⟨before, last, rfl, _⟩ := complete
  simp

theorem complete_lexemes (source : String) : Complete ((lexemes source).map Lexeme.reading) := by
  obtain ⟨listed, ends, _⟩ := lexemes_eq_scanResult source
  refine ⟨((List.range (tokenCount source)).map (scanResult source)).map Lexeme.reading,
    (scanResult source (tokenCount source)).reading, ?_, fun kind found => ?_⟩
  · rw [listed, List.range_succ, List.map_append, List.map_append]
    rfl
  · rw [Lexeme.isLast, found] at ends
    cases kind <;> simp at ends ⊢

theorem shallow_lexemes (source : String) (cause : Cause)
    (member : .error cause ∈ (lexemes source).map Lexeme.reading) : cause ≠ .nestingTooDeep := by
  rcases Scanner.lexemes_error member with rfl | rfl <;> simp

theorem spanAt_lexemes {source : String} {site : Nat} (inside : site ≤ tokenCount source) :
    spanAt (lexemes source) site = (scanResult source site).span := by
  have found : (lexemes source)[site]? = some (scanResult source site) := by
    rw [(lexemes_eq_scanResult source).1, List.getElem?_map, List.getElem?_range (by omega)]
    rfl
  rw [spanAt, found]

theorem analyze_eq (source : String) (options : Options) :
    analyze source options =
      match program options.maxNestingDepth (.ofSource source) with
      | .ok checked _ => .ok checked
      | .error fault _ => .error (fault.mapSite (spanAt (lexemes source))) := by
  unfold analyze analyzeLogged
  change (match program options.maxNestingDepth (.ofSource source) with
    | .ok checked s => (.ok checked, s.log)
    | .error fault s => (.error (fault.mapSite (spanAt (lexemes source))), s.log) :
      Except Diagnostic CheckedProgram × List Event).1 = _
  cases program options.maxNestingDepth (.ofSource source) <;> rfl

theorem compile_eq_of_error {source : String} {options : Options} {fault : Fault Nat} {t : State}
    (failed : program options.maxNestingDepth (.ofSource source) = .error fault t)
    (inside : fault.site ≤ tokenCount source) :
    compile source options = .error ⟨fault.cause, (scanResult source fault.site).span⟩ := by
  rw [compile, analyze_eq, failed, ← spanAt_lexemes inside]
  rfl

namespace Likeness

/-- Two runs over the same complete readings, from one position to another one. Whatever follows
the readings on the second side is not read. The first run may end early at its limit. -/
def window (low high : Nat) (limited : Prop) : Likeness where
  Ahead position rest rest' := low ≤ position ∧ position + rest.length = high ∧ Complete rest ∧
    (∀ cause, .error cause ∈ rest → cause ≠ .nestingTooDeep) ∧ ∃ more, rest' = rest ++ more
  Site site := low ≤ site ∧ site < high
  Early fault := limited ∧ fault.cause = .nestingTooDeep
  deep := True
  plain := by
    rintro cause site plain ⟨_, deepest⟩
    have same : cause = .nestingTooDeep := deepest
    simp [same, Cause.isPlain] at plain
  look := by
    rintro position rest _ ⟨after, total, complete, shallow, more, rfl⟩
    cases rest with
    | nil => exact absurd rfl complete.ne_nil
    | cons reading rest =>
      rw [List.length_cons] at total
      have inside : position < high := total ▸ Nat.lt_add_of_pos_right (Nat.succ_pos _)
      refine .inr ⟨⟨after, inside⟩, rfl, fun cause failed => ?_⟩
      have proper := shallow cause (List.mem_cons.mpr (.inl failed.symm))
      exact ⟨fun early => proper early.2, fun _ => proper⟩
  move := by
    rintro position rest _ kind ⟨after, total, complete, shallow, more, rfl⟩ head notEnd
    cases rest with
    | nil => exact absurd rfl complete.ne_nil
    | cons reading rest =>
      rw [List.length_cons] at total
      exact ⟨Nat.le_succ_of_le after, (Nat.succ_add_eq_add_succ position rest.length).trans total,
        complete.tail head notEnd,
        fun cause member => shallow cause (List.mem_cons_of_mem _ member), more, rfl⟩

theorem window_ofSource (source : String) (limited : Prop) (more : List Reading) :
    (window 0 (tokenCount source + 1) limited).Ahead 0 ((lexemes source).map Lexeme.reading)
      ((lexemes source).map Lexeme.reading ++ more) :=
  ⟨Nat.le_refl _, by simp [length_lexemes], complete_lexemes source, shallow_lexemes source,
    more, rfl⟩

/-- Two runs over readings of which the first one is given a part only. Where the rest would be,
it finds a fault. -/
def cut (count : Nat) : Likeness where
  Ahead position rest rest' := ∃ shared more, position + shared.length = count ∧
    rest = shared ++ [.error .invalidInput] ∧ rest' = shared ++ more
  Site site := site < count
  Early fault := fault = ⟨.invalidInput, count⟩
  deep := False
  plain := by
    rintro cause site plain early
    cases early
    simp [Cause.isPlain] at plain
  look := by
    rintro position _ _ ⟨shared, more, total, rfl, rfl⟩
    cases shared with
    | nil => exact .inl ⟨.invalidInput, rfl, by rw [← total]; rfl, id⟩
    | cons reading shared =>
      rw [List.length_cons] at total
      refine .inr ⟨by omega, rfl, fun cause _ => ⟨fun early => ?_, False.elim⟩⟩
      have same := congrArg Fault.site early
      dsimp only at same
      omega
  move := by
    rintro position _ _ kind ⟨shared, more, total, rfl, rfl⟩ head _
    cases shared with
    | nil => cases head
    | cons reading shared =>
      rw [List.length_cons] at total
      exact ⟨shared, more, by omega, rfl, rfl⟩

end Likeness

/-- The fault that a run over a source comes to lies at one of its lexemes, and not at the last one
if it is a lack of depth. -/
theorem program_fault_site {source : String} {limit : Nat} {fault : Fault Nat} {t : State}
    (failed : program limit (.ofSource source) = .error fault t) :
    fault.site ≤ tokenCount source ∧
      (fault.cause = .nestingTooDeep → fault.site < tokenCount source) := by
  have outcomes := Likeness.program_outcomes_same (L := .window 0 (tokenCount source + 1) False)
    (fun _ early => early.1) limit (s := .ofSource source)
    (Likeness.window_ofSource source False [])
  rw [failed] at outcomes
  generalize program limit (State.withRest _ _) = result' at outcomes
  cases outcomes with
  | fault common =>
    have deep := common.inside trivial
    exact ⟨Nat.lt_succ_iff.mp common.site.2, fun deepest => Nat.lt_of_succ_lt_succ (deep deepest).2⟩
  | early early => exact absurd early.1 id

end C0
