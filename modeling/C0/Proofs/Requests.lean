import C0.Proofs.Likeness.Source

namespace C0

open Analysis

/-- The readings of a source up to a count, and a fault in place of the next one. -/
def readingsUpTo (source : String) (count : Nat) : List Reading :=
  ((lexemes source).map Lexeme.reading).take count ++ [.error .invalidInput]

/-- Whether a compilation asks for the scan result at an index: a fault that stands there in its
place is the fault that the compilation ends with. -/
def requests (source : String) (options : Options) (index : Nat) : Bool :=
  match program options.maxNestingDepth (.initial (readingsUpTo source index)) with
  | .ok _ _ => false
  | .error fault _ => fault == ⟨.invalidInput, index⟩

theorem lexemes_take {source : String} {count : Nat} (inside : count ≤ tokenCount source + 1) :
    (lexemes source).take count = (List.range count).map (scanResult source) := by
  rw [(lexemes_eq_scanResult source).1, ← List.map_take, List.take_range, Nat.min_eq_left inside]

/-- Nothing is asked for behind the end of a source or its first fault. -/
theorem requests_end {source : String} {options : Options} {count : Nat}
    (all : tokenCount source < count) : requests source options count = false := by
  have whole : readingsUpTo source count =
      (lexemes source).map Lexeme.reading ++ [.error .invalidInput] := by
    rw [readingsUpTo, List.take_of_length_le]
    rw [List.length_map, length_lexemes]
    omega
  have outcomes := Likeness.program_outcomes_same (L := .window 0 (tokenCount source + 1) False)
    (fun _ early => early.1) options.maxNestingDepth (s := .ofSource source)
    (Likeness.window_ofSource source False [.error .invalidInput])
  have same : (State.ofSource source).withRest
      ((lexemes source).map Lexeme.reading ++ [.error .invalidInput]) =
        .initial (readingsUpTo source count) := by
    rw [whole]
    rfl
  rw [same] at outcomes
  unfold requests
  generalize program _ (State.ofSource source) = result at outcomes
  generalize program _ (State.initial _) = result' at outcomes
  cases outcomes with
  | same => rfl
  | @fault f _ _ common =>
    have before : f.site < tokenCount source + 1 := common.site.2
    refine beq_eq_false_iff_ne.mpr fun other => ?_
    rw [other] at before
    dsimp only at before
    omega
  | early early => exact absurd early.1 id

/-- A compilation that asks for no more is the same with any readings after those that it has. -/
theorem program_cut {source other : String} (options : Options) {count : Nat}
    (inside : count ≤ tokenCount source + 1)
    (shared : ((lexemes other).map Lexeme.reading).take count =
      ((lexemes source).map Lexeme.reading).take count) :
    (Likeness.cut count).Outcomes
      (program options.maxNestingDepth (.initial (readingsUpTo source count)))
      (program options.maxNestingDepth (.ofSource other)) := by
  have ahead : (Likeness.cut count).Ahead 0 (readingsUpTo source count)
      ((lexemes other).map Lexeme.reading) := by
    refine ⟨_, ((lexemes other).map Lexeme.reading).drop count, ?_, rfl, ?_⟩
    · rw [List.length_take, List.length_map, length_lexemes]
      omega
    · rw [← shared, List.take_append_drop]
  exact Likeness.program_outcomes_same (L := .cut count) (fun site early => by cases early)
    options.maxNestingDepth (s := .initial (readingsUpTo source count)) ahead

/-- Two compilations end in the same way: with equal programs, or with faults for the same cause at
the scan results with the same index. -/
def SameOutcome (source other : String) (options : Options) (count : Nat) : Prop :=
  (∃ program, compile source options = .ok program ∧ compile other options = .ok program) ∨
    ∃ cause index, index < count ∧
      compile source options = .error ⟨cause, (scanResult source index).span⟩ ∧
      compile other options = .error ⟨cause, (scanResult other index).span⟩

theorem sameOutcome_of_le {source other : String} {options : Options} {count : Nat}
    (inside : count ≤ tokenCount source + 1) (inside' : count ≤ tokenCount other + 1)
    (shared : ∀ i < count, (scanResult source i).reading = (scanResult other i).reading)
    (enough : requests source options count = false) : SameOutcome source other options count := by
  have taken : ((lexemes other).map Lexeme.reading).take count =
      ((lexemes source).map Lexeme.reading).take count := by
    rw [← List.map_take, ← List.map_take, lexemes_take inside, lexemes_take inside', List.map_map,
      List.map_map]
    exact List.map_congr_left fun i member => (shared i (List.mem_range.mp member)).symm
  have first : (Likeness.cut count).Outcomes _ (program _ (.ofSource source)) :=
    program_cut options inside rfl
  have second : (Likeness.cut count).Outcomes _ (program _ (.ofSource other)) :=
    program_cut options inside taken
  unfold requests at enough
  generalize program _ (State.initial _) = part at first second enough
  generalize ran : program _ (State.ofSource source) = result at first
  generalize ran' : program _ (State.ofSource other) = result' at second
  cases first with
  | @same checked =>
    cases second with
    | same =>
      exact .inl ⟨checked.program, by rw [compile, analyze_eq, ran]; rfl,
        by rw [compile, analyze_eq, ran']; rfl⟩
  | @fault f _ _ common =>
    have before : f.site < count := common.site
    cases second with
    | fault =>
      exact .inr ⟨f.cause, f.site, before, compile_eq_of_error ran (by omega),
        compile_eq_of_error ran' (by omega)⟩
    | early early => exact absurd early common.late
  | early early =>
    have heard : _ = _ := early
    simp [heard] at enough

/-- A source that shares its first readings with another one has as many. -/
theorem tokenCount_of_shared {source other : String} {count : Nat}
    (shared : ∀ i < count, (scanResult source i).reading = (scanResult other i).reading)
    (inside : count ≤ tokenCount source + 1) : count ≤ tokenCount other + 1 := by
  by_contra more
  obtain ⟨_, _, before⟩ := lexemes_eq_scanResult source
  obtain ⟨_, ends, _⟩ := lexemes_eq_scanResult other
  have goesOn := before (tokenCount other) (by omega)
  have same := shared (tokenCount other) (by omega)
  rw [Lexeme.isLast, ← same] at ends
  rw [Lexeme.isLast, ends] at goesOn
  cases goesOn

/-- A compilation depends on nothing but the readings that it asks for. It ends in the same way for
two sources whose first scan results have the same readings, if it asks for no others. It never asks
for more than the tokens and the end of a source, so that blanks and comments change nothing. -/
theorem compile_sameOutcome (source other : String) (options : Options) :
    (∀ count, (∀ i < count, (scanResult source i).reading = (scanResult other i).reading) →
      requests source options count = false → SameOutcome source other options count) ∧
    requests source options (tokenCount source + 1) = false ∧
    ((lexemes source).map Lexeme.reading = (lexemes other).map Lexeme.reading →
      SameOutcome source other options (tokenCount source + 1)) := by
  have whole : requests source options (tokenCount source + 1) = false := requests_end (by omega)
  refine ⟨fun count shared enough => ?_, whole, fun equal => ?_⟩
  · by_cases inside : count ≤ tokenCount source + 1
    · exact sameOutcome_of_le inside (tokenCount_of_shared shared inside) shared enough
    · have shared' : ∀ i < tokenCount source + 1,
          (scanResult source i).reading = (scanResult other i).reading :=
        fun i less => shared i (by omega)
      rcases sameOutcome_of_le (Nat.le_refl _) (tokenCount_of_shared shared' (Nat.le_refl _))
        shared' whole with accepted | ⟨cause, index, less, failed⟩
      · exact .inl accepted
      · exact .inr ⟨cause, index, by omega, failed⟩
  · have lengths := congrArg List.length equal
    simp only [List.length_map, length_lexemes] at lengths
    refine sameOutcome_of_le (Nat.le_refl _) (by omega) (fun i less => ?_) whole
    rw [(lexemes_eq_scanResult source).1, (lexemes_eq_scanResult other).1, ← lengths] at equal
    have here := congrArg (·[i]?) equal
    simpa [List.getElem?_range less] using here

/-- Sources that differ in their layout and behind the sixth token, which is refused. -/
theorem compile_sameOutcome_refused :
    (∀ i < 6, (scanResult "let x: int = ; fn main" i).reading =
      (scanResult "let x // y\n  :int=;%" i).reading) ∧
    requests "let x: int = ; fn main" {} 6 = false ∧
    SameOutcome "let x: int = ; fn main" "let x // y\n  :int=;%" {} 6 := by
  have shared : ∀ i < 6, (scanResult "let x: int = ; fn main" i).reading =
      (scanResult "let x // y\n  :int=;%" i).reading := by
    decide +kernel
  have enough : requests "let x: int = ; fn main" {} 6 = false := by
    decide +kernel
  exact ⟨shared, enough, (compile_sameOutcome _ _ {}).1 6 shared enough⟩

end C0
