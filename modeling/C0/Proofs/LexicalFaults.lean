import C0.Proofs.ReturnCheck
import C0.Proofs.SinglePass.Agreement

namespace C0

open Analysis
open Relation (ReflTransGen)

section

variable {source : String} {limit : Nat} {s t : State}

theorem ItemStep.of_iterates {before after : Unit}
    (walk : Iterates (itemOrEnd limit) before s after t) : ReflTransGen (ItemStep limit) s t := by
  induction walk with
  | done last =>
    simp only [itemOrEnd, bind_ok_iff, peek_ok_iff] at last
    obtain ⟨⟨kind, _⟩, _, ⟨_, _, rfl⟩, last⟩ := last
    cases kind with
    | eof =>
      obtain ⟨_, rfl⟩ := pure_ok_iff.mp last
      exact .refl
    | keyword word => cases word <;> simp at last
    | _ => simp at last
  | next first _ ih => exact .head first ih

/-- The end of a source that is found between two items is the last of its lexemes. -/
theorem ItemStep.position_of_eof (steps : ReflTransGen (ItemStep limit) (.ofSource source) s)
    (current : s.current = .ok .eof) :
    s.position = tokenCount source ∧
      (scanResult source (tokenCount source)).reading = .ok .eof := by
  obtain ⟨-, total, complete, -⟩ := ItemStep.ahead_ofSource steps
  obtain ⟨count, position, rest⟩ := ItemStep.leadsTo steps
  obtain ⟨listed, -, before⟩ := lexemes_eq_scanResult source
  have nonempty := List.length_pos_iff.mpr complete.ne_nil
  have place : s.position = count := position.trans (Nat.zero_add count)
  have readings : (State.ofSource source).rest = (lexemes source).map Lexeme.reading := rfl
  have here : (scanResult source count).reading = .ok .eof := by
    rw [State.current, rest, List.head?_drop, readings, listed, List.getElem?_map,
      List.getElem?_map, List.getElem?_range (by omega)] at current
    exact current
  have last : count = tokenCount source := by
    by_contra other
    have goesOn := before count (by omega)
    rw [Lexeme.isLast, here] at goesOn
    cases goesOn
  exact ⟨place.trans last, last ▸ here⟩

theorem finish_position {eof : Nat} {checked : CheckedProgram}
    (run : finish eof s = .ok checked t) : t.position = s.position ∧ t.rest = s.rest := by
  simp only [finish, get_bind_eq] at run
  cases found : s.definitions.find? (·.signature.name == mainName) with
  | none => simp [found] at run
  | some main =>
    rw [found] at run
    injection run with _ same
    exact same ▸ ⟨rfl, rfl⟩

/-- An analysis that succeeds has read all lexemes, of which the last one is the end. -/
theorem program_end {checked : CheckedProgram}
    (run : program limit (.ofSource source) = .ok checked t) :
    (scanResult source (tokenCount source)).reading = .ok .eof ∧
      t.position = (lexemes source).length ∧ t.rest = [] := by
  simp only [program, bind_ok_iff, expect_ok_iff] at run
  obtain ⟨_, u, items, _, v, ⟨⟨current, rfl⟩, _⟩, last⟩ := run
  have steps := ItemStep.of_iterates (repeatUntil_iterates items)
  obtain ⟨position, ends⟩ := ItemStep.position_of_eof steps current
  obtain ⟨-, total, -⟩ := ItemStep.ahead_ofSource steps
  obtain ⟨same, rest⟩ := finish_position last
  refine ⟨ends, by rw [same, length_lexemes, ← position]; rfl, ?_⟩
  have one : u.rest.length = 1 := by omega
  obtain ⟨reading, alone⟩ := List.length_eq_one_iff.mp one
  rw [rest, State.advanced, alone]
  rfl

end

namespace Likeness

/-- Two runs over readings up to a fault. Either both end before it, or the first one ends with
it. -/
def upToFault (count : Nat) (cause : Cause) (lexical : cause.isPlain = false) : Likeness where
  Ahead position rest rest' := ∃ shared, position + shared.length = count ∧
    rest = shared ++ [.error cause] ∧ rest' = rest
  Site site := site < count
  Early fault := fault = ⟨cause, count⟩
  deep := False
  plain := by
    intro other site plain early
    cases early
    rw [lexical] at plain
    cases plain
  look := by
    rintro position _ _ ⟨shared, total, rfl, rfl⟩
    cases shared with
    | nil => exact .inl ⟨cause, rfl, by rw [← total]; rfl, id⟩
    | cons reading shared =>
      rw [List.length_cons] at total
      have inside : position < count := total ▸ Nat.lt_add_of_pos_right (Nat.succ_pos _)
      refine .inr ⟨inside, rfl, fun _ _ => ⟨fun early => ?_, False.elim⟩⟩
      exact inside.ne (congrArg Fault.site early)
  move := by
    rintro position _ _ kind ⟨shared, total, rfl, rfl⟩ head _
    cases shared with
    | nil => cases head
    | cons reading shared =>
      rw [List.length_cons] at total
      exact ⟨shared, (Nat.succ_add_eq_add_succ position shared.length).trans total, rfl, rfl⟩

end Likeness

section

variable {source : String} {options : Options}

/-- The lexemes of a source are the results of scans with the same indices. -/
theorem scanResult_of_getElem? {index : Nat} {lexeme : Lexeme}
    (here : (lexemes source)[index]? = some lexeme) : scanResult source index = lexeme := by
  obtain ⟨inside, _⟩ := List.getElem?_eq_some_iff.mp here
  rw [length_lexemes] at inside
  rw [(lexemes_eq_scanResult source).1, List.getElem?_map, List.getElem?_range inside] at here
  exact Option.some.inj here

theorem tokenCount_of_append {tokens : List Lexeme} {last : Lexeme}
    (split : lexemes source = tokens ++ [last]) : tokenCount source = tokens.length := by
  rw [tokenCount, split]
  simp

/-- Where the lexemes of a source end in a fault, the analysis comes to it or to a fault at one of
the tokens before it. -/
theorem program_upToFault {tokens : List Lexeme} {span : Span} {cause : Cause}
    (faulty : lexemes source = tokens ++ [⟨span, .error cause⟩]) (limit : Nat) :
    ∃ fault t, program limit (.ofSource source) = .error fault t ∧
      (fault = ⟨cause, tokens.length⟩ ∨ fault.site < tokens.length) := by
  have lexical : cause = .invalidInput ∨ cause = .invalidLiteral := by
    have member : .error cause ∈ (lexemes source).map Lexeme.reading := by simp [faulty]
    exact Scanner.lexemes_error member
  have plain : cause.isPlain = false := by
    rcases lexical with rfl | rfl <;> rfl
  have ahead : (Likeness.upToFault tokens.length cause plain).Ahead 0 (State.ofSource source).rest
      (State.ofSource source).rest := by
    refine ⟨tokens.map Lexeme.reading, by simp, ?_, rfl⟩
    simp [State.ofSource, State.initial, faulty]
  have outcomes := Likeness.program_outcomes_same
    (fun site early => by rcases lexical with rfl | rfl <;> cases early) limit
    (s := .ofSource source) ahead
  generalize program limit (State.withRest _ _) = result' at outcomes
  generalize ran : program limit (.ofSource source) = result at outcomes
  cases outcomes with
  | @same checked t _ =>
    have ends := (program_end ran).1
    have last : scanResult source (tokenCount source) = ⟨span, .error cause⟩ :=
      scanResult_of_getElem? (by simp [faulty, tokenCount_of_append faulty])
    simp [last] at ends
  | @fault fault t _ common => exact ⟨fault, t, rfl, .inr common.site⟩
  | @early fault t _ early => exact ⟨fault, t, rfl, .inl early⟩

/-- Compiling and scanning agree on lexical faults. A source that is accepted has none: all its
lexemes are tokens, and the compilation takes each of them once and in order, the end included. A
source whose lexemes end in a fault is refused with that fault, or with one that is blamed on a
token before it. -/
theorem compile_lexical_faults (source : String) (options : Options) :
    (∀ program, compile source options = .ok program →
      (∀ lexeme ∈ lexemes source, ∃ kind, lexeme.reading = .ok kind) ∧
      (∃ checked t, Analysis.program options.maxNestingDepth (.ofSource source) = .ok checked t ∧
        t.position = (lexemes source).length ∧ t.rest = []) ∧
      ∃ b, singlePass source options = (.ok program, b) ∧ b.taken = lexemes source) ∧
    ∀ tokens span cause, lexemes source = tokens ++ [⟨span, .error cause⟩] →
      ∃ fault, compile source options = .error fault ∧
        (fault = ⟨cause, span⟩ ∨ ∃ token ∈ tokens, fault.site = token.span) := by
  constructor
  · intro compiled accepted
    have outcome := passOver_outcome source options (Nat.le_refl _)
    cases ran : Analysis.program options.maxNestingDepth (.ofSource source) with
    | error fault t =>
      rw [compile_eq_of_error ran (program_fault_site ran).1] at accepted
      cases accepted
    | ok checked t =>
      rw [ran] at outcome
      obtain ⟨b, done, serves, _⟩ := outcome
      obtain ⟨-, position, rest⟩ := program_end ran
      have same : checked.program = compiled := by
        rw [compile, analyze_eq, ran] at accepted
        exact Except.ok.inj accepted
      have taken : b.taken = lexemes source := by
        rw [serves.taken, position, length_lexemes, ← (lexemes_eq_scanResult source).1]
      refine ⟨fun lexeme member => ?_, ⟨checked, t, rfl, position, rest⟩, b, same ▸ done, taken⟩
      rw [← taken, serves.taken] at member
      obtain ⟨index, inside, rfl⟩ := List.mem_map.mp member
      exact serves.passed index (List.mem_range.mp inside)
  · intro tokens span cause faulty
    -- The analysis does not read past the fault, so it ends there or before.
    obtain ⟨fault, t, failed, blamed⟩ := program_upToFault faulty options.maxNestingDepth
    have site := (program_fault_site failed).1
    refine ⟨_, compile_eq_of_error failed site, ?_⟩
    rcases blamed with rfl | before
    · have last : scanResult source tokens.length = ⟨span, .error cause⟩ :=
        scanResult_of_getElem? (by simp [faulty])
      exact .inl (by rw [last])
    · have here : scanResult source fault.site = tokens.get ⟨fault.site, before⟩ :=
        scanResult_of_getElem? (by simp [faulty, List.getElem?_append_left before])
      exact .inr ⟨_, List.get_mem tokens ⟨fault.site, before⟩, by rw [here]⟩

/-- A source that is accepted, and one that is refused before its lexical fault. -/
theorem compile_lexical_faults_both :
    (∃ program b, compile "fn main() -> void \x7b\x7d" {} = .ok program ∧
      singlePass "fn main() -> void \x7b\x7d" {} = (.ok program, b) ∧
      b.taken = lexemes "fn main() -> void \x7b\x7d") ∧
    ∃ tokens span fault, lexemes "fn 1 1." = tokens ++ [⟨span, .error .invalidLiteral⟩] ∧
      compile "fn 1 1." {} = .error fault ∧
      (fault = ⟨.invalidLiteral, span⟩ ∨ ∃ token ∈ tokens, fault.site = token.span) := by
  constructor
  · generalize text : "fn main() -> void \x7b\x7d" = source
    have read : (compile source {}).isOk = true := by
      subst text
      decide +kernel
    cases accepted : compile source {} with
    | error fault => simp [accepted, Except.isOk, Except.toBool] at read
    | ok program =>
      obtain ⟨-, -, b, done, taken⟩ := (compile_lexical_faults source {}).1 program accepted
      exact ⟨program, b, rfl, done, taken⟩
  · have faulty : lexemes "fn 1 1." =
        [⟨⟨0, 2⟩, .ok (.keyword .fnWord)⟩, ⟨⟨3, 4⟩, .ok (.uint 1)⟩] ++
          [⟨⟨5, 7⟩, .error .invalidLiteral⟩] := by
      rfl
    obtain ⟨fault, refused, blamed⟩ := (compile_lexical_faults _ {}).2 _ _ _ faulty
    exact ⟨_, _, fault, faulty, refused, blamed⟩

end

end C0
