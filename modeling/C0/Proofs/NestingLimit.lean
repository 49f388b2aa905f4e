import C0.Proofs.Likeness.Source
import C0.Proofs.SinglePass.Agreement
import C0.Proofs.SinglePass.Depth
import Mathlib.Data.Nat.Find

namespace C0

open Analysis

/-- The analysis of a source ends for want of depth, at a site. -/
def TooDeep (source : String) (limit site : Nat) : Prop :=
  ∃ t, program limit (.ofSource source) = .error ⟨.nestingTooDeep, site⟩ t

variable {source : String} {limit limit' site site' : Nat}

theorem TooDeep.compile (deep : TooDeep source limit site) :
    compile source ⟨limit⟩ = .error ⟨.nestingTooDeep, (scanResult source site).span⟩ := by
  obtain ⟨t, failed⟩ := deep
  exact compile_eq_of_error failed (program_fault_site failed).1

/-- What two limits come to: the same, or a lack of depth at the smaller one, and at the larger one
at most later. -/
theorem program_limits (source : String) (less : limit < limit') :
    (∃ checked t t', program limit (.ofSource source) = .ok checked t ∧
      program limit' (.ofSource source) = .ok checked t') ∨
    (∃ fault t t', program limit (.ofSource source) = .error fault t ∧
      program limit' (.ofSource source) = .error fault t' ∧ fault.cause ≠ .nestingTooDeep) ∨
    ∃ site, TooDeep source limit site ∧ ∀ site', TooDeep source limit' site' → site < site' := by
  have outcomes := Likeness.program_outcomes_of_lt
    (L := .window 0 (tokenCount source + 1) True) (fun _ => ⟨trivial, rfl⟩) less
    (s := .ofSource source) (Likeness.window_ofSource source True [])
  have same : (State.ofSource source).withRest ((lexemes source).map Lexeme.reading ++ []) =
      .ofSource source := by
    rw [List.append_nil]
    rfl
  rw [same] at outcomes
  generalize ran : program limit (.ofSource source) = result at outcomes
  generalize ran' : program limit' (.ofSource source) = result' at outcomes
  cases outcomes with
  | same => exact .inl ⟨_, _, _, rfl, rfl⟩
  | fault common => exact .inr (.inl ⟨_, _, _, rfl, rfl, fun deep => common.late ⟨trivial, deep⟩⟩)
  | @early f t _ early beyond =>
    obtain ⟨cause, site⟩ := f
    obtain rfl : cause = .nestingTooDeep := early.2
    refine .inr (.inr ⟨site, ⟨t, ran⟩, fun site' deep => ?_⟩)
    obtain ⟨t', failed⟩ := deep
    have later := beyond trivial
    rw [← ran', failed] at later
    exact later rfl

/-- A lack of depth at a limit is one at each smaller limit, and lies earlier there. -/
theorem TooDeep.of_lt (deep : TooDeep source limit' site') (less : limit < limit') :
    ∃ site < site', TooDeep source limit site := by
  rcases program_limits source less with ⟨_, _, _, _, ok⟩ | ⟨_, _, _, _, failed, other⟩ |
    ⟨site, before, later⟩
  · obtain ⟨_, failed⟩ := deep
    rw [ok] at failed
    cases failed
  · obtain ⟨_, failed'⟩ := deep
    rw [failed] at failed'
    cases failed'
    exact absurd rfl other
  · exact ⟨site, later site' deep, before⟩

/-- There are at least as many tokens before a lack of depth as the limit allows levels, and at
least one behind it. -/
theorem TooDeep.bounds (deep : TooDeep source limit site) :
    limit ≤ site ∧ site < tokenCount source := by
  refine ⟨?_, ?_⟩
  -- One level more is missed at a later token, so the site grows with the limit.
  · induction limit generalizing site with
    | zero => exact Nat.zero_le _
    | succ limit ih =>
      obtain ⟨before, less, deep'⟩ := deep.of_lt (Nat.lt_succ_self limit)
      have := ih deep'
      omega
  · obtain ⟨t, failed⟩ := deep
    exact (program_fault_site failed).2 rfl

/-- Beyond a limit that suffices the limit does not matter. -/
theorem compile_eq_of_not_tooDeep (enough : ∀ site, ¬ TooDeep source limit site)
    (more : limit ≤ limit') : compile source ⟨limit'⟩ = compile source ⟨limit⟩ := by
  rcases Nat.eq_or_lt_of_le more with rfl | less
  · rfl
  · rcases program_limits source less with ⟨_, _, _, ok, ok'⟩ | ⟨_, _, _, failed, failed', _⟩ |
      ⟨site, deep, _⟩
    · rw [compile, compile, analyze_eq, analyze_eq, ok, ok']
    · rw [compile, compile, analyze_eq, analyze_eq, failed, failed']
    · exact absurd deep (enough site)

/-- Where a limit does not suffice, there is a lack of depth, and it lies the later the larger the
limit is. From some limit on there is none. -/
theorem exists_threshold (source : String) : ∃ threshold ≤ tokenCount source, ∃ site : Nat → Nat,
    (∀ limit < threshold, TooDeep source limit (site limit)) ∧
    (∀ limit limit', limit < limit' → limit' < threshold → site limit < site limit') ∧
    ∀ limit ≥ threshold, ∀ site, ¬ TooDeep source limit site := by
  classical
  -- A limit as large as the number of tokens is never too small.
  have ends : ∃ limit, ∀ site, ¬ TooDeep source limit site := by
    refine ⟨tokenCount source, fun site deep => ?_⟩
    have bounds := deep.bounds
    omega
  have before (limit : Nat) (less : limit < Nat.find ends) : ∃ site, TooDeep source limit site := by
    simpa using Nat.find_min ends less
  choose! site deep using before
  refine ⟨Nat.find ends, ?_, site, deep, fun limit limit' less within => ?_,
    fun limit more place tooDeep => ?_⟩
  · by_contra more
    have bounds := (deep (tokenCount source) (by omega)).bounds
    omega
  · obtain ⟨earlier, earlier_lt, tooDeep⟩ := (deep limit' within).of_lt less
    obtain ⟨t, failed⟩ := tooDeep
    obtain ⟨t', failed'⟩ := deep limit (by omega)
    rw [failed] at failed'
    cases failed'
    exact earlier_lt
  · rcases Nat.eq_or_lt_of_le more with rfl | less
    · exact Nat.find_spec ends place tooDeep
    · obtain ⟨place', _, tooDeep'⟩ := tooDeep.of_lt less
      exact Nat.find_spec ends place' tooDeep'

theorem compile_cause (enough : ∀ site, ¬ TooDeep source limit site) (diagnostic : Diagnostic)
    (failed : compile source ⟨limit⟩ = .error diagnostic) : diagnostic.cause ≠ .nestingTooDeep := by
  rw [compile, analyze_eq] at failed
  cases ran : program limit (.ofSource source) with
  | ok checked t => simp [ran, Except.map] at failed
  | error fault t =>
    simp only [ran, Except.map, Except.error.injEq] at failed
    subst failed
    intro deep
    obtain ⟨cause, site⟩ := fault
    obtain rfl : cause = .nestingTooDeep := deep
    exact enough site ⟨t, ran⟩

/-- No level is open between the functions and declarations of a program. -/
theorem depth_items {keeping : Keeping} {limit active depth : Nat} {b b' : Bench}
    (starts : b.AtDepth depth)
    (reached : Relation.ReflTransGen (fun b b' =>
      SinglePass.itemOrEnd (routines keeping limit active) () b = .ok (.inl ()) b') b b') :
    b'.AtDepth depth := by
  have keeps := SinglePass.itemOrEnd_keepsDepth
    (SinglePass.routines_keepDepth keeping limit active) ()
  induction reached with
  | refl => exact starts
  | tail _ step before => exact keeps depth _ _ _ before step

/-- The limit is a threshold. From some limit on, which is no larger than the number of tokens, it
has no part in what a source compiles to. Below it there is a lack of depth, which lies the later
the larger the limit is.

A single pass compares the limit with a count of the levels that it entered and not left. With
enough calls it comes to the same. At each depth its routines come to what the analysis comes to
with the levels that are left, and wherever a routine succeeds, it leaves the depth as it finds it,
so that it is 0 between the functions and declarations of a program. -/
theorem compile_threshold (source : String) :
    (∃ (outcome : Except Diagnostic Program) (threshold : Nat) (site : Nat → Nat),
      (∀ diagnostic, outcome = .error diagnostic → diagnostic.cause ≠ .nestingTooDeep) ∧
      threshold ≤ tokenCount source ∧
      (∀ limit, threshold ≤ limit → compile source ⟨limit⟩ = outcome) ∧
      (∀ limit, limit < threshold → compile source ⟨limit⟩ =
        .error ⟨.nestingTooDeep, (scanResult source (site limit)).span⟩) ∧
      ∀ limit limit', limit < limit' → limit' < threshold → site limit < site limit' ∧
        (scanResult source (site limit)).span.start <
          (scanResult source (site limit')).span.start) ∧
    (∀ limit active, Options.activeCalls ⟨limit⟩ ≤ active →
      (passOver .exact active source ⟨limit⟩).1 = (compile source ⟨limit⟩).mapError .fault) ∧
    (∀ limit depth active, depth ≤ limit →
      SinglePass.Level source (routines .exact limit active) depth (limit - depth) active) ∧
    (∀ keeping limit active, SinglePass.RoutinesKeepDepth (routines keeping limit active)) ∧
    ∀ keeping limit active b,
      Relation.ReflTransGen (fun b b' =>
        SinglePass.itemOrEnd (routines keeping limit active) () b = .ok (.inl ()) b')
        (.ofSource source) b → b.desk.depth = 0 := by
  have starts : (Bench.ofSource source).AtDepth 0 := rfl
  refine ⟨?_, fun limit active enough => (passOver_eq_compile source ⟨limit⟩ enough).1,
    fun limit depth active within => SinglePass.level_of_add source _ _ _ _ (by omega),
    SinglePass.routines_keepDepth, fun keeping limit active b reached => depth_items starts reached⟩
  obtain ⟨threshold, bounded, site, deep, ordered, enough⟩ := exists_threshold source
  have settled := enough threshold (Nat.le_refl _)
  refine ⟨compile source ⟨threshold⟩, threshold, site, compile_cause settled, bounded,
    fun limit more => compile_eq_of_not_tooDeep settled more,
    fun limit less => (deep limit less).compile,
    fun limit limit' less within => ?_⟩
  have later := ordered limit limit' less within
  have inside := (deep limit' within).bounds.2
  obtain ⟨_, _, goesOn⟩ := lexemes_eq_scanResult source
  exact ⟨later, Scanner.results_lt later fun i before => goesOn i (by omega)⟩

end C0
