import C0.Proofs.Assembly
import Mathlib.Data.List.Basic
import Mathlib.Tactic.Common

namespace C0

/-- Where a run stands, and the outcomes of the tests that it has yet to make. -/
structure Config where
  position : Int
  tests : List Bool
  deriving DecidableEq

/-- A place in the code with some tests before it. -/
def Config.on (position : Nat) (tests : List Bool) : Config :=
  ⟨position, tests⟩

/-- How a run ends: at a return, before a test whose outcome is not given, or outside the code. -/
inductive Ending where
  | returned
  | waiting
  | outside
  deriving DecidableEq

/-- The instruction at a position. -/
def instructionAt? (code : List Instruction) : Int → Option Instruction
  | .ofNat index => code[index]?
  | .negSucc _ => none

/-- What a run does next: it executes at most one instruction and goes on, or ends. A branch is not
counted as executed. -/
def move (code : List Instruction) (config : Config) :
    List Instruction × (Config ⊕ Ending) :=
  match instructionAt? code config.position with
  | none => ([], .inr .outside)
  | some (.plain .ret) => ([.plain .ret], .inr .returned)
  | some (.branch .always offset) => ([], .inl ⟨config.position + 1 + offset.toInt, config.tests⟩)
  | some (.branch .onTrue offset) =>
    match config.tests with
    | [] => ([], .inr .waiting)
    | true :: tests => ([], .inl ⟨config.position + 1 + offset.toInt, tests⟩)
    | false :: tests => ([], .inl ⟨config.position + 1, tests⟩)
  | some instruction => ([instruction], .inl ⟨config.position + 1, config.tests⟩)

/-- A run as a whole, with the instructions that it executes. -/
inductive Runs (code : List Instruction) : Config → List Instruction → Ending → Prop
  | last {config trace ending} : move code config = (trace, .inr ending) →
      Runs code config trace ending
  | next {config after first rest ending} : move code config = (first, .inl after) →
      Runs code after rest ending → Runs code config (first ++ rest) ending

/-- A part of a run. -/
inductive Leads (code : List Instruction) : Config → List Instruction → Config → Prop
  | refl {config} : Leads code config [] config
  | next {config after last first rest} : move code config = (first, .inl after) →
      Leads code after rest last → Leads code config (first ++ rest) last

variable {code : List Instruction} {config middle last : Config} {trace rest : List Instruction}
  {ending : Ending}

/-- A run is determined by the outcomes of the tests. -/
theorem Runs.unique (run : Runs code config trace ending) {trace' : List Instruction}
    {ending' : Ending} (run' : Runs code config trace' ending') :
    trace = trace' ∧ ending = ending' := by
  induction run generalizing trace' ending' with
  | last ends =>
    cases run' with
    | last ends' => simp_all
    | next moves => simp_all
  | next moves _ ih =>
    cases run' with
    | last ends => simp_all
    | next moves' run' =>
      rw [moves] at moves'
      obtain ⟨rfl, same⟩ := Prod.mk.inj moves'
      cases Sum.inl.inj same
      obtain ⟨rfl, rfl⟩ := ih run'
      exact ⟨rfl, rfl⟩

namespace Leads

theorem trans (first : Leads code config trace middle) (second : Leads code middle rest last) :
    Leads code config (trace ++ rest) last := by
  induction first with
  | refl => exact second
  | next moves _ ih => simpa only [List.append_assoc] using .next moves (ih second)

theorem runs (first : Leads code config trace middle) (second : Runs code middle rest ending) :
    Runs code config (trace ++ rest) ending := by
  induction first with
  | refl => exact second
  | next moves _ ih => simpa only [List.append_assoc] using .next moves (ih second)

/-- Branches at the end leave no trace. -/
theorem silent (first : Leads code config trace middle) (second : Leads code middle [] last) :
    Leads code config trace last := by
  have path := first.trans second
  rwa [List.append_nil] at path

theorem runs_silent (first : Leads code config trace middle) (second : Runs code middle [] ending) :
    Runs code config trace ending := by
  have path := first.runs second
  rwa [List.append_nil] at path

theorem one (moves : move code config = (trace, .inl last)) : Leads code config trace last := by
  simpa using Leads.next moves .refl

/-- A part of a run that goes further than its first move goes on from there. -/
theorem after_silent (path : Leads code config trace last)
    (moves : move code config = ([], .inl middle)) (further : last ≠ config) :
    Leads code middle trace last := by
  cases path with
  | refl => exact absurd rfl further
  | next moves' path =>
    rw [moves] at moves'
    obtain ⟨rfl, same⟩ := Prod.mk.inj moves'
    cases Sum.inl.inj same
    exact path

end Leads

theorem Runs.after_silent (run : Runs code config trace ending)
    (moves : move code config = ([], .inl middle)) : Runs code middle trace ending := by
  cases run with
  | last ends => simp [moves] at ends
  | next moves' run =>
    rw [moves] at moves'
    obtain ⟨rfl, same⟩ := Prod.mk.inj moves'
    cases Sum.inl.inj same
    exact run

/-- Whether a run goes from an instruction to the one after it. -/
def Instruction.isStraight : Instruction → Bool
  | .plain .ret => false
  | .branch _ _ => false
  | _ => true

theorem Instruction.move_eq {instruction : Instruction}
    (here : instructionAt? code config.position = some instruction)
    (straight : instruction.isStraight = true) :
    move code config = ([instruction], .inl ⟨config.position + 1, config.tests⟩) := by
  simp only [move, here]
  cases instruction with
  | plain op =>
    cases op with
    | ret => simp [isStraight] at straight
    | _ => rfl
  | branch test offset => simp [isStraight] at straight
  | _ => rfl

section

variable {α : Type} {P : Nat → α → Prop} {whole rest : List α} {base : Nat}

/-- Something holds of all elements of a piece that starts at a position, each with its own
position. -/
def Everywhere (P : Nat → α → Prop) (base : Nat) (piece : List α) : Prop :=
  ∀ i a, piece[i]? = some a → P (base + i) a

/-- A piece, such as one of code, stands in the whole from a position on. -/
def Holds (whole : List α) : Nat → List α → Prop :=
  Everywhere fun i a => whole[i]? = some a

@[simp] theorem everywhere_nil : Everywhere P base [] := by
  intro i a here
  simp at here

@[simp] theorem everywhere_cons {first : α} :
    Everywhere P base (first :: rest) ↔ P base first ∧ Everywhere P (base + 1) rest := by
  constructor
  · intro holds
    refine ⟨holds 0 first rfl, fun i a here => ?_⟩
    simpa only [Nat.add_assoc, Nat.add_comm 1] using holds (i + 1) a here
  · rintro ⟨head, tail⟩ i a here
    cases i with
    | zero =>
      cases Option.some.inj here
      exact head
    | succ i => simpa only [Nat.add_assoc, Nat.add_comm 1] using tail i a here

@[simp] theorem everywhere_append {first second : List α} :
    Everywhere P base (first ++ second) ↔
      Everywhere P base first ∧ Everywhere P (base + first.length) second := by
  induction first generalizing base with
  | nil => simp
  | cons head tail ih =>
    simp only [List.cons_append, everywhere_cons, ih, List.length_cons, and_assoc, Nat.add_assoc,
      Nat.add_comm 1]

@[simp] theorem holds_nil : Holds whole base [] :=
  everywhere_nil

@[simp] theorem holds_cons {first : α} :
    Holds whole base (first :: rest) ↔ whole[base]? = some first ∧ Holds whole (base + 1) rest :=
  everywhere_cons

@[simp] theorem holds_append {first second : List α} :
    Holds whole base (first ++ second) ↔
      Holds whole base first ∧ Holds whole (base + first.length) second :=
  everywhere_append

theorem holds_self (whole : List α) : Holds whole 0 whole := by
  intro i a here
  rwa [Nat.zero_add]

end

section

variable {base : Nat} {tests : List Bool}

theorem move_straight {instruction : Instruction} (here : code[base]? = some instruction)
    (straight : instruction.isStraight = true) :
    move code (.on base tests) = ([instruction], .inl (.on (base + 1) tests)) :=
  Instruction.move_eq here straight

theorem move_ret (here : code[base]? = some (.plain .ret)) :
    move code (.on base tests) = ([.plain .ret], .inr .returned) := by
  have atBase : instructionAt? code (base : Int) = some (.plain .ret) := here
  simp [move, Config.on, atBase]

theorem move_waits {offset : Int32} (here : code[base]? = some (.branch .onTrue offset)) :
    move code (.on base []) = ([], .inr .waiting) := by
  have atBase : instructionAt? code (base : Int) = some (.branch .onTrue offset) := here
  simp [move, Config.on, atBase]

/-- The branch after a test skips the next instruction if the test holds. -/
theorem move_test (here : code[base]? = some (.branch .onTrue 1)) (holds : Bool) :
    move code (.on base (holds :: tests)) =
      ([], .inl (.on (if holds then base + 2 else base + 1) tests)) := by
  have atBase : instructionAt? code (base : Int) = some (.branch .onTrue 1) := here
  have one : (1 : Int32).toInt = 1 := rfl
  cases holds with
  | true => simp [move, Config.on, atBase, one, Int.add_assoc]
  | false => simp [move, Config.on, atBase]

/-- A branch in code of less than 2^31 instructions leads to its target. -/
theorem move_branchTo {target : Nat} (here : code[base]? = some (branchTo target base))
    (inside : target ≤ code.length) (short : code.length < 2 ^ 31) :
    move code (.on base tests) = ([], .inl (.on target tests)) := by
  have before : base < code.length := (List.getElem?_eq_some_iff.mp here).1
  have atBase : instructionAt? code (base : Int) = some (branchTo target base) := here
  have exact : (Int32.ofInt ((target : Int) - base - 1)).toInt = (target : Int) - base - 1 :=
    Int32.toInt_ofInt_of_le (by omega) (by omega)
  simp only [move, Config.on, atBase, branchTo, exact]
  congr 3
  omega

/-- Code that is straight is executed from its start to its end. -/
theorem leads_straight {piece : List Instruction} (holds : Holds code base piece)
    (straight : piece.all Instruction.isStraight = true) :
    Leads code (.on base tests) piece (.on (base + piece.length) tests) := by
  induction piece generalizing base with
  | nil => exact .refl
  | cons first rest ih =>
    obtain ⟨here, holds⟩ := holds_cons.mp holds
    rw [List.all_cons, Bool.and_eq_true] at straight
    have path := ih holds straight.2
    rw [Nat.add_assoc, Nat.add_comm 1] at path
    exact .next (move_straight here straight.1) path

end

end C0
