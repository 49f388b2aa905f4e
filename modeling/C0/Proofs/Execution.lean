import C0.Proofs.Machine

namespace C0

/-- How a statement ends, with the outcomes of the tests that are still to come. -/
inductive Exit where
  /-- The next statement follows. -/
  | onward (tests : List Bool)
  /-- The statement after the innermost loop follows, or the test of that loop. -/
  | jump (jump : Jump) (tests : List Bool)
  /-- Nothing follows: the function returned, or the outcome of a test is not given. -/
  | stop (ending : Ending)

namespace Exit

/-- The outcomes that are left. -/
def tests : Exit → List Bool
  | onward tests => tests
  | jump _ tests => tests
  | stop _ => []

/-- Whether the rest of the statements in a block is passed over. -/
def passesRest : Exit → Bool
  | onward _ => false
  | jump _ _ => true
  | stop _ => true

/-- Whether the body of a loop was left so that the loop tests again. -/
def goesRound : Exit → Bool
  | onward _ => true
  | jump .again _ => true
  | jump .leave _ => false
  | stop _ => false

end Exit

/-- What a statement executes by its structure, for given outcomes of the tests in it, and how it
ends. A test is executed before its outcome is asked for. -/
inductive Stmt.Executes : Stmt → List Bool → List Instruction → Exit → Prop
  | skip {tests} : Executes .skip tests [] (.onward tests)
  | seq {tests first rest trace more middle exit} :
      Executes first tests trace (.onward middle) → Executes rest middle more exit →
      Executes (.seq first rest) tests (trace ++ more) exit
  | cut {tests first rest trace exit} : Executes first tests trace exit →
      exit.passesRest = true → Executes (.seq first rest) tests trace exit
  | empty {tests} : Executes .empty tests [] (.onward tests)
  | declare {tests symbol value} :
      Executes (.declare symbol value) tests (declareCode symbol value) (.onward tests)
  | evaluate {tests expr} : Executes (.evaluate expr) tests (evaluateCode expr) (.onward tests)
  | block {tests body trace exit} : Executes body tests trace exit →
      Executes (.block body) tests trace exit
  | choiceWaits {test yes no} :
      Executes (.conditional test yes no) [] test.code (.stop .waiting)
  | yes {tests test yes no trace exit} : Executes yes tests trace exit →
      Executes (.conditional test yes no) (true :: tests) (test.code ++ trace) exit
  | no {tests test yes no trace exit} : Executes no tests trace exit →
      Executes (.conditional test yes no) (false :: tests) (test.code ++ trace) exit
  | loopWaits {test body} : Executes (.iteration test body) [] test.code (.stop .waiting)
  | ended {tests test body} :
      Executes (.iteration test body) (false :: tests) test.code (.onward tests)
  | round {tests test body trace more middle exit} : Executes body tests trace middle →
      middle.goesRound = true → Executes (.iteration test body) middle.tests more exit →
      Executes (.iteration test body) (true :: tests) (test.code ++ trace ++ more) exit
  | left {tests test body trace rest} : Executes body tests trace (.jump .leave rest) →
      Executes (.iteration test body) (true :: tests) (test.code ++ trace) (.onward rest)
  | stopped {tests test body trace ending} : Executes body tests trace (.stop ending) →
      Executes (.iteration test body) (true :: tests) (test.code ++ trace) (.stop ending)
  | leave {tests} : Executes .leave tests [] (.jump .leave tests)
  | again {tests} : Executes .again tests [] (.jump .again tests)
  | giveBack {tests value} : Executes (.giveBack value) tests (returnCode value) (.stop .returned)

namespace Stmt

/-- Every loop ends for want of outcomes at the latest. -/
theorem iteration_executes {test : Expr} {body : Stmt}
    (inBody : ∀ tests, ∃ trace exit, body.Executes tests trace exit ∧
      exit.tests.length ≤ tests.length) (tests : List Bool) :
    ∃ trace exit, (Stmt.iteration test body).Executes tests trace exit ∧
      exit.tests.length ≤ tests.length := by
  generalize bound : tests.length = n
  induction n using Nat.strongRecOn generalizing tests with
  | ind n ih =>
    cases tests with
    | nil => exact ⟨_, _, .loopWaits, by simp [Exit.tests]⟩
    | cons holds tests =>
      rw [List.length_cons] at bound
      cases holds with
      | false => exact ⟨_, _, .ended, by simp only [Exit.tests]; omega⟩
      | true =>
        obtain ⟨trace, middle, run, shorter⟩ := inBody tests
        by_cases round : middle.goesRound = true
        · obtain ⟨more, exit, again, shorter'⟩ := ih _ (by omega) middle.tests rfl
          exact ⟨_, _, .round run round again, by omega⟩
        · cases middle with
          | onward rest => simp [Exit.goesRound] at round
          | jump jump rest =>
            cases jump with
            | again => simp [Exit.goesRound] at round
            | leave => exact ⟨_, _, .left run, by simp only [Exit.tests] at shorter ⊢; omega⟩
          | stop ending => exact ⟨_, _, .stopped run, by simp [Exit.tests]⟩

/-- A statement executes something and ends, whatever the outcomes of its tests. -/
theorem executes_total (stmt : Stmt) (tests : List Bool) :
    ∃ trace exit, stmt.Executes tests trace exit ∧ exit.tests.length ≤ tests.length := by
  induction stmt generalizing tests with
  | skip => exact ⟨_, _, .skip, Nat.le_refl _⟩
  | seq first rest ihFirst ihRest =>
    obtain ⟨trace, exit, run, shorter⟩ := ihFirst tests
    by_cases passes : exit.passesRest = true
    · exact ⟨_, _, .cut run passes, shorter⟩
    · cases exit with
      | onward middle =>
        obtain ⟨more, exit, run', shorter'⟩ := ihRest middle
        exact ⟨_, _, .seq run run', Nat.le_trans shorter' shorter⟩
      | _ => simp [Exit.passesRest] at passes
  | empty => exact ⟨_, _, .empty, Nat.le_refl _⟩
  | declare symbol value => exact ⟨_, _, .declare, Nat.le_refl _⟩
  | evaluate expr => exact ⟨_, _, .evaluate, Nat.le_refl _⟩
  | block body ih =>
    obtain ⟨trace, exit, run, shorter⟩ := ih tests
    exact ⟨_, _, .block run, shorter⟩
  | conditional test yes no ihYes ihNo =>
    cases tests with
    | nil => exact ⟨_, _, .choiceWaits, Nat.le_refl _⟩
    | cons holds tests =>
      cases holds with
      | true =>
        obtain ⟨trace, exit, run, shorter⟩ := ihYes tests
        exact ⟨_, _, .yes run, by rw [List.length_cons]; omega⟩
      | false =>
        obtain ⟨trace, exit, run, shorter⟩ := ihNo tests
        exact ⟨_, _, .no run, by rw [List.length_cons]; omega⟩
  | iteration test body ih => exact iteration_executes ih tests
  | leave => exact ⟨_, _, .leave, Nat.le_refl _⟩
  | again => exact ⟨_, _, .again, Nat.le_refl _⟩
  | giveBack value => exact ⟨_, _, .giveBack, by simp [Exit.tests]⟩

end Stmt

end C0
