import C0.Proofs.SinglePass.Function

namespace C0

namespace SinglePass

/-- How routines read and write at a depth that leaves so many levels, each one if enough calls may
be active: they come to what the analysis comes to, add its code, and leave the depth as it was. -/
structure Level (source : String) (calls : Routines) (depth left active : Nat) : Prop where
  assignment : 5 * left + 1 ≤ active → ∀ {scope} name site,
    WritesExpr source depth scope
      (Analysis.assignment (Analysis.expressionBelow left) scope name site)
      (calls.assignment scope.rank name (locate source site))
  arguments : 5 * left + 1 ≤ active → ∀ {scope},
    WritesArguments source depth scope (Analysis.arguments (Analysis.expressionBelow left) scope)
      (calls.arguments scope.rank)
  libraryCall : 5 * left + 1 ≤ active → ∀ {scope} name function site,
    Library.ofName? name = some function →
      WritesExpr source depth scope (Analysis.call (Analysis.expressionBelow left) scope name site)
        (calls.libraryCall scope.rank function)
  call : 5 * left + 2 ≤ active → ∀ {scope} name site,
    WritesExpr source depth scope (Analysis.call (Analysis.expressionBelow left) scope name site)
      (calls.call scope.rank name (locate source site))
  primary : 5 * left + 3 ≤ active → ∀ {scope},
    WritesExpr source depth scope (Analysis.primary (Analysis.expressionBelow left) scope)
      (calls.primary scope.rank)
  operand : 5 * left + 4 ≤ active → ∀ {scope},
    WritesExpr source depth scope (Analysis.operand (Analysis.expressionBelow left) scope)
      (calls.operand scope.rank)
  expression : 5 * left + 5 ≤ active →
    MirrorsExpr source depth (Analysis.expression left) calls.expression
  declaration : 5 * left + 6 ≤ active → ∀ {scope},
    WritesStmt source depth scope (Analysis.declaration (Analysis.expression left) scope)
      (calls.declaration scope.rank)
  giveBack : 5 * left + 6 ≤ active → ∀ {scope},
    WritesStmt source depth scope (Analysis.giveBack (Analysis.expression left) scope)
      (calls.giveBack scope.rank)
  loopJump : 1 ≤ active → ∀ {scope} jump,
    WritesStmt source depth scope (Analysis.loopJump scope (jumpStmt jump)) (calls.loopJump jump)
  conditional : 5 * left + 1 ≤ active → ∀ {scope},
    WritesStmt source depth scope (Analysis.conditional (Analysis.readersBelow left) scope)
      (calls.conditional scope.rank)
  iteration : 5 * left + 1 ≤ active → ∀ {scope},
    WritesStmt source depth scope (Analysis.iteration (Analysis.readersBelow left) scope)
      (calls.iteration scope.rank)
  block : 5 * left + 3 ≤ active → ∀ {scope desk}, Stage scope depth desk →
    Mirrors source (At desk) (Analysis.block (Analysis.readersBelow left) scope)
      (calls.block scope.rank)
      (Yields (fun result => locate source result.2) fun result => desk.lay result.1)
  statement : 5 * left + 7 ≤ active → ∀ {scope},
    WritesStmt source depth scope
      (Analysis.statement ⟨Analysis.expression left, Analysis.nested left⟩ scope)
      (calls.statement scope.rank)
  function : 5 * left + 4 ≤ active → ∀ {desk}, Stage Analysis.globalScope depth desk →
    Mirrors source (At desk) (Analysis.function left) calls.function (Yields id fun _ => desk)

theorem Level.readers {source : String} {calls : Routines} {depth left active : Nat}
    (level : Level source calls depth left active) (enough : 5 * left + 5 ≤ active) :
    MirrorsReaders source depth calls ⟨Analysis.expression left, Analysis.nested left⟩ where
  moves := ⟨Analysis.expression_forward left, Analysis.nested_shortens left⟩
  expression := level.expression enough
  block {scope desk} stage := by
    dsimp only
    rw [Analysis.nested_eq]
    exact (level.block (by omega) stage).seq fun _ => .pure fun _ _ same => ⟨trivial, rfl, same⟩
  conditional {scope desk} stage := by
    dsimp only
    rw [Analysis.nested_eq]
    exact level.conditional (by omega) stage

/-- All levels behave well. The induction is on the calls that may be active: a routine calls the
others at its own level or at the next one with one call less. -/
theorem level_of_add (source : String) (limit active depth left : Nat)
    (sum : depth + left = limit) :
    Level source (routines .exact limit active) depth left active := by
  induction active generalizing depth left with
  | zero => constructor <;> intro enough <;> omega
  | succ active ih =>
    have here := ih depth left sum
    -- One level further in is asked for only where a level is left.
    have reads (enough : 5 * left ≤ active) :
        Allowed (MirrorsExpr source (depth + 1) · (routines .exact limit active).expression) limit
          depth (Analysis.expressionBelow left) := by
      cases left with
      | zero => exact .none (by omega)
      | succ left =>
        exact .some (by omega) ((ih (depth + 1) left (by omega)).expression (by omega))
    have constructs (enough : 5 * left ≤ active) :
        Allowed (MirrorsReaders source (depth + 1) (routines .exact limit active)) limit depth
          (Analysis.readersBelow left) := by
      cases left with
      | zero => exact .none (by omega)
      | succ left =>
        exact .some (by omega) ((ih (depth + 1) left (by omega)).readers (by omega))
    have statements (enough : 5 * left + 2 ≤ active) :
        Allowed (fun readers => Analysis.ReadersMove readers ∧
          ∀ {scope}, WritesStmt source (depth + 1) scope (Analysis.statement readers scope)
            ((routines .exact limit active).statement scope.rank)) limit depth
          (Analysis.readersBelow left) := by
      cases left with
      | zero => exact .none (by omega)
      | succ left =>
        have next := ih (depth + 1) left (by omega)
        exact .some (by omega) ⟨(next.readers (by omega)).moves,
          fun {_} => next.statement (by omega)⟩
    exact {
      assignment enough scope name site desk stage :=
        assignment_mirrors (reads (by omega)) stage name site
      arguments enough scope desk stage := arguments_mirrors (reads (by omega)) stage
      libraryCall enough scope name function site known desk stage :=
        libraryCall_mirrors (reads (by omega)) stage known site
      call enough scope name site desk stage :=
        call_mirrors stage (here.arguments (by omega)) (here.libraryCall (by omega)) name site
      primary enough scope desk stage :=
        primary_mirrors stage (here.assignment (by omega)) (here.call (by omega))
          (reads (by omega))
      operand enough scope desk stage := operand_mirrors stage (here.primary (by omega))
      expression enough := by
        refine ⟨Analysis.expression_forward left, fun {scope} desk stage => ?_⟩
        rw [Analysis.expression_eq]
        exact expression_mirrors (Analysis.expressionBelow_forward left)
          (here.operand (by omega)) stage
      declaration enough scope desk stage :=
        declaration_mirrors (here.expression (by omega)).mirrors stage
      giveBack enough scope desk stage :=
        giveBack_mirrors (here.expression (by omega)).mirrors stage
      loopJump enough scope jump desk stage := loopJump_mirrors stage jump
      conditional enough scope desk stage := conditional_mirrors (constructs (by omega)) stage
      iteration enough scope desk stage := iteration_mirrors (constructs (by omega)) stage
      block enough scope desk stage := block_mirrors (statements (by omega)) stage
      statement enough scope desk stage :=
        statement_mirrors stage (here.readers (by omega)) (here.declaration (by omega))
          (by
            dsimp only
            rw [Analysis.nested_eq]
            exact here.iteration (by omega))
          (here.giveBack (by omega)) (here.loopJump (by omega))
      function enough desk stage := function_mirrors (here.block (by omega)) stage }

end SinglePass

end C0
