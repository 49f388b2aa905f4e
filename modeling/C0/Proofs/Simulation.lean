import C0.Proofs.Execution

namespace C0

@[simp] theorem Instruction.isStraight_plain (op : Op) :
    (Instruction.plain op).isStraight = (op != .ret) := by
  cases op <;> rfl

@[simp] theorem Instruction.isStraight_indexed (op : Indexed) (operand : UInt32) :
    (Instruction.indexed op operand).isStraight = true :=
  rfl

theorem Operator.instructions?_straight (op : Operator) (ty : Ty) :
    ((op.instructions? ty).getD []).all Instruction.isStraight = true := by
  cases op <;> cases ty <;> rfl

@[simp] theorem Place.instruction_straight (place : Place) : place.instruction.isStraight = true := by
  cases place <;> rfl

@[simp] theorem Callee.instruction_straight (callee : Callee) :
    callee.instruction.isStraight = true := by
  cases callee <;> rfl

theorem storeCode_straight {place : Place} {value : List Instruction}
    (straight : value.all Instruction.isStraight = true) :
    (storeCode place value).all Instruction.isStraight = true := by
  simp only [storeCode, List.all_append, List.all_cons, place.instruction_straight, straight]
  rfl

mutual

/-- The code of an expression has no branch and no return in it. -/
theorem Expr.code_straight : ∀ e : Expr, e.code.all Instruction.isStraight = true
  | .int _ | .double _ | .char _ | .text _ _ => rfl
  | .load source => by simp [Expr.code]
  | .assign target value => storeCode_straight value.code_straight
  | .call callee arguments => by
    simp only [Expr.code, List.cons_append, List.all_cons, List.all_append,
      Expr.codeAll_straight arguments, callee.instruction_straight]
    rfl
  | .group inner => inner.code_straight
  | .cast source target operand => by
    simp only [Expr.code, List.all_append, operand.code_straight]
    cases source <;> cases target <;> rfl
  | .unary op ty operand => by
    simp only [Expr.code, List.all_append, operand.code_straight, op.instructions?_straight]
    rfl
  | .binary op ty left right => by
    simp only [Expr.code, List.all_append, left.code_straight, right.code_straight,
      op.instructions?_straight]
    rfl

theorem Expr.codeAll_straight : ∀ es : List Expr,
    (Expr.codeAll es).all Instruction.isStraight = true
  | [] => rfl
  | first :: rest => by
    simp only [Expr.codeAll, List.all_append, first.code_straight, Expr.codeAll_straight rest]
    rfl

end

theorem declareCode_straight (symbol : Symbol) (value : Option Expr) :
    (declareCode symbol value).all Instruction.isStraight = true := by
  cases value with
  | none => rfl
  | some value => exact storeCode_straight value.code_straight

theorem evaluateCode_straight (expr : Expr) :
    (evaluateCode expr).all Instruction.isStraight = true := by
  rw [evaluateCode, List.all_append, expr.code_straight]
  split <;> rfl

/-- The code of a return before the return itself. -/
def returnedCode : Option Expr → List Instruction
  | none => [.indexed .arga 0]
  | some value => .indexed .arga 0 :: value.code ++ [.plain .store64]

theorem returnCode_eq (value : Option Expr) :
    returnCode value = returnedCode value ++ [.plain .ret] := by
  cases value <;> simp [returnCode, returnedCode]

theorem returnedCode_straight (value : Option Expr) :
    (returnedCode value).all Instruction.isStraight = true := by
  cases value with
  | none => rfl
  | some value =>
    simp only [returnedCode, List.cons_append, List.all_cons, List.all_append, value.code_straight]
    rfl

/-- Where a run comes to that executes a statement: past the statement, to one of the jumps in it,
or to its own end. -/
def Reaches (code : List Instruction) (onJump : Jump → Nat → Instruction)
    (sites : Jump → List Nat) (after : Nat) (config : Config) (trace : List Instruction) :
    Exit → Prop
  | .onward rest => Leads code config trace (.on after rest)
  | .jump jump rest => ∃ site ∈ sites jump, code[site]? = some (onJump jump site) ∧
      Leads code config trace (.on site rest)
  | .stop ending => Runs code config trace ending

section

variable {code trace before : List Instruction} {onJump : Jump → Nat → Instruction}
  {sites sites' : Jump → List Nat} {after after' : Nat} {config middle : Config} {exit : Exit}

theorem Reaches.from (reaches : Reaches code onJump sites after middle trace exit)
    (path : Leads code config before middle) :
    Reaches code onJump sites after config (before ++ trace) exit := by
  cases exit with
  | onward rest => exact path.trans reaches
  | jump jump rest =>
    obtain ⟨site, member, here, reaches⟩ := reaches
    exact ⟨site, member, here, path.trans reaches⟩
  | stop ending => exact path.runs reaches

/-- More jumps may be there, and the end of the statement may lead further. -/
theorem Reaches.within (reaches : Reaches code onJump sites after config trace exit)
    (more : ∀ jump, sites jump ⊆ sites' jump)
    (further : exit.passesRest = true ∨ ∀ rest, Leads code (.on after rest) [] (.on after' rest)) :
    Reaches code onJump sites' after' config trace exit := by
  cases exit with
  | onward rest =>
    rcases further with passes | further
    · simp [Exit.passesRest] at passes
    · exact reaches.silent (further rest)
  | jump jump rest =>
    obtain ⟨site, member, reaches⟩ := reaches
    exact ⟨site, more jump member, reaches⟩
  | stop ending => exact reaches

end

/-- A statement without jumps is reached from wherever its first branch leads. -/
theorem Reaches.after_silent {code trace : List Instruction} {onJump : Jump → Nat → Instruction}
    {after base : Nat} {tests : List Bool} {middle : Config} {exit : Exit}
    (reaches : Reaches code onJump (fun _ => []) after (.on base tests) trace exit)
    (moves : move code (.on base tests) = ([], .inl middle)) (further : base < after) :
    Reaches code onJump (fun _ => []) after middle trace exit := by
  cases exit with
  | onward rest =>
    refine Leads.after_silent reaches moves fun same => ?_
    simp only [Config.on, Config.mk.injEq, Int.natCast_inj] at same
    omega
  | jump jump rest =>
    obtain ⟨site, member, _⟩ := reaches
    simp at member
  | stop ending => exact Runs.after_silent reaches moves

/-- The parts of a conditional in the code and the ways between them. -/
structure ChoiceCode (code : List Instruction) (onJump : Jump → Nat → Instruction) (base : Nat)
    (test : Expr) (yes no : Stmt) (choice yesBase noBase after : Nat) : Prop where
  tests : ∀ tests, Leads code (.on base tests) test.code (.on choice tests)
  waits : Runs code (.on choice []) [] .waiting
  toYes : ∀ tests, Leads code (.on choice (true :: tests)) [] (.on yesBase tests)
  toNo : ∀ tests, Leads code (.on choice (false :: tests)) [] (.on noBase tests)
  inYes : Holds code yesBase (yes.assembled onJump yesBase)
  inNo : Holds code noBase (no.assembled onJump noBase)
  pastNo : ∀ tests, Leads code (.on (yesBase + yes.size) tests) [] (.on after tests)

theorem Stmt.conditional_size (base : Nat) (test : Expr) (yes no : Stmt) :
    base + (Stmt.conditional test yes no).size =
      base + test.code.length + 2 + yes.size + 1 + no.size := by
  simp only [Stmt.size]
  omega

theorem choiceCode_of_holds {code : List Instruction} {onJump : Jump → Nat → Instruction}
    {base : Nat} {test : Expr} {yes no : Stmt} (short : code.length < 2 ^ 31)
    (holds : Holds code base ((Stmt.conditional test yes no).assembled onJump base))
    (room : base + (Stmt.conditional test yes no).size ≤ code.length) :
    ChoiceCode code onJump base test yes no (base + test.code.length)
      (base + test.code.length + 2) (base + test.code.length + 2 + yes.size + 1)
      (base + test.code.length + 2 + yes.size + 1 + no.size) := by
  simp only [Stmt.size] at room
  simp only [Stmt.assembled, holds_append, holds_cons, Stmt.assembled_length] at holds
  obtain ⟨ofTest, branch, skipYes, ofYes, skipNo, ofNo⟩ := holds
  refine ⟨fun tests => leads_straight ofTest test.code_straight, .last (move_waits branch),
    fun tests => .one (move_test branch true), fun tests => ?_, ofYes, ofNo, fun tests => ?_⟩
  · exact .trans (.one (move_test branch false)) (.one (move_branchTo skipYes (by omega) short))
  · exact .one (move_branchTo skipNo (by omega) short)

/-- The parts of a loop in the code and the ways between them. -/
structure LoopCode (code : List Instruction) (base : Nat) (test : Expr) (body : Stmt)
    (choice bodyBase after : Nat) : Prop where
  enters : ∀ tests, move code (.on base tests) = ([], .inl (.on (base + 1) tests))
  tests : ∀ tests, Leads code (.on (base + 1) tests) test.code (.on choice tests)
  waits : Runs code (.on choice []) [] .waiting
  toBody : ∀ tests, Leads code (.on choice (true :: tests)) [] (.on bodyBase tests)
  toEnd : ∀ tests, Leads code (.on choice (false :: tests)) [] (.on after tests)
  inBody : Holds code bodyBase (body.assembled (loopBranch after (base + 1)) bodyBase)
  back : ∀ tests, Leads code (.on (bodyBase + body.size) tests) [] (.on (base + 1) tests)
  leaves : ∀ site tests, code[site]? = some (loopBranch after (base + 1) .leave site) →
    Leads code (.on site tests) [] (.on after tests)
  repeats : ∀ site tests, code[site]? = some (loopBranch after (base + 1) .again site) →
    Leads code (.on site tests) [] (.on (base + 1) tests)

theorem Stmt.iteration_size (base : Nat) (test : Expr) (body : Stmt) :
    base + (Stmt.iteration test body).size =
      base + 1 + test.code.length + 2 + body.size + 1 := by
  simp only [Stmt.size]
  omega

theorem loopCode_of_holds {code : List Instruction} {onJump : Jump → Nat → Instruction}
    {base : Nat} {test : Expr} {body : Stmt} (short : code.length < 2 ^ 31)
    (holds : Holds code base ((Stmt.iteration test body).assembled onJump base))
    (room : base + (Stmt.iteration test body).size ≤ code.length) :
    LoopCode code base test body (base + 1 + test.code.length)
      (base + 1 + test.code.length + 2) (base + 1 + test.code.length + 2 + body.size + 1) := by
  simp only [Stmt.size] at room
  simp only [Stmt.assembled, holds_append, holds_cons, Stmt.assembled_length] at holds
  obtain ⟨start, ofTest, branch, exit, ofBody, back, _⟩ := holds
  refine ⟨fun tests => move_branchTo start (by omega) short,
    fun tests => leads_straight ofTest test.code_straight, .last (move_waits branch),
    fun tests => .one (move_test branch true), fun tests => ?_, ofBody, fun tests => ?_,
    fun site tests here => ?_, fun site tests here => ?_⟩
  · exact .trans (.one (move_test branch false)) (.one (move_branchTo exit (by omega) short))
  · exact .one (move_branchTo back (by omega) short)
  · exact .one (move_branchTo here (by omega) short)
  · exact .one (move_branchTo here (by omega) short)

/-- A round of a loop begins with the test. -/
theorem LoopCode.starts {code : List Instruction} {base choice bodyBase after : Nat} {test : Expr}
    {body : Stmt} (parts : LoopCode code base test body choice bodyBase after)
    (tests : List Bool) :
    Leads code (.on base (true :: tests)) test.code (.on bodyBase tests) :=
  .next (parts.enters _) ((parts.tests _).silent (parts.toBody tests))

/-- A round of a loop ends before the test, unless the loop is left. -/
theorem LoopCode.ends {code trace : List Instruction} {base choice bodyBase after : Nat}
    {test : Expr} {body : Stmt} {sites : Jump → List Nat} {config : Config} {exit : Exit}
    (parts : LoopCode code base test body choice bodyBase after) (round : exit.goesRound = true)
    (ofBody : Reaches code (loopBranch after (base + 1)) sites (bodyBase + body.size) config trace
      exit) :
    Leads code config trace (.on (base + 1) exit.tests) := by
  cases exit with
  | onward rest => exact Leads.silent ofBody (parts.back rest)
  | jump jump rest =>
    cases jump with
    | leave => simp [Exit.goesRound] at round
    | again =>
      obtain ⟨site, _, here, path⟩ := ofBody
      exact path.silent (parts.repeats site rest here)
  | stop ending => simp [Exit.goesRound] at round

namespace Stmt

/-- Code that holds a statement executes what the statement does by its structure. The induction is
on the execution. A loop is entered once through its first branch and from then on by its test, so
that branch is taken off where a round leads to the next. -/
theorem Executes.reaches {code : List Instruction} {stmt : Stmt} {tests : List Bool}
    {trace : List Instruction} {exit : Exit} (run : stmt.Executes tests trace exit)
    (short : code.length < 2 ^ 31) (onJump : Jump → Nat → Instruction) (base : Nat)
    (holds : Holds code base (stmt.assembled onJump base))
    (room : base + stmt.size ≤ code.length) :
    Reaches code onJump (stmt.sites · base) (base + stmt.size) (.on base tests) trace exit := by
  induction run generalizing onJump base with
  | skip | empty => exact .refl
  | @seq tests first rest trace more middle exit _ _ ihFirst ihRest =>
    simp only [assembled, holds_append, assembled_length] at holds
    have sum : base + (Stmt.seq first rest).size = base + first.size + rest.size := by
      simp only [size]; omega
    rw [sum] at room ⊢
    have ofFirst := ihFirst onJump base holds.1 (by omega)
    have ofRest := ihRest onJump (base + first.size) holds.2 room
    exact (ofRest.within (fun jump => List.subset_append_right _ _) (.inr fun rest => .refl)).from
      ofFirst
  | @cut tests first rest trace exit _ passes ih =>
    simp only [assembled, holds_append, assembled_length, size] at holds room
    have ofFirst := ih onJump base holds.1 (by omega)
    exact ofFirst.within (fun jump => List.subset_append_left _ _) (.inl passes)
  | declare =>
    exact leads_straight holds (declareCode_straight _ _)
  | evaluate =>
    exact leads_straight holds (evaluateCode_straight _)
  | block _ ih => exact ih onJump base holds room
  | @choiceWaits test yes no =>
    have parts := choiceCode_of_holds short holds room
    exact (parts.tests []).runs_silent parts.waits
  | @yes tests test yes no trace exit _ ih =>
    have parts := choiceCode_of_holds short holds room
    simp only [size] at room
    have ofYes := ih onJump _ parts.inYes (by omega)
    rw [conditional_size]
    exact (ofYes.within (fun jump => List.subset_append_left _ _) (.inr parts.pastNo)).from
      ((parts.tests _).silent (parts.toYes tests))
  | @no tests test yes no trace exit _ ih =>
    have parts := choiceCode_of_holds short holds room
    rw [conditional_size] at room ⊢
    have ofNo := ih onJump _ parts.inNo room
    exact (ofNo.within (fun jump => List.subset_append_right _ _) (.inr fun rest => .refl)).from
      ((parts.tests _).silent (parts.toNo tests))
  | @loopWaits test body =>
    have parts := loopCode_of_holds short holds room
    exact .next (parts.enters _) ((parts.tests []).runs_silent parts.waits)
  | @ended tests test body =>
    have parts := loopCode_of_holds short holds room
    rw [iteration_size]
    exact .next (parts.enters _) ((parts.tests _).silent (parts.toEnd tests))
  -- The next round would enter through the first branch again, so that one is taken off.
  | @round tests test body trace more middle exit _ round _ ihBody ihNext =>
    have parts := loopCode_of_holds short holds room
    have next := ihNext onJump base holds room
    rw [iteration_size] at room next ⊢
    have ofBody := ihBody _ _ parts.inBody (by omega)
    have again := Reaches.after_silent next (parts.enters _) (by omega)
    exact again.from ((parts.starts tests).trans (parts.ends round ofBody))
  | @left tests test body trace rest _ ih =>
    have parts := loopCode_of_holds short holds room
    rw [iteration_size] at room ⊢
    obtain ⟨site, _, here, path⟩ := ih _ _ parts.inBody (by omega)
    exact (parts.starts tests).trans (path.silent (parts.leaves site rest here))
  | @stopped tests test body trace ending _ ih =>
    have parts := loopCode_of_holds short holds room
    rw [iteration_size] at room
    have ofBody := ih _ _ parts.inBody (by omega)
    exact (parts.starts tests).runs ofBody
  | leave =>
    exact ⟨base, by simp [sites], by simpa [assembled] using holds, .refl⟩
  | again =>
    exact ⟨base, by simp [sites], by simpa [assembled] using holds, .refl⟩
  | @giveBack tests value =>
    simp only [assembled, returnCode_eq, holds_append, holds_cons] at holds
    rw [returnCode_eq]
    exact (leads_straight holds.1 (returnedCode_straight value)).runs (.last (move_ret holds.2.1))

end Stmt

end C0
