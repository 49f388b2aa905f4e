import C0.Proofs.ControlFlow

namespace C0

namespace Stmt

/-- Whether a statement may be followed by the next one, judged by its form alone. -/
def falls : Stmt → Bool
  | seq first rest => first.falls && rest.falls
  | block body => body.falls
  | conditional _ yes no => yes.falls || no.falls
  | leave => false
  | again => false
  | giveBack _ => false
  | _ => true

theorem Executes.falls {stmt : Stmt} {tests rest : List Bool} {trace : List Instruction}
    (run : stmt.Executes tests trace (.onward rest)) : stmt.falls = true := by
  generalize same : Exit.onward rest = exit at run
  induction run generalizing rest with
  | seq _ _ ihFirst ihRest => rw [Stmt.falls, ihFirst rfl, ihRest same, Bool.and_self]
  | cut _ passes ih =>
    subst same
    simp [Exit.passesRest] at passes
  | block _ ih => exact ih same
  | yes _ ih => rw [Stmt.falls, ih same, Bool.true_or]
  | no _ ih => rw [Stmt.falls, ih same, Bool.or_true]
  | choiceWaits | leave | again | giveBack => simp at same
  | _ => rfl

/-- A statement that falls is run to its end for some outcomes of its tests. A loop is so when its
first test fails. -/
theorem exists_executes_onward {stmt : Stmt} (falls : stmt.falls = true) (rest : List Bool) :
    ∃ tests trace, stmt.Executes tests trace (.onward rest) := by
  induction stmt generalizing rest with
  | skip => exact ⟨_, _, .skip⟩
  | seq first later ihFirst ihLater =>
    rw [Stmt.falls, Bool.and_eq_true] at falls
    obtain ⟨middle, more, ofLater⟩ := ihLater falls.2 rest
    obtain ⟨tests, trace, ofFirst⟩ := ihFirst falls.1 middle
    exact ⟨_, _, .seq ofFirst ofLater⟩
  | empty => exact ⟨_, _, .empty⟩
  | declare symbol value => exact ⟨_, _, .declare⟩
  | evaluate expr => exact ⟨_, _, .evaluate⟩
  | block body ih =>
    obtain ⟨tests, trace, run⟩ := ih falls rest
    exact ⟨_, _, .block run⟩
  | conditional test yes no ihYes ihNo =>
    rw [Stmt.falls, Bool.or_eq_true] at falls
    rcases falls with falls | falls
    · obtain ⟨tests, trace, run⟩ := ihYes falls rest
      exact ⟨_, _, .yes run⟩
    · obtain ⟨tests, trace, run⟩ := ihNo falls rest
      exact ⟨_, _, .no run⟩
  | iteration test body => exact ⟨_, _, .ended⟩
  | leave | again | giveBack value => simp [Stmt.falls] at falls

/-- What does not fall has a return in it, unless it jumps to a loop around it. -/
theorem returns_of_not_falls {stmt : Stmt} {base : Nat} (stays : stmt.falls = false)
    (alone : ∀ jump, stmt.sites jump base = []) : stmt.returns = true := by
  induction stmt generalizing base with
  | seq first rest ihFirst ihRest =>
    simp only [sites, List.append_eq_nil_iff] at alone
    rw [falls, Bool.and_eq_false_iff] at stays
    rcases stays with stays | stays
    · rw [returns, ihFirst stays fun jump => (alone jump).1, Bool.true_or]
    · rw [returns, ihRest stays fun jump => (alone jump).2, Bool.or_true]
  | block body ih => exact ih stays alone
  | conditional test yes no ihYes ihNo =>
    simp only [sites, List.append_eq_nil_iff] at alone
    rw [falls, Bool.or_eq_false_iff] at stays
    rw [returns, ihYes stays.1 fun jump => (alone jump).1, Bool.true_or]
  | leave => simpa [sites] using alone .leave
  | again => simpa [sites] using alone .again
  | giveBack value => rfl
  | _ => simp [falls] at stays

theorem branch_not_mem_of_straight {code : List Instruction}
    (straight : code.all Instruction.isStraight = true) (test : Branch) (offset : Int32) :
    .branch test offset ∉ code := by
  intro member
  simpa [Instruction.isStraight] using List.all_eq_true.mp straight _ member

/-- No branch is taken on a test that fails. -/
theorem onFalse_not_mem_assembled {onJump : Jump → Nat → Instruction} (offset : Int32)
    (onJumps : ∀ jump site, onJump jump site ≠ .branch .onFalse offset) (stmt : Stmt) (base : Nat) :
    .branch .onFalse offset ∉ stmt.assembled onJump base := by
  induction stmt generalizing onJump base with
  | skip | empty => simp [assembled]
  | seq first rest ihFirst ihRest =>
    rw [assembled, List.mem_append, not_or]
    exact ⟨ihFirst onJumps _, ihRest onJumps _⟩
  | declare symbol value => exact branch_not_mem_of_straight (declareCode_straight _ _) _ _
  | evaluate expr => exact branch_not_mem_of_straight (evaluateCode_straight _) _ _
  | block body ih => exact ih onJumps _
  | conditional test yes no ihYes ihNo =>
    have inTest := branch_not_mem_of_straight test.code_straight .onFalse offset
    simp [assembled, branchTo, inTest, ihYes onJumps, ihNo onJumps]
  | iteration test body ih =>
    have inTest := branch_not_mem_of_straight test.code_straight .onFalse offset
    have inLoop (after recheck : Nat) (jump : Jump) (site : Nat) :
        loopBranch after recheck jump site ≠ .branch .onFalse offset := by
      cases jump <;> simp [loopBranch, branchTo]
    simp [assembled, branchTo, inTest, ih (inLoop _ _)]
  | leave => simpa [assembled] using (onJumps .leave base).symm
  | again => simpa [assembled] using (onJumps .again base).symm
  | giveBack value =>
    rw [assembled, returnCode_eq, List.mem_append, not_or]
    exact ⟨branch_not_mem_of_straight (returnedCode_straight _) _ _, by simp⟩

/-- A run through code that begins with a body does not leave the code, if there is a return after
the body or the body does not fall. -/
theorem runs_ne_outside {code trace : List Instruction} {body : Stmt} {tests : List Bool}
    (short : code.length < 2 ^ 31)
    (holds : Holds code 0 (body.assembled (fun _ _ => openBranch) 0))
    (room : body.size ≤ code.length)
    (alone : ∀ jump, body.sites jump 0 = [])
    (ends : body.falls = true → code[body.size]? = some (.plain .ret)) :
    ¬ Runs code (.on 0 tests) trace .outside := by
  intro outside
  obtain ⟨executed, exit, run, _⟩ := body.executes_total tests
  have reaches := run.reaches short _ 0 holds (by omega)
  rw [Nat.zero_add] at reaches
  cases exit with
  | onward rest =>
    have path : Leads code (.on 0 tests) executed (.on body.size rest) := reaches
    have other := outside.unique (path.runs (.last (move_ret (ends run.falls))))
    simp at other
  | jump jump rest =>
    obtain ⟨site, member, _⟩ := reaches
    simp [alone] at member
  | stop ending =>
    obtain ⟨_, rfl⟩ := outside.unique reaches
    simpa using run.ending

end Stmt

namespace Routine

variable (signature : Signature) (frame : Frame) {body : Stmt}

/-- The function with the code of a body and no return after it. -/
def laid (signature : Signature) (frame : Frame) (body : Stmt) : Routine :=
  (body.layOut (ofSignature signature frame)).1

theorem laid_eq (body : Stmt) : laid signature frame body =
    (ofSignature signature frame).coded (body.assembled (fun _ _ => openBranch) 0)
      body.returns :=
  congrArg Prod.fst (body.layOut_ofSignature signature frame)

theorem laid_code (body : Stmt) :
    (laid signature frame body).code.toList = body.assembled (fun _ _ => openBranch) 0 := by
  simp [laid_eq, coded]

theorem onFalse_not_mem_laid (body : Stmt) (offset : Int32) :
    .branch .onFalse offset ∉ (laid signature frame body).code.toList := by
  rw [laid_code]
  exact body.onFalse_not_mem_assembled offset (by simp [openBranch]) 0

section

variable (alone : ∀ jump, body.sites jump 0 = [])

include alone

/-- All routes through a body return if and only if the body does not fall. -/
theorem allRoutesReturn_laid (short : body.size < 2 ^ 31) :
    (laid signature frame body).allRoutesReturn = !body.falls := by
  have size : (body.assembled (fun _ _ => openBranch) 0).length = body.size := by simp
  rw [Bool.eq_iff_iff, allRoutesReturn_iff_runs (onFalse_not_mem_laid signature frame body),
    laid_code,
    Bool.not_eq_true']
  constructor
  · intro stays
    by_contra falls
    obtain ⟨tests, trace, run⟩ := Stmt.exists_executes_onward (Bool.of_not_eq_false falls) []
    have path := run.reaches (by rwa [size]) _ 0 (holds_self _) (by omega)
    have past : (body.assembled (fun _ _ => openBranch) 0)[body.size]? = none := by
      rw [List.getElem?_eq_none_iff, size]
    rw [Nat.zero_add] at path
    exact stays tests _ (Leads.runs path (.last (move_outside.mpr ⟨rfl, past⟩)))
  · intro stays tests trace
    exact Stmt.runs_ne_outside (by rwa [size]) (holds_self _) (by omega) alone (by simp [stays])

/-- Whether a body has a return does not matter for whether a function is accepted. -/
theorem returned_of_allRoutesReturn_laid (short : body.size < 2 ^ 31)
    (returns : (laid signature frame body).allRoutesReturn = true) :
    (laid signature frame body).returned = true := by
  rw [allRoutesReturn_laid signature frame alone short, Bool.not_eq_true'] at returns
  rw [laid_eq]
  exact Stmt.returns_of_not_falls returns alone

/-- What becomes of a body is told by whether it falls. -/
theorem ofBody?_eq (short : body.size < 2 ^ 31) : ofBody? signature frame body =
    if body.falls = true then
      if signature.returnType = .void then some ((laid signature frame body).push (.plain .ret))
      else none
    else some (laid signature frame body) := by
  have returned := returned_of_allRoutesReturn_laid signature frame alone short
  have sameType : (laid signature frame body).returnType = signature.returnType := by
    rw [laid_eq]
    rfl
  change (laid signature frame body).finish? = _
  rw [finish?, sameType]
  rw [allRoutesReturn_laid signature frame alone short] at returned ⊢
  cases falls : body.falls with
  | true => simp
  | false =>
    rw [returned (by simp [falls])]
    simp

/-- All routes through a function return. -/
theorem allRoutesReturn_ofBody? {routine : Routine}
    (made : ofBody? signature frame body = some routine) (short : body.size + 1 < 2 ^ 31) :
    routine.allRoutesReturn = true := by
  rw [ofBody?_eq signature frame alone (by omega)] at made
  split at made
  · split at made
    · cases Option.some.inj made
      have code : ((laid signature frame body).push (.plain .ret)).code.toList =
          body.assembled (fun _ _ => openBranch) 0 ++ [.plain .ret] := by
        rw [← laid_code signature frame body]
        simp [push]
      have known (offset : Int32) : .branch .onFalse offset ∉
          body.assembled (fun _ _ => openBranch) 0 ++ [.plain .ret] := by
        rw [← laid_code signature frame body, List.mem_append, not_or]
        exact ⟨onFalse_not_mem_laid signature frame body offset, by simp⟩
      rw [allRoutesReturn_iff_runs (by rwa [code]), code]
      intro tests trace
      refine Stmt.runs_ne_outside ?_ (holds_append.mp (holds_self _)).1 (by simp) alone fun _ => ?_
      · simpa using short
      · rw [List.getElem?_append_right (by simp)]
        simp
    · simp at made
  · rename_i stays
    cases Option.some.inj made
    rw [allRoutesReturn_laid signature frame alone (by omega)]
    simpa using stays

end

end Routine

end C0
