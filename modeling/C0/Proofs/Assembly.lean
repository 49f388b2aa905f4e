import C0.CheckedProgram
import Mathlib.Algebra.Ring.Nat
import Mathlib.Data.List.Basic
import Mathlib.Logic.Function.Basic
import Mathlib.Tactic.Common

namespace C0

/-- The branch that leads from a site to a target. -/
def branchTo (target site : Nat) : Instruction :=
  .branch .always (Int32.ofInt ((target : Int) - site - 1))

/-- A branch that was never given a target. -/
def openBranch : Instruction :=
  .branch .always 0

/-- The two ways in which a statement jumps to its loop. -/
inductive Jump where
  | leave
  | again
  deriving DecidableEq

/-- The branches of the jumps in a loop, by the position after the loop and that of its test. -/
def loopBranch (after recheck : Nat) : Jump → Nat → Instruction
  | .leave => branchTo after
  | .again => branchTo recheck

/-- The jumps in a loop are always taken. -/
theorem loopBranch_always (after recheck : Nat) (jump : Jump) (site : Nat) :
    ∃ offset, loopBranch after recheck jump site = .branch .always offset := by
  cases jump <;> exact ⟨_, rfl⟩

namespace Stmt

/-- The number of instructions of a statement. -/
def size : Stmt → Nat
  | skip => 0
  | seq first rest => first.size + rest.size
  | empty => 0
  | declare symbol value => (declareCode symbol value).length
  | evaluate expr => (evaluateCode expr).length
  | block body => body.size
  | conditional test yes no => test.code.length + 2 + yes.size + 1 + no.size
  | iteration test body => 1 + test.code.length + 2 + body.size + 1
  | leave => 1
  | again => 1
  | giveBack value => (returnCode value).length

/-- Whether the statement has a return statement in it. -/
def returns : Stmt → Bool
  | seq first rest => first.returns || rest.returns
  | block body => body.returns
  | conditional _ yes no => yes.returns || no.returns
  | iteration _ body => body.returns
  | giveBack _ => true
  | _ => false

/-- Where a statement that starts at a position jumps to the loop around it. -/
def sites (jump : Jump) : Stmt → Nat → List Nat
  | seq first rest, base => first.sites jump base ++ rest.sites jump (base + first.size)
  | block body, base => body.sites jump base
  | conditional test yes no, base =>
    yes.sites jump (base + test.code.length + 2) ++
      no.sites jump (base + test.code.length + 2 + yes.size + 1)
  | leave, base => if jump = .leave then [base] else []
  | again, base => if jump = .again then [base] else []
  | _, _ => []

/-- The code of a statement from a position on. What stands at a jump to the loop around the
statement is told by the position of the jump. -/
def assembled : Stmt → (onJump : Jump → Nat → Instruction) → Nat → List Instruction
  | skip, _, _ => []
  | seq first rest, onJump, base =>
    first.assembled onJump base ++ rest.assembled onJump (base + first.size)
  | empty, _, _ => []
  | declare symbol value, _, _ => declareCode symbol value
  | evaluate expr, _, _ => evaluateCode expr
  | block body, onJump, base => body.assembled onJump base
  | conditional test yes no, onJump, base =>
    let choice := base + test.code.length
    let toNo := choice + 2 + yes.size + 1
    test.code ++ .branch .onTrue 1 :: branchTo toNo (choice + 1) ::
      (yes.assembled onJump (choice + 2) ++
        branchTo (toNo + no.size) (choice + 2 + yes.size) :: no.assembled onJump toNo)
  | iteration test body, _, base =>
    let choice := base + 1 + test.code.length
    let after := choice + 2 + body.size + 1
    branchTo (base + 1) base :: (test.code ++ .branch .onTrue 1 :: branchTo after (choice + 1) ::
      (body.assembled (loopBranch after (base + 1)) (choice + 2) ++
        [branchTo (base + 1) (choice + 2 + body.size)]))
  | leave, onJump, base => [onJump .leave base]
  | again, onJump, base => [onJump .again base]
  | giveBack value, _, _ => returnCode value

@[simp] theorem assembled_length (stmt : Stmt) (onJump : Jump → Nat → Instruction) (base : Nat) :
    (stmt.assembled onJump base).length = stmt.size := by
  induction stmt generalizing onJump base with
  | seq first rest ihFirst ihRest => simp [assembled, size, ihFirst, ihRest]
  | block body ih => simp [assembled, size, ih]
  | conditional test yes no ihYes ihNo =>
    simp only [assembled, size, List.length_append, List.length_cons, ihYes, ihNo]
    omega
  | iteration test body ih =>
    simp only [assembled, size, List.length_append, List.length_cons, List.length_nil, ih]
    omega
  | _ => rfl

end Stmt

namespace Routine

variable {routine : Routine} {code : List Instruction} {returned : Bool}

/-- A function with other code. -/
def coded (routine : Routine) (code : List Instruction) (returned : Bool) : Routine :=
  { routine with code := code.toArray, returned }

theorem nextPosition_coded (site : Nat) (atEnd : code.length = site) :
    (routine.coded code returned).nextPosition = site := by
  simpa [coded, nextPosition] using atEnd

@[simp] theorem append_coded (more : List Instruction) :
    (routine.coded code returned).append more = routine.coded (code ++ more) returned := by
  simp [coded, append]

@[simp] theorem push_coded (instruction : Instruction) :
    (routine.coded code returned).push instruction =
      routine.coded (code ++ [instruction]) returned := by
  simp [coded, push]

theorem placeholder_coded {site : Nat} (atEnd : code.length = site) :
    (routine.coded code returned).placeholder =
      (site, routine.coded (code ++ [openBranch]) returned) := by
  simp [placeholder, openBranch, nextPosition_coded site atEnd]

/-- An open branch is pointed to its target wherever it stands in the code. -/
theorem patch_coded {site : Nat} (target : Nat) (before after : List Instruction)
    (split : code = before ++ openBranch :: after) (atSite : before.length = site) :
    (routine.coded code returned).patch site target =
      routine.coded (before ++ branchTo target site :: after) returned := by
  subst split atSite
  simp [coded, patch, branchTo, openBranch]

theorem patchAll_append (first rest : List Nat) (target : Nat) :
    routine.patchAll (first ++ rest) target =
      (routine.patchAll first target).patchAll rest target := by
  simp [patchAll]

end Routine

namespace Stmt

variable {routine : Routine} {returned : Bool}

/-- Patching the jumps of one kind gives each of them its branch and leaves the other code. -/
theorem patchAll_sites {jump : Jump} {onJump : Jump → Nat → Instruction}
    (waiting : ∀ site, onJump jump site = openBranch) (target : Nat) (stmt : Stmt) (base : Nat)
    (before after : List Instruction) (atBase : before.length = base) :
    (routine.coded (before ++ (stmt.assembled onJump base ++ after)) returned).patchAll
        (stmt.sites jump base) target =
      routine.coded (before ++
        (stmt.assembled (Function.update onJump jump (branchTo target)) base ++ after))
        returned := by
  induction stmt generalizing before after base with
  | seq first rest ihFirst ihRest =>
    simp only [assembled, sites, Routine.patchAll_append, List.append_assoc]
    rw [ihFirst base before _ atBase]
    have inRest := ihRest (base + first.size)
      (before ++ first.assembled (Function.update onJump jump (branchTo target)) base) after
      (by simp [atBase])
    simpa only [List.append_assoc] using inRest
  | block body ih => exact ih base before after atBase
  | conditional test yes no ihYes ihNo =>
    simp only [assembled, sites, Routine.patchAll_append]
    generalize toYes : base + test.code.length + 2 = yesBase
    generalize toNo : yesBase + yes.size + 1 = noBase
    generalize branchTo noBase _ = skipYes
    generalize branchTo (noBase + no.size) _ = skipNo
    -- The jumps stand in the two branches. What comes before a branch is moved out of its way.
    have inYes := ihYes yesBase (before ++ test.code ++ [.branch .onTrue 1, skipYes])
      (skipNo :: (no.assembled onJump noBase ++ after)) (by simp [← toYes, atBase]; omega)
    have inNo := ihNo noBase (before ++ test.code ++ [.branch .onTrue 1, skipYes] ++
        yes.assembled (Function.update onJump jump (branchTo target)) yesBase ++ [skipNo]) after
      (by simp [← toNo, ← toYes, atBase]; omega)
    simp only [List.append_assoc, List.cons_append, List.nil_append] at inYes inNo ⊢
    rw [inYes, inNo]
  | leave =>
    cases jump with
    | leave =>
      simp only [assembled, sites, if_true, Function.update_self, waiting]
      exact Routine.patch_coded target before after rfl atBase
    | again => simp [assembled, sites, Routine.patchAll]
  | again =>
    cases jump with
    | leave => simp [assembled, sites, Routine.patchAll]
    | again =>
      simp only [assembled, sites, if_true, Function.update_self, waiting]
      exact Routine.patch_coded target before after rfl atBase
  | _ => rfl

theorem update_openBranch (after recheck : Nat) :
    Function.update (Function.update (fun _ _ => openBranch) Jump.leave (branchTo after)) Jump.again
      (branchTo recheck) = loopBranch after recheck := by
  funext jump
  cases jump <;> rfl

/-- The layout of a statement adds its assembled code and tells the jumps in it, which are open. -/
def Assembles (stmt : Stmt) : Prop :=
  ∀ (routine : Routine) (base : Nat) (before : List Instruction) (returned : Bool),
    before.length = base →
      stmt.layOut (routine.coded before returned) =
        (routine.coded (before ++ stmt.assembled (fun _ _ => openBranch) base)
            (returned || stmt.returns),
          ⟨stmt.sites .leave base, stmt.sites .again base⟩)

theorem Assembles.seq {first rest : Stmt} (ofFirst : first.Assembles) (ofRest : rest.Assembles) :
    (Stmt.seq first rest).Assembles := by
  intro routine base before returned atBase
  have inRest := ofRest routine (base + first.size)
    (before ++ first.assembled (fun _ _ => openBranch) base) (returned || first.returns)
    (by simp [atBase])
  simp only [layOut, ofFirst routine base before returned atBase, inRest, assembled, sites, returns,
    Jumps.append, List.append_assoc, Bool.or_assoc]

/-- The branch over the first part of a conditional is patched after that part and its own last
branch, and the last branch is patched after the second part. -/
theorem Assembles.conditional {test : Expr} {yes no : Stmt} (ofYes : yes.Assembles)
    (ofNo : no.Assembles) : (Stmt.conditional test yes no).Assembles := by
  intro routine base before returned atBase
  simp only [layOut, assembled, sites, returns, Routine.append_coded, Routine.push_coded]
  generalize toYes : base + test.code.length + 2 = yesBase
  generalize toNo : yesBase + yes.size + 1 = noBase
  generalize atHead : before ++ test.code ++ [Instruction.branch .onTrue 1] = head
  have headLength : head.length = base + test.code.length + 1 := by
    simp [← atHead, atBase]; omega
  rw [Routine.placeholder_coded headLength]
  dsimp only
  rw [ofYes routine yesBase _ _ (by simp [headLength, toYes])]
  dsimp only
  generalize inYes : yes.assembled (fun _ _ => openBranch) yesBase = yesCode
  have yesLength : yesCode.length = yes.size := by rw [← inYes, assembled_length]
  have yesEnd : (head ++ [openBranch] ++ yesCode).length = yesBase + yes.size := by
    simp [headLength, yesLength, ← toYes]; omega
  rw [Routine.placeholder_coded yesEnd]
  dsimp only
  rw [Routine.nextPosition_coded noBase (by rw [List.length_append, yesEnd, ← toNo]; rfl),
    Routine.patch_coded noBase head (yesCode ++ [openBranch]) (by simp) headLength]
  generalize atMiddle : head ++ branchTo noBase _ :: yesCode = middle
  have middleLength : middle.length = yesBase + yes.size := by rw [← yesEnd, ← atMiddle]; simp
  rw [← List.cons_append, ← List.append_assoc, atMiddle,
    ofNo routine noBase _ _ (by simp [middleLength, toNo])]
  dsimp only
  rw [Routine.nextPosition_coded (noBase + no.size) (by simp [middleLength, ← toNo]; omega),
    Routine.patch_coded _ middle (no.assembled (fun _ _ => openBranch) noBase) (by simp)
      middleLength]
  simp [← atMiddle, ← atHead, Jumps.append, Bool.or_assoc]

/-- All branches of a loop have their targets at its end, those of the jumps in its body too. -/
theorem Assembles.iteration {test : Expr} {body : Stmt} (ofBody : body.Assembles) :
    (Stmt.iteration test body).Assembles := by
  intro routine base before returned atBase
  simp only [layOut, assembled, sites, returns]
  rw [Routine.placeholder_coded atBase]
  dsimp only
  rw [Routine.nextPosition_coded (base + 1) (by simp [atBase]),
    Routine.patch_coded _ before [] rfl atBase, Routine.append_coded, Routine.push_coded]
  generalize toBody : base + 1 + test.code.length + 2 = bodyBase
  generalize toAfter : bodyBase + body.size + 1 = after
  generalize atHead : before ++ [branchTo (base + 1) base] ++ test.code ++
    [Instruction.branch .onTrue 1] = head
  have headLength : head.length = base + 1 + test.code.length + 1 := by
    simp [← atHead, atBase]; omega
  rw [Routine.placeholder_coded headLength]
  dsimp only
  rw [ofBody routine bodyBase _ _ (by simp [headLength, toBody])]
  dsimp only
  have bodyEnd : (head ++ [openBranch] ++ body.assembled (fun _ _ => openBranch) bodyBase).length =
      bodyBase + body.size := by
    simp [headLength, ← toBody]; omega
  rw [Routine.placeholder_coded bodyEnd]
  dsimp only
  rw [Routine.patch_coded (base + 1) _ [] rfl bodyEnd,
    Routine.nextPosition_coded after (by rw [List.length_append, bodyEnd, ← toAfter]; rfl),
    Routine.patch_coded after head (body.assembled (fun _ _ => openBranch) bodyBase ++
      [branchTo (base + 1) (bodyBase + body.size)]) (by simp) headLength]
  generalize branchTo after (base + 1 + test.code.length + 1) = exit
  have bodyStart : (head ++ [exit]).length = bodyBase := by simp [headLength, toBody]
  rw [← List.singleton_append, ← List.append_assoc,
    patchAll_sites (fun _ => rfl) after body bodyBase _ _ bodyStart,
    patchAll_sites (fun _ => rfl) (base + 1) body bodyBase _ _ bodyStart, update_openBranch]
  simp [← atHead, Jumps.none]

/-- The layout of every statement is its assembled code. -/
theorem assembles (stmt : Stmt) : stmt.Assembles := by
  induction stmt with
  | seq first rest ihFirst ihRest => exact ihFirst.seq ihRest
  | block body ih => exact ih
  | conditional test yes no ihYes ihNo => exact ihYes.conditional ihNo
  | iteration test body ih => exact ih.iteration
  | leave | again =>
    intro routine base before returned atBase
    simp [layOut, assembled, sites, returns, Routine.placeholder_coded atBase]
  | giveBack value =>
    intro routine base before returned atBase
    simp only [layOut, Routine.append_coded]
    simp [assembled, sites, returns, Jumps.none, Routine.coded]
  | skip | empty | declare symbol value | evaluate expr =>
    intro routine base before returned atBase
    simp [layOut, assembled, sites, returns, Jumps.none]

/-- At the start of a function the layout of a statement is its assembled code. -/
theorem layOut_ofSignature (signature : Signature) (frame : Frame) (stmt : Stmt) :
    stmt.layOut (.ofSignature signature frame) =
      ((Routine.ofSignature signature frame).coded (stmt.assembled (fun _ _ => openBranch) 0)
          stmt.returns,
        ⟨stmt.sites .leave 0, stmt.sites .again 0⟩) :=
  stmt.assembles (.ofSignature signature frame) 0 [] false rfl

end Stmt

/-- A function has the code of its body. A return follows it unless all routes return before. -/
theorem Routine.ofBody?_code {signature : Signature} {frame : Frame} {body : Stmt}
    {routine : Routine} (made : Routine.ofBody? signature frame body = some routine) :
    (routine.allRoutesReturn = true ∧
        routine.code.toList = body.assembled (fun _ _ => openBranch) 0) ∨
      (signature.returnType = .void ∧
        routine.code.toList = body.assembled (fun _ _ => openBranch) 0 ++ [.plain .ret]) := by
  simp only [ofBody?, Stmt.layOut_ofSignature, finish?] at made
  split at made
  · rename_i returns
    rw [Bool.and_eq_true] at returns
    cases Option.some.inj made
    exact .inl ⟨returns.2, rfl⟩
  · split at made
    · rename_i void
      cases Option.some.inj made
      exact .inr ⟨void, by simp [push, coded]⟩
    · simp at made

/-- A function has the signature and as many local slots as its frame. -/
theorem Routine.ofBody?_head {signature : Signature} {frame : Frame} {body : Stmt}
    {routine : Routine} (made : Routine.ofBody? signature frame body = some routine) :
    routine.toSignature = signature ∧ routine.locals = frame.locals := by
  simp only [ofBody?, Stmt.layOut_ofSignature, finish?] at made
  split at made
  · cases Option.some.inj made
    exact ⟨rfl, rfl⟩
  · split at made
    · cases Option.some.inj made
      exact ⟨rfl, rfl⟩
    · simp at made

end C0
