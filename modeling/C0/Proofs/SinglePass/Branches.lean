import C0.Proofs.SinglePass
import Mathlib.Data.Finset.Lattice.Lemmas
import Mathlib.Data.Finset.SDiff
import Mathlib.Data.List.Nodup

namespace C0

namespace Jumps

/-- The branches of both kinds. -/
def all (jumps : Jumps) : List Nat :=
  jumps.leaving ++ jumps.repeating

/-- Jumps of both parts are jumps of the whole. -/
theorem mem_all_append {first rest : Jumps} {site : Nat} :
    site ∈ (first.append rest).all ↔ site ∈ first.all ∨ site ∈ rest.all := by
  simp only [all, append, List.mem_append]
  tauto

@[simp] theorem all_none : Jumps.none.all = [] :=
  rfl

theorem append_none (jumps : Jumps) : jumps.append .none = jumps := by
  simp [append, none]

theorem append_assoc (first middle rest : Jumps) :
    (first.append middle).append rest = first.append (middle.append rest) := by
  simp [append]

end Jumps

namespace Stmt

/-- The jumps of a statement stand in its code. -/
theorem sites_assembled {jump : Jump} {site : Nat} (stmt : Stmt)
    (onJump : Jump → Nat → Instruction) (base : Nat) (member : site ∈ stmt.sites jump base) :
    base ≤ site ∧ (stmt.assembled onJump base)[site - base]? = some (onJump jump site) := by
  induction stmt generalizing base with
  | seq first rest ihFirst ihRest =>
    rcases List.mem_append.mp member with before | after
    · obtain ⟨low, here⟩ := ihFirst base before
      obtain ⟨inside, _⟩ := List.getElem?_eq_some_iff.mp here
      refine ⟨low, ?_⟩
      rw [assembled, List.getElem?_append_left inside, here]
    · obtain ⟨low, here⟩ := ihRest _ after
      refine ⟨by omega, ?_⟩
      rw [assembled, List.getElem?_append_right (by simp; omega), assembled_length, Nat.sub_sub,
        here]
  | block body ih => exact ih base member
  | conditional test yes no ihYes ihNo =>
    -- What stands before the branch with the jump is told apart from the branch by its length.
    have behind (before after : List Instruction) (rest : List Instruction) (start : Nat)
        (length : before.length = start - base) (low : base ≤ start) (above : start ≤ site)
        (here : after[site - start]? = some (onJump jump site)) :
        (before ++ (after ++ rest))[site - base]? = some (onJump jump site) := by
      obtain ⟨inside, _⟩ := List.getElem?_eq_some_iff.mp here
      have index : site - base - before.length = site - start := by omega
      rw [List.getElem?_append_right (by omega), index, List.getElem?_append_left inside, here]
    simp only [assembled]
    generalize branchTo _ (base + test.code.length + 1) = skipYes
    generalize branchTo _ (base + test.code.length + 2 + yes.size) = skipNo
    rcases List.mem_append.mp member with inYes | inNo
    · obtain ⟨low, here⟩ := ihYes _ inYes
      refine ⟨by omega, ?_⟩
      have found := behind (test.code ++ [.branch .onTrue 1, skipYes]) _
        (skipNo :: no.assembled onJump (base + test.code.length + 2 + yes.size + 1)) _
        (by simp; omega) (by omega) low here
      simpa using found
    · obtain ⟨low, here⟩ := ihNo _ inNo
      refine ⟨by omega, ?_⟩
      have found := behind (test.code ++ [.branch .onTrue 1, skipYes] ++
        yes.assembled onJump (base + test.code.length + 2) ++ [skipNo]) _ [] _
        (by simp; omega) (by omega) low here
      simpa using found
  | leave =>
    cases jump with
    | leave => simp_all [sites, assembled]
    | again => simp [sites] at member
  | again =>
    cases jump with
    | leave => simp [sites] at member
    | again => simp_all [sites, assembled]
  | _ => simp [sites] at member

/-- A statement jumps from inside its own code. -/
theorem sites_bounds {jump : Jump} {site base : Nat} {stmt : Stmt}
    (member : site ∈ stmt.sites jump base) : base ≤ site ∧ site < base + stmt.size := by
  obtain ⟨low, here⟩ := stmt.sites_assembled (fun _ _ => openBranch) base member
  obtain ⟨inside, _⟩ := List.getElem?_eq_some_iff.mp here
  rw [assembled_length] at inside
  omega

/-- The jumps of one kind are told in the order in which they stand in the code. -/
theorem sites_sorted (jump : Jump) (stmt : Stmt) (base : Nat) :
    (stmt.sites jump base).Pairwise (· < ·) := by
  induction stmt generalizing base with
  | seq first rest ihFirst ihRest =>
    refine List.pairwise_append.mpr ⟨ihFirst _, ihRest _, fun site before site' after => ?_⟩
    have above := (sites_bounds before).2
    have below := (sites_bounds after).1
    omega
  | block body ih => exact ih base
  | conditional test yes no ihYes ihNo =>
    refine List.pairwise_append.mpr ⟨ihYes _, ihNo _, fun site before site' after => ?_⟩
    have above := (sites_bounds before).2
    have below := (sites_bounds after).1
    omega
  | leave | again => cases jump <;> simp [sites]
  | _ => exact List.Pairwise.nil

/-- No jump is of both kinds. -/
theorem sites_disjoint (stmt : Stmt) (base : Nat) :
    List.Disjoint (stmt.sites .leave base) (stmt.sites .again base) := by
  intro site leaves repeats
  -- The code can be such that it tells the kinds apart.
  obtain ⟨onJump, apart⟩ : ∃ onJump : Jump → Nat → Instruction,
      onJump .leave site ≠ onJump .again site :=
    ⟨fun jump _ => if jump = .leave then .plain .ret else .plain .load64, by simp⟩
  have first := (stmt.sites_assembled onJump base leaves).2
  have second := (stmt.sites_assembled onJump base repeats).2
  exact apart (Option.some.inj (first.symm.trans second))

/-- What the layout of a statement makes of a function: its code stays, more code follows, and the
jumps that are told are different open branches in that code. -/
structure LaidOut (before after : Routine) (jumps : Jumps) : Prop where
  signature : after.toSignature = before.toSignature
  frame : after.toFrame = before.toFrame
  kept : ∀ site < before.code.size, after.code[site]? = before.code[site]?
  size : before.code.size ≤ after.code.size
  open_jumps : ∀ site ∈ jumps.all, before.code.size ≤ site ∧ after.code[site]? = some openBranch
  distinct : jumps.all.Nodup

/-- The layout does this for every statement, whatever was there before. -/
theorem laidOut (stmt : Stmt) (routine : Routine) :
    LaidOut routine (stmt.layOut routine).1 (stmt.layOut routine).2 := by
  have laid := stmt.assembles routine routine.code.size routine.code.toList routine.returned
    (by simp)
  have same : routine.coded routine.code.toList routine.returned = routine := rfl
  rw [same] at laid
  have jumps (site : Nat) (member : site ∈ (stmt.layOut routine).2.all) :
      ∃ jump, site ∈ stmt.sites jump routine.code.size := by
    rw [laid] at member
    rcases List.mem_append.mp member with leaves | repeats
    · exact ⟨.leave, leaves⟩
    · exact ⟨.again, repeats⟩
  constructor
  case signature => rw [laid]; rfl
  case frame => rw [laid]; rfl
  case kept =>
    intro site inside
    rw [laid]
    simp [Routine.coded, List.getElem?_append_left, inside]
  case size => rw [laid]; simp [Routine.coded]
  case open_jumps =>
    intro site member
    obtain ⟨jump, member⟩ := jumps site member
    obtain ⟨low, here⟩ := stmt.sites_assembled (fun _ _ => openBranch) _ member
    refine ⟨low, ?_⟩
    rw [laid]
    simp [Routine.coded, List.getElem?_append_right, low, here]
  case distinct =>
    rw [laid]
    exact List.nodup_append'.mpr ⟨(stmt.sites_sorted _ _).nodup, (stmt.sites_sorted _ _).nodup,
      stmt.sites_disjoint _⟩

end Stmt

namespace Routine

/-- A patched jump is in the code only. -/
theorem patch_toSignature (routine : Routine) (site target : Nat) :
    (routine.patch site target).toSignature = routine.toSignature := by
  unfold patch
  split <;> rfl

theorem patchAll_toSignature (routine : Routine) (sites : List Nat) (target : Nat) :
    (routine.patchAll sites target).toSignature = routine.toSignature := by
  induction sites generalizing routine with
  | nil => rfl
  | cons site sites ih => exact (ih _).trans (patch_toSignature _ _ _)

end Routine

namespace Desk

variable {desk : Desk}

/-- The branches that wait are there and have no target. -/
def Open (desk : Desk) : Prop :=
  ∀ site ∈ desk.waiting, desk.target.code[site]? = some openBranch

/-- The code of a statement is added, and its jumps wait for the end of the innermost loop. -/
def lay (desk : Desk) (stmt : Stmt) : Desk :=
  let laid := stmt.layOut desk.target
  { desk with target := laid.1, waiting := desk.waiting ∪ laid.2.all.toFinset }.note laid.2

/-- A branch without a target is added. -/
def held (desk : Desk) : Desk :=
  desk.placeholder.2

/-- Branches are given a target. -/
def patched (desk : Desk) (sites : List Nat) (target : Nat) : Desk :=
  { desk with
    target := desk.target.patchAll sites target
    waiting := desk.waiting \ sites.toFinset }

/-- A site that waits was written. -/
theorem Open.lt_size (waits : desk.Open) {site : Nat} (member : site ∈ desk.waiting) :
    site < desk.target.code.size :=
  (Array.getElem?_eq_some_iff.mp (waits site member)).1

theorem size_patch (routine : Routine) (site target : Nat) :
    (routine.patch site target).code.size = routine.code.size := by
  unfold Routine.patch
  split <;> simp

/-- A site that waits is patched without an alarm. -/
theorem patch_eq (waits : desk.Open) {site : Nat} (member : site ∈ desk.waiting) (target : Nat) :
    desk.patch site target = .ok (desk.patched [site] target) := by
  simp [patch, patched, member, waits site member, Routine.patchAll, Finset.erase_eq]

/-- After a patch, the other sites still wait. -/
theorem Open.patch (waits : desk.Open) (site target : Nat) : (desk.patched [site] target).Open := by
  intro other member
  simp only [patched, List.toFinset_cons, List.toFinset_nil, insert_empty_eq, Finset.mem_sdiff,
    Finset.mem_singleton] at member
  have here := waits other member.1
  simp only [patched, Routine.patchAll, List.foldl_cons, List.foldl_nil, Routine.patch]
  split
  · rwa [Array.getElem?_setIfInBounds_ne (Ne.symm member.2)]
  · exact here

/-- Sites are patched one after another, in any number. -/
theorem patched_cons (site : Nat) (sites : List Nat) (target : Nat) :
    (desk.patched [site] target).patched sites target = desk.patched (site :: sites) target := by
  simp only [patched, Routine.patchAll, List.foldl_cons, List.foldl_nil, List.toFinset_cons,
    List.toFinset_nil, insert_empty_eq, sdiff_sdiff_left, Finset.sup_eq_union,
    Finset.insert_eq]

/-- Branches that wait can be given a target, each one once. -/
theorem patchAll_eq (waits : desk.Open) {sites : List Nat} (distinct : sites.Nodup)
    (members : ∀ site ∈ sites, site ∈ desk.waiting) (target : Nat) :
    desk.patchAll sites target = .ok (desk.patched sites target) ∧
      (desk.patched sites target).Open := by
  induction sites generalizing desk with
  | nil => exact ⟨by simp [patchAll, patched, Routine.patchAll, pure, Except.pure], by
      simpa [patched, Routine.patchAll] using waits⟩
  | cons site sites ih =>
    obtain ⟨new, distinct⟩ := List.nodup_cons.mp distinct
    have rest := ih (waits.patch site target) distinct fun other member => by
      have unequal : other ≠ site := fun same => new (same ▸ member)
      simpa [patched, unequal] using members other (.tail _ member)
    rw [patched_cons] at rest
    refine ⟨?_, rest.2⟩
    rw [patchAll, List.foldlM_cons, patch_eq waits (members site (.head _))]
    exact rest.1

/-- Sites still wait after more code. -/
theorem Open.write (waits : desk.Open) (code : List Instruction) : (desk.write code).Open := by
  intro site member
  have inside := waits.lt_size member
  simp only [Desk.write, Routine.append]
  rw [← Array.getElem?_toList, Array.toList_appendList,
    List.getElem?_append_left (by simpa using inside), Array.getElem?_toList, waits site member]

/-- A placeholder is one more site that waits. -/
theorem Open.held (waits : desk.Open) : desk.held.Open := by
  intro site member
  simp only [Desk.held, placeholder, Routine.placeholder, Routine.push, Finset.mem_insert,
    Routine.nextPosition] at member ⊢
  rcases member with rfl | member
  · simp [openBranch]
  · rw [Array.getElem?_push_lt (waits.lt_size member), ← waits site member]
    simp [waits.lt_size member]

/-- A statement leaves its own jumps out of loops among the sites that wait. -/
theorem Open.lay (waits : desk.Open) (stmt : Stmt) : (desk.lay stmt).Open := by
  intro site member
  have laid := stmt.laidOut desk.target
  rcases Finset.mem_union.mp member with old | new
  · exact (laid.kept site (waits.lt_size old)).trans (waits site old)
  · exact (laid.open_jumps site (List.mem_toFinset.mp new)).2

section

variable (desk : Desk)

@[simp] theorem waiting_write (code : List Instruction) :
    (desk.write code).waiting = desk.waiting :=
  rfl

@[simp] theorem nextPosition_write (code : List Instruction) :
    (desk.write code).target.nextPosition = desk.target.nextPosition + code.length := by
  simp [write, Routine.append, Routine.nextPosition, ← Array.length_toList]

@[simp] theorem waiting_held : desk.held.waiting = insert desk.target.nextPosition desk.waiting :=
  rfl

@[simp] theorem nextPosition_held :
    desk.held.target.nextPosition = desk.target.nextPosition + 1 := by
  simp [held, placeholder, Routine.placeholder, Routine.push, Routine.nextPosition]

@[simp] theorem waiting_patched (sites : List Nat) (target : Nat) :
    (desk.patched sites target).waiting = desk.waiting \ sites.toFinset :=
  rfl

@[simp] theorem nextPosition_patched (sites : List Nat) (target : Nat) :
    (desk.patched sites target).target.nextPosition = desk.target.nextPosition := by
  have size (routine : Routine) :
      (routine.patchAll sites target).code.size = routine.code.size := by
    induction sites generalizing routine with
    | nil => rfl
    | cons site sites ih => exact (ih _).trans (size_patch _ _ _)
  exact size desk.target

/-- The jumps of a statement that wait for the end of the loop around it. -/
def jumps (stmt : Stmt) : Jumps :=
  (stmt.layOut desk.target).2

@[simp] theorem waiting_lay (stmt : Stmt) :
    (desk.lay stmt).waiting = desk.waiting ∪ (desk.jumps stmt).all.toFinset :=
  rfl

/-- Code only grows. -/
theorem nextPosition_lay (stmt : Stmt) :
    desk.target.nextPosition ≤ (desk.lay stmt).target.nextPosition :=
  (stmt.laidOut desk.target).size

/-- The jumps of a statement stand in its code. -/
theorem jumps_bounds {stmt : Stmt} {site : Nat} (member : site ∈ (desk.jumps stmt).all) :
    desk.target.nextPosition ≤ site ∧ site < (desk.lay stmt).target.nextPosition := by
  obtain ⟨low, here⟩ := (stmt.laidOut desk.target).open_jumps site member
  exact ⟨low, (Array.getElem?_eq_some_iff.mp here).1⟩

end

theorem note_none (desk : Desk) : desk.note .none = desk := by
  have same (loops : List OpenLoop) :
      loops.modifyHead (fun loop => { loop with jumps := loop.jumps.append .none }) = loops := by
    cases loops <;> simp [Jumps.append_none]
  simp [note, same]

theorem note_note (desk : Desk) (first rest : Jumps) :
    (desk.note first).note rest = desk.note (first.append rest) := by
  simp [note, Function.comp_def, Jumps.append_assoc]

/-- A statement whose code has no jumps. -/
theorem lay_write {stmt : Stmt} {code : List Instruction}
    (coded : stmt.layOut desk.target = (desk.target.append code, .none)) :
    desk.lay stmt = desk.write code := by
  simp [lay, coded, write, note_none]

theorem lay_skip : desk.lay .skip = desk := by
  simp [lay, Stmt.layOut, note_none]

/-- A jump waits for the end of its loop. -/
theorem lay_jump {stmt : Stmt} {jump : Jump} (laid : stmt.layOut desk.target =
      (desk.held.target, .one jump desk.target.nextPosition)) :
    desk.lay stmt = desk.held.note (.one jump desk.target.nextPosition) := by
  have one : (Jumps.one jump desk.target.nextPosition).all = [desk.target.nextPosition] := by
    cases jump <;> rfl
  have waiting : desk.waiting ∪ [desk.target.nextPosition].toFinset = desk.held.waiting := by
    ext site
    simp [or_comm]
  rw [lay, laid, one, waiting]
  rfl

/-- A return. It is noted that there is one. -/
theorem lay_giveBack (value : Option Expr) : desk.lay (.giveBack value) =
    { desk.write (returnCode value) with
      target := { (desk.write (returnCode value)).target with returned := true } } := by
  simp only [lay, Stmt.layOut, Jumps.all_none, List.toFinset_nil, Finset.union_empty, note_none]
  rfl

theorem lay_seq (first rest : Stmt) : desk.lay (.seq first rest) = (desk.lay first).lay rest := by
  have jumps := note_note desk (first.layOut desk.target).2
    (rest.layOut (first.layOut desk.target).1).2
  simp only [note, Desk.mk.injEq, true_and, and_true] at jumps
  simp only [lay, Stmt.layOut, note, jumps, Desk.mk.injEq, true_and, and_true]
  ext site
  simp [Jumps.mem_all_append]

theorem lay_ofList (stmts : List Stmt) (stmt : Stmt) :
    desk.lay (.ofList (stmts ++ [stmt])) = (desk.lay (.ofList stmts)).lay stmt := by
  induction stmts generalizing desk with
  | nil => simp [Stmt.ofList, lay_seq, lay_skip]
  | cons first stmts ih => simp [Stmt.ofList, lay_seq, ih]

/-- A test and the branch behind it. -/
def tested (desk : Desk) (test : Expr) : Desk :=
  (desk.write test.code).write [.branch .onTrue 1]

theorem nextPosition_tested (desk : Desk) (test : Expr) :
    desk.target.nextPosition < (desk.tested test).target.nextPosition := by
  rw [tested, nextPosition_write, nextPosition_write, List.length_singleton]
  omega

/-- The first part of a conditional. The branches before and behind it wait. -/
def chosen (desk : Desk) (test : Expr) (yes : Stmt) : Desk :=
  ((desk.tested test).held.lay yes).held

/-- The two branches of a conditional wait until it is known where they lead. -/
theorem lay_conditional (waits : desk.Open) (test : Expr) (yes no : Stmt) :
    let skipYes := (desk.tested test).target.nextPosition
    let skipNo := ((desk.tested test).held.lay yes).target.nextPosition
    let chosen := desk.chosen test yes
    let laid := (chosen.patched [skipYes] chosen.target.nextPosition).lay no
    skipNo ∈ laid.waiting ∧
      laid.patched [skipNo] laid.target.nextPosition = desk.lay (.conditional test yes no) := by
  intro skipYes skipNo chosen laid
  have order : skipYes < skipNo := by
    have grows := nextPosition_lay (desk.tested test).held yes
    rwa [nextPosition_held] at grows
  generalize inYes : (desk.tested test).held.jumps yes = jumpsYes
  generalize inNo : (chosen.patched [skipYes] chosen.target.nextPosition).jumps no = jumpsNo
  have waiting : chosen.waiting =
      insert skipNo (insert skipYes desk.waiting ∪ jumpsYes.all.toFinset) := by
    rw [← inYes]
    rfl
  have waiting' : laid.waiting = chosen.waiting \ {skipYes} ∪ jumpsNo.all.toFinset := by
    rw [← inNo]
    rfl
  have laid_eq : desk.lay (.conditional test yes no) = { desk with
      target := laid.target.patch skipNo laid.target.nextPosition
      waiting := desk.waiting ∪ (jumpsYes.append jumpsNo).all.toFinset }.note
        (jumpsYes.append jumpsNo) := by
    rw [← inYes, ← inNo]
    rfl
  refine ⟨by simp [waiting, waiting', order.ne'], ?_⟩
  rw [laid_eq, ← note_note, ← inYes, ← inNo]
  refine Desk.ext rfl ?_ rfl rfl
  change laid.waiting \ {skipNo} = desk.waiting ∪ _
  rw [inYes, inNo, waiting', waiting]
  ext site
  have old (member : site ∈ desk.waiting) : site < skipYes :=
    Nat.lt_trans (waits.lt_size member) (nextPosition_tested desk test)
  have first (member : site ∈ jumpsYes.all) : skipYes < site ∧ site < skipNo := by
    have bounds := jumps_bounds _ (inYes ▸ member)
    rwa [nextPosition_held] at bounds
  have second (member : site ∈ jumpsNo.all) : skipNo < site := by
    have low := (jumps_bounds _ (inNo ▸ member)).1
    rw [nextPosition_patched] at low
    exact (nextPosition_held _).symm.trans_le low
  simp only [Finset.mem_sdiff, Finset.mem_union, Finset.mem_insert, List.mem_toFinset,
    Finset.mem_singleton, Jumps.mem_all_append]
  clear_value skipYes skipNo
  grind

/-- The start of a loop: a branch that leads to the test. -/
def begun (desk : Desk) : Desk :=
  desk.held.patched [desk.target.nextPosition] desk.held.target.nextPosition

/-- The test of a loop. The branch out of the loop waits. -/
def entered (desk : Desk) (test : Expr) : Desk :=
  (desk.begun.tested test).held

/-- The body of a loop, and the branch back to the test. The jumps in the body wait, but not for the
end of another loop. -/
def rounded (desk : Desk) (test : Expr) (body : Stmt) : Desk :=
  let closed := { (desk.entered test).lay body with loops := desk.loops }
  closed.held.patched [closed.target.nextPosition] desk.held.target.nextPosition

/-- The branches of a loop wait until it is known where they lead. None of them waits longer. -/
theorem lay_iteration (waits : desk.Open) (test : Expr) (body : Stmt) :
    let exit := (desk.begun.tested test).target.nextPosition
    let jumps := (desk.entered test).jumps body
    let rounded := desk.rounded test body
    let after := rounded.target.nextPosition
    let left := rounded.patched [exit] after
    let done := left.patched jumps.leaving after
    exit ∈ rounded.waiting ∧ (∀ site ∈ jumps.leaving, site ∈ left.waiting) ∧
      (∀ site ∈ jumps.repeating, site ∈ done.waiting) ∧
      done.patched jumps.repeating desk.held.target.nextPosition =
        desk.lay (.iteration test body) := by
  intro exit jumps rounded after left done
  generalize starts : desk.target.nextPosition = start
  generalize ends : ((desk.entered test).lay body).target.nextPosition = back
  -- The branches stand in this order: into the loop, out of it, those of the body, and back.
  have order : start < exit := by
    have grows := nextPosition_tested desk.begun test
    have low : start + 1 = desk.begun.target.nextPosition := by
      rw [begun, nextPosition_patched, nextPosition_held, starts]
    exact Nat.lt_of_succ_lt (low.trans_lt grows)
  have inside (site : Nat) (member : site ∈ jumps.all) : exit < site ∧ site < back := by
    have bounds := jumps_bounds _ member
    rwa [ends, entered, nextPosition_held] at bounds
  have order' : exit < back := by
    have grows := nextPosition_lay (desk.entered test) body
    rwa [ends, entered, nextPosition_held] at grows
  have waiting : rounded.waiting = insert back
      (insert exit (insert start desk.waiting \ {start}) ∪ jumps.all.toFinset) \ {back} := by
    rw [← starts, ← ends]
    rfl
  have same : desk.lay (.iteration test body) = { desk with
      target := (done.patched jumps.repeating desk.held.target.nextPosition).target } := by
    have laid := (note_none { desk with
      target := (done.patched jumps.repeating desk.held.target.nextPosition).target })
    rw [← laid]
    exact Desk.ext rfl (Finset.union_empty _) rfl rfl
  have distinct : jumps.all.Nodup := (body.laidOut (desk.entered test).target).distinct
  have apart := (List.nodup_append'.mp distinct).2.2
  have old (site : Nat) (member : site ∈ desk.waiting) : site < start :=
    starts ▸ waits.lt_size member
  refine ⟨?_, ?_, ?_, same ▸ Desk.ext rfl ?_ rfl rfl⟩
  · simp [waiting, order'.ne]
  · intro site member
    have bounds := inside site (List.mem_append_left _ member)
    simp [left, waiting, bounds.1.ne', bounds.2.ne, Jumps.all, member]
  · intro site member
    have bounds := inside site (List.mem_append_right _ member)
    have other : site ∉ jumps.leaving := fun leaves => apart leaves member
    simp [done, left, waiting, bounds.1.ne', bounds.2.ne, Jumps.all, member, other]
  · change ((rounded.waiting \ [exit].toFinset) \ jumps.leaving.toFinset) \
      jumps.repeating.toFinset = desk.waiting
    rw [waiting]
    ext site
    have before := old site
    -- With the order known, who waits is a matter of sets of sites.
    clear_value exit
    simp only [List.toFinset_cons, List.toFinset_nil, insert_empty_eq, Finset.mem_sdiff,
      Finset.mem_union, Finset.mem_insert, List.mem_toFinset, Finset.mem_singleton, Jumps.all,
      List.mem_append] at inside ⊢
    grind

end Desk

/-- Only targets of branches are other ones. -/
structure Desk.Retargeted (before after : Desk) : Prop where
  signature : after.target.toSignature = before.target.toSignature
  size : after.target.nextPosition = before.target.nextPosition
  loops : after.loops = before.loops
  depth : after.depth = before.depth

namespace Desk.Retargeted

variable {desk after : Desk} {target : Nat}

theorem patch {site : Nat} (patched : desk.patch site target = .ok after) :
    desk.Retargeted after := by
  unfold Desk.patch at patched
  split at patched
  · cases patched
    exact ⟨Routine.patch_toSignature _ _ _, Desk.size_patch _ _ _, rfl, rfl⟩
  · cases patched

theorem patchAll {sites : List Nat} (patched : desk.patchAll sites target = .ok after) :
    desk.Retargeted after := by
  induction sites generalizing desk with
  | nil =>
    cases patched
    exact ⟨rfl, rfl, rfl, rfl⟩
  | cons site sites ih =>
    rw [Desk.patchAll, List.foldlM_cons] at patched
    cases first : desk.patch site target with
    | error bad =>
      rw [first] at patched
      cases patched
    | ok between =>
      rw [first] at patched
      have one := Retargeted.patch first
      have rest := ih patched
      exact ⟨rest.signature.trans one.signature, rest.size.trans one.size,
        rest.loops.trans one.loops, rest.depth.trans one.depth⟩

end Desk.Retargeted

end C0
