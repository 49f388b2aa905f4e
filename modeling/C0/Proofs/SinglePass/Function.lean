import C0.Proofs.ControlFlow
import C0.Proofs.SinglePass.Statement

namespace C0

/-- A body that is accepted has its routine, and one that is refused has none. -/
theorem Definition.ofBody?_routine (signature : Signature) (frame : Frame) (body : Stmt) :
    (Definition.ofBody? signature frame body).map Definition.routine =
      Routine.ofBody? signature frame body := by
  unfold Definition.ofBody?
  split
  next _ made => exact made.symm
  next made => exact made.symm

/-- The layout of a body does not depend on the local slots, so they can be told afterwards. -/
theorem Routine.ofBody?_frame (signature : Signature) (frame frame' : Frame) (body : Stmt) :
    Routine.ofBody? signature frame body =
      { (body.layOut (.ofSignature signature frame')).1 with toFrame := frame }.finish? := by
  rw [ofBody?, Stmt.layOut_ofSignature, Stmt.layOut_ofSignature]
  rfl

namespace Desk

variable {desk : Desk}

/-- The desk at the start of a function. -/
def opened (desk : Desk) (signature : Signature) : Desk :=
  { desk with target := .ofSignature signature ⟨0⟩, waiting := ∅ }

/-- The desk at the start of a program. -/
def entry : Desk :=
  ⟨.ofSignature Analysis.globalScope.signature ⟨0⟩, ∅, [], 0⟩

/-- Nothing waits at the end of a body without jumps to a loop around it. -/
theorem lay_body {signature : Signature} {body : Stmt} (alone : ∀ jump, body.sites jump 0 = []) :
    (desk.opened signature).lay body = { desk with
      target := (body.layOut (.ofSignature signature ⟨0⟩)).1
      waiting := ∅ } := by
  have jumps : (body.layOut (.ofSignature signature ⟨0⟩)).2 = .none := by
    rw [Stmt.layOut_ofSignature, alone, alone]
    rfl
  simp only [lay, opened, jumps, Jumps.all_none, List.toFinset_nil, Finset.union_empty, note_none]

/-- The address of the entry function can be told at its end. -/
theorem entry_target (stmts : List Stmt) (code : List Instruction) (address : Nat) :
    { ((entry.lay (.ofList stmts)).write code).target with address } =
      ((Stmt.ofList stmts).layOut
        (.ofSignature ⟨entryName, address, [], .void⟩ ⟨0⟩)).1.append code := by
  have target : (entry.lay (.ofList stmts)).target = _ :=
    congrArg Prod.fst (Stmt.layOut_ofSignature Analysis.globalScope.signature ⟨0⟩ (.ofList stmts))
  rw [write, target, Stmt.layOut_ofSignature]
  rfl

end Desk

namespace SinglePass

section

variable {source : String} {desk : Desk}

theorem param_mirrors (before : Signature) :
    Mirrors source (At desk) (Analysis.param before) (param .exact before)
      (Mirrors.Both (Yields id fun _ => desk) (Yields id fun _ => desk)) := by
  simp only [param, param?_exact, pure_bind]
  refine .eat_bind fun const => .expectIdentifier_bind fun word => .expect_bind fun _ =>
    .expectValueType_bind fun ty => ?_
  have same : before.addParam ⟨word.name, (const.map (locate source)).isSome, ty⟩
        (locate source word.site) =
      ((before.addParam ⟨word.name, const.isSome, ty⟩ word.site).map id).mapError
        (Fault.mapSite (locate source)) := by
    rw [Option.isSome_map, Signature.addParam, Signature.addParam]
    cases before.param? word.name <;> rfl
  refine (Mirrors.orFail same).seq fun signature => .eat_bind fun comma => ?_
  cases comma with
  | none => exact .pure fun _ _ same => ⟨trivial, rfl, same⟩
  | some site => exact .pure fun _ _ same => ⟨trivial, rfl, same⟩

theorem params_mirrors (before : Signature) :
    Mirrors source (At desk) (Analysis.params before) (params .exact before)
      (Yields id fun _ => desk) := by
  refine .expect_bind fun _ => .check_bind fun isEmpty => ?_
  have listed : Mirrors source (At desk)
      (if isEmpty then pure before else Analysis.repeatUntil Analysis.param before)
      (if isEmpty then pure before else repeatUntil (param .exact) before)
      (Yields id fun _ => desk) := by
    split
    · exact .pure fun _ _ same => ⟨trivial, rfl, same⟩
    · exact .loop (fun _ => True) id (fun _ => desk) Analysis.param_progresses
        (fun before _ => param_mirrors before) before trivial
  exact listed.seq fun _ => .expect_bind fun _ => .pure fun _ _ same => ⟨trivial, rfl, same⟩

theorem functionHead_mirrors :
    Mirrors source (At desk) Analysis.functionHead (functionHead .exact)
      (Yields id fun _ => desk) := by
  refine .expect_bind fun _ => .expectIdentifier_bind fun word =>
    .get_bind fun s b serves starts => ?_
  rw [serves.directory]
  exact .refuse_bind .rfl fun _ => (register_mirrors _).seq fun address =>
    (params_mirrors _).seq fun signature => .expect_bind fun _ => .expectType_bind fun returned =>
      .pure fun _ _ same => ⟨trivial, rfl, same⟩

/-- A function begins, and the one at hand is put aside. -/
theorem openFunction_bind {α β : Type} {signature : Signature} {f : Unit → Analysis α}
    {g : Desk → SinglePass β} {post : α → β → State → Desk → Prop}
    (rest : Mirrors source (At (desk.opened signature)) (f ()) (g desk) post) :
    Mirrors source (At desk) ((modify fun s => { s with frame := ⟨0⟩ }) >>= f)
      (openFunction signature >>= g) post := by
  rintro s b serves rfl
  exact rest { s with frame := ⟨0⟩ } { b with frame := ⟨0⟩, desk := b.desk.opened signature }
    { serves with frame := rfl } rfl

/-- At the end of a function all its branches have their targets. -/
theorem closeFunction_mirrors {signature : Signature} {body : Stmt} (closing : Nat)
    (alone : ∀ jump, body.sites jump 0 = []) :
    Mirrors source (At ((desk.opened signature).lay body))
      (get >>= fun s => match Definition.ofBody? signature s.frame body with
        | some definition => do
          Analysis.report (.compiled definition.routine)
          Analysis.addDefinition definition
        | none => Analysis.fail .notAllRoutesReturn closing)
      (closeFunction desk (locate source closing)) (Yields id fun _ => desk) := by
  rw [Desk.lay_body alone]
  intro s b serves starts
  have made : b.desk.finish? b.frame =
      (Definition.ofBody? signature s.frame body).map Definition.routine := by
    rw [Definition.ofBody?_routine, Routine.ofBody?_frame _ _ ⟨0⟩, starts, serves.frame,
      Desk.finish?]
  have nothing : ¬ b.desk.waiting ≠ ∅ := by simp [starts]
  have looks : (get : Analysis State) s = .ok s s := rfl
  have looks' : (get : SinglePass Bench) b = .ok b b := rfl
  rw [closeFunction, Analysis.bind_eq, bind_eq, looks, looks']
  dsimp only
  rw [if_neg nothing, made]
  cases Definition.ofBody? signature s.frame body with
  | none => exact ⟨b, rfl, rfl⟩
  | some definition =>
    refine ⟨(), _, rfl, ?_, rfl, trivial, rfl, by rw [starts]⟩
    exact { serves with routines := by simp [serves.routines] }

/-- A function leaves the desk of the entry function as it was. -/
theorem function_mirrors {depth left : Nat} {calls : Routines}
    (blocks : ∀ {scope desk}, Stage scope depth desk →
      Mirrors source (At desk) (Analysis.block (Analysis.readersBelow left) scope)
        (calls.block scope.rank)
        (Yields (fun result => locate source result.2) fun result => desk.lay result.1))
    (stage : Stage Analysis.globalScope depth desk) :
    Mirrors source (At desk) (Analysis.function left) (function .exact calls)
      (Yields id fun _ => desk) := by
  refine functionHead_mirrors.seq fun signature => openFunction_bind ?_
  have inside : Stage ⟨signature, 1, false⟩ depth (desk.opened signature) :=
    ⟨rfl, stage.inLoop, by simp [Desk.Open, Desk.opened], stage.depth⟩
  have alone : ∀ s result t, True → Analysis.block (Analysis.readersBelow left)
      ⟨signature, 1, false⟩ s = .ok result t → ∀ jump, result.1.sites jump 0 = [] := by
    intro s result t _ run jump
    obtain ⟨_, _, _, _, reads, _⟩ := Analysis.body_reads run
    exact reads.no_sites rfl jump 0
  have body := (blocks inside).adding alone
  refine (body.before fun _ _ same => ⟨trivial, same⟩).bind fun result closing => ?_
  rintro s b serves ⟨jumpFree, _, rfl, same⟩
  exact closeFunction_mirrors result.2 jumpFree s b serves same

end

end SinglePass

end C0
