import C0.Proofs.SinglePass.Levels

namespace C0

namespace SinglePass

section

variable {source : String} {desk : Desk}

/-- Between the items of a program the desk has the code of the globals that were declared, in which
nothing waits. -/
structure Outside (s : State) (desk : Desk) : Prop where
  same : desk = Desk.entry.lay (.ofList s.initializers)
  closed : desk.waiting = ∅

/-- Between items, only the global symbols are in scope. -/
theorem Outside.stage {s : State} (outside : Outside s desk) :
    Stage Analysis.globalScope 0 desk := by
  have entry : Stage Analysis.globalScope 0 Desk.entry :=
    ⟨rfl, rfl, by simp [Desk.Open, Desk.entry], rfl⟩
  rw [outside.same]
  exact entry.lay _

/-- What declares no global leaves the desk as it is. -/
theorem mirrors_outside {α β : Type} {m : Analysis α} {c : SinglePass β} {out : α → β}
    (mirrors : ∀ {desk}, Stage Analysis.globalScope 0 desk →
      Mirrors source (At desk) m c (Yields out fun _ => desk))
    (kept : ∀ s a t, m s = .ok a t → t.initializers = s.initializers) :
    Mirrors source Outside m c fun a x s desk => x = out a ∧ Outside s desk := by
  intro s b serves outside
  have step : Mirrors source (fun u d => u.initializers = s.initializers ∧ At b.desk u d) m c
      fun a x t d => x = out a ∧ Outside t d := by
    refine ((mirrors outside.stage).adding fun u a t before ran =>
      (kept u a t ran).trans before).weaken (fun _ _ => id) ?_
    rintro a x t _ ⟨initializers, _, value, rfl⟩
    exact ⟨value, initializers ▸ outside.same, outside.closed⟩
  exact step s b serves ⟨rfl, rfl⟩

section

variable {limit active : Nat} {calls : Routines} (level : Level source calls 0 limit active)

include level

/-- After a function the desk is as it was. -/
theorem function_outside (enough : 5 * limit + 4 ≤ active) :
    Mirrors source Outside (Analysis.function limit) calls.function fun _ _ => Outside := by
  have kept : ∀ s a t, Analysis.function limit s = .ok a t → t.initializers = s.initializers := by
    intro s a t run
    obtain ⟨definition, reads⟩ := Analysis.function_reads run
    exact reads.items.2
  exact (mirrors_outside (level.function enough) kept).weaken (fun _ _ => id)
    fun _ _ _ _ holds => holds.2

/-- A global declaration puts its code in the start routine. -/
theorem globalDeclaration_outside (enough : 5 * limit + 6 ≤ active) :
    Mirrors source Outside (Analysis.globalDeclaration limit) (calls.declaration 0)
      fun _ _ => Outside := by
  intro s b serves outside
  have told : ∀ u stmt t, u.initializers = s.initializers →
      Analysis.declaration (Analysis.expression limit) Analysis.globalScope u = .ok stmt t →
      t.initializers = s.initializers ∧ ∃ symbol value, stmt = .declare symbol value := by
    intro u stmt t before run
    obtain ⟨symbol, value, rfl, reads⟩ :=
      Analysis.declaration_reads (fun _ _ _ _ => Analysis.expression_reads) run
    exact ⟨reads.items.2.trans before, symbol, value, rfl⟩
  have step := (level.declaration enough outside.stage).adding told
  have whole : Mirrors source (fun u d => u.initializers = s.initializers ∧ At b.desk u d)
      (Analysis.globalDeclaration limit) (calls.declaration 0) fun _ _ => Outside := by
    rw [← bind_pure (calls.declaration 0)]
    refine step.bind fun stmt _ => ?_
    rintro t b' serves' ⟨⟨kept, symbol, value, rfl⟩, _, _, same⟩
    refine ⟨(), b', rfl, { serves' with }, rfl, ?_, ?_⟩
    · rw [same, outside.same, ← kept, ← Desk.lay_ofList]
    · rw [same, Desk.lay_write rfl, Desk.waiting_write, outside.closed]
  exact whole s b serves ⟨rfl, rfl⟩

theorem itemOrEnd_mirrors (enough : 5 * limit + 6 ≤ active) :
    Mirrors source Outside (Analysis.itemOrEnd limit ()) (itemOrEnd calls ())
      (Mirrors.Both (fun _ _ => Outside) fun _ _ => Outside) := by
  have item {m : Analysis Unit} {c : SinglePass Unit}
      (mirrors : Mirrors source Outside m c fun _ _ => Outside) :
      Mirrors source Outside (Sum.inl <$> m) (Sum.inl <$> c)
        (Mirrors.Both (fun _ _ => Outside) fun (_ _ : Unit) => Outside) := by
    rw [map_eq_pure_bind, map_eq_pure_bind]
    exact mirrors.bind fun _ _ => .pure fun _ _ outside => outside
  refine .peek_bind fun kind site => .facing ?_
  cases kind with
  | keyword word =>
    cases word with
    | fnWord => exact item (function_outside level (by omega))
    | letWord | constWord => exact item (globalDeclaration_outside level enough)
    | _ => exact .fail
  | eof => exact .pure fun _ _ outside => outside
  | _ => exact .fail

end

/-- The program that ends is the one that was checked. -/
theorem finish_mirrors (eof : Nat) :
    Mirrors source Outside (Analysis.finish eof) (finish .exact (locate source eof))
      fun checked program _ _ => program = checked.program := by
  intro s b serves outside
  have looks : (get : Analysis State) s = .ok s s := rfl
  have looks' : (get : SinglePass Bench) b = .ok b b := rfl
  rw [Analysis.finish, finish, Analysis.bind_eq, bind_eq, looks, looks']
  dsimp only
  rw [find?_routines serves]
  cases found : s.definitions.find? (·.signature.name == mainName) with
  | none => exact ⟨b, rfl, rfl⟩
  | some main =>
    have head := (Routine.ofBody?_head main.laidOut).1
    simp only [Option.map_some, Signature.returnSlots, head]
    generalize ends : [Instruction.indexed .stackalloc
        (UInt32.ofNat main.signature.returnType.slots),
      .indexed .call (UInt32.ofNat main.signature.address)] = code
    have nothing : ¬ (b.desk.write code).waiting ≠ ∅ := by simp [outside.closed]
    have last : ((do
        write code
        let address ← register .exact (.routine entryName)
        let b ← get
        if b.desk.waiting ≠ ∅ then alarm .openBranch
        else return ⟨b.directory, b.globals,
          b.routines ++ [{ b.desk.target with address }]⟩) : SinglePass Program) b =
        .ok (Analysis.checkedAt s main.signature).program { b with
          directory := (b.directory.register (.routine entryName)).2
          desk := b.desk.write code } := by
      simp only [register, keep_exact, bind_pure]
      change (if (b.desk.write code).waiting ≠ ∅ then alarm .openBranch else _ :
        SinglePass Program) _ = _
      have entry := Desk.entry_target s.initializers code
        (b.directory.register (.routine entryName)).1
      rw [← outside.same] at entry
      rw [if_neg nothing]
      change EStateM.Result.ok (Program.mk (b.directory.register (.routine entryName)).2 b.globals
        (b.routines ++ [{ (b.desk.write code).target with
          address := (b.directory.register (.routine entryName)).1 }])) _ = _
      rw [entry, serves.globals, serves.routines, serves.directory, ← ends]
      rfl
    refine ⟨_, _, last, ?_, rfl, rfl⟩
    exact { serves with directory := by rw [serves.directory]; rfl }

/-- The program that is written is the one that was checked. -/
theorem program_mirrors {limit active : Nat} {calls : Routines}
    (level : Level source calls 0 limit active) (enough : 5 * limit + 6 ≤ active) :
    Mirrors source Outside (Analysis.program limit) (program .exact calls)
      fun checked program _ _ => program = checked.program := by
  have items : Mirrors source Outside (Analysis.repeatUntil (Analysis.itemOrEnd limit) ())
      (repeatUntil (itemOrEnd calls) ()) fun _ _ => Outside :=
    .repeatUntil (Analysis.itemOrEnd_progresses limit)
      (fun _ _ => itemOrEnd_mirrors level enough) () ()
  refine items.bind fun _ _ => ?_
  have kept : ∀ s a t, Analysis.expect .eof s = .ok a t → t.initializers = s.initializers := by
    intro s a t run
    obtain ⟨⟨_, rfl⟩, _⟩ := Analysis.expect_ok_iff.mp run
    rfl
  refine (mirrors_outside (fun _ => .expect) kept).bind fun eof span => ?_
  rintro s b serves ⟨rfl, outside⟩
  exact finish_mirrors eof s b serves outside

end

end SinglePass

end C0
