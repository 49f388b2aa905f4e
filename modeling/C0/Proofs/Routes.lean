import C0.Proofs.Machine

namespace C0

/-- All positions of a set are in the code, and all that can follow them is in the set. -/
def Closed (code : List Instruction) (inside : Int → Prop) : Prop :=
  ∀ position, inside position → ∃ instruction, instructionAt? code position = some instruction ∧
    ∀ next ∈ instruction.successors position, inside next

/-- A position has its mark among the visited ones. -/
def Marked (visited : Array Bool) (position : Int) : Prop :=
  ∃ index : Nat, position = index ∧ visited.getD index false = true

/-- What can follow the marked positions is marked or pending. -/
def Followed (code : List Instruction) (visited : Array Bool) (pending : List Int) : Prop :=
  ∀ position, Marked visited position → ∃ instruction,
    instructionAt? code position = some instruction ∧
      ∀ next ∈ instruction.successors position, Marked visited next ∨ next ∈ pending

theorem marked_setIfInBounds {visited : Array Bool} {index : Nat} (inBounds : index < visited.size)
    {position : Int} : Marked (visited.setIfInBounds index true) position ↔
      Marked visited position ∨ position = index := by
  have others (other : Nat) (different : other ≠ index) :
      (visited.setIfInBounds index true).getD other false = visited.getD other false := by
    rw [Array.getD_eq_getD_getElem?, Array.getElem?_setIfInBounds_ne (Ne.symm different),
      ← Array.getD_eq_getD_getElem?]
  have itself : (visited.setIfInBounds index true).getD index false = true := by
    simp [Array.getD_eq_getD_getElem?, inBounds]
  constructor
  · rintro ⟨other, rfl, here⟩
    by_cases same : other = index
    · exact .inr (by rw [same])
    · exact .inl ⟨other, rfl, by rwa [others other same] at here⟩
  · rintro (⟨other, rfl, here⟩ | rfl)
    · by_cases same : other = index
      · exact ⟨index, by rw [same], itself⟩
      · exact ⟨other, rfl, by rwa [others other same]⟩
    · exact ⟨index, rfl, itself⟩

/-- A position that was followed before need not be pending. -/
theorem Followed.pass {code : List Instruction} {visited : Array Bool} {position : Int}
    {pending : List Int} (followed : Followed code visited (position :: pending))
    (marked : Marked visited position) : Followed code visited pending := by
  intro other otherMarked
  obtain ⟨instruction, here, nexts⟩ := followed other otherMarked
  refine ⟨instruction, here, fun next member => ?_⟩
  rcases nexts next member with nextMarked | nextPending
  · exact .inl nextMarked
  · rcases List.mem_cons.mp nextPending with rfl | later
    · exact .inl marked
    · exact .inr later

/-- A position may be marked when what can follow it is pending. -/
theorem Followed.mark {code : List Instruction} {visited : Array Bool} {index : Nat}
    {instruction : Instruction} {pending : List Int}
    (followed : Followed code visited ((index : Int) :: pending))
    (here : code[index]? = some instruction) (inBounds : index < visited.size) :
    Followed code (visited.setIfInBounds index true)
      (instruction.successors index ++ pending) := by
  intro other otherMarked
  rcases (marked_setIfInBounds inBounds).mp otherMarked with before | rfl
  · obtain ⟨found, atOther, nexts⟩ := followed other before
    refine ⟨found, atOther, fun next member => ?_⟩
    rw [marked_setIfInBounds inBounds]
    rcases nexts next member with nextMarked | nextPending
    · exact .inl (.inl nextMarked)
    · rcases List.mem_cons.mp nextPending with rfl | later
      · exact .inl (.inr rfl)
      · exact .inr (List.mem_append_right _ later)
  · exact ⟨instruction, here, fun next member => .inr (List.mem_append_left _ member)⟩

theorem Followed.closed {code : List Instruction} {visited : Array Bool}
    (followed : Followed code visited []) : Closed code (Marked visited) := by
  intro position marked
  obtain ⟨instruction, here, nexts⟩ := followed position marked
  exact ⟨instruction, here, fun next member => (nexts next member).resolve_right (by simp)⟩

/-- A walk that leaves the code nowhere has all its positions in a set that no route leaves. -/
theorem walkRoutes_closed {code : Array Instruction} {steps : Nat} {visited : Array Bool}
    {pending : List Int} (walk : walkRoutes code steps visited pending = true)
    (sizes : visited.size = code.size) (followed : Followed code.toList visited pending) :
    ∃ inside, Closed code.toList inside ∧ (∀ position, Marked visited position → inside position) ∧
      ∀ position ∈ pending, inside position := by
  induction steps generalizing visited pending with
  | zero =>
    cases pending with
    | nil => exact ⟨Marked visited, followed.closed, fun _ => id, by simp⟩
    | cons position pending => simp [walkRoutes] at walk
  | succ steps ih =>
    cases pending with
    | nil => exact ⟨Marked visited, followed.closed, fun _ => id, by simp⟩
    | cons position pending =>
      cases position with
      | negSucc index => simp [walkRoutes] at walk
      | ofNat index =>
        cases here : code[index]? with
        | none => simp [walkRoutes, here] at walk
        | some instruction =>
          simp only [walkRoutes, here] at walk
          -- A visited position is passed over. A new one is marked, and its successors wait.
          by_cases marked : visited.getD index false = true
          · rw [if_pos marked] at walk
            obtain ⟨inside, closed, marks, later⟩ :=
              ih walk sizes (followed.pass ⟨index, rfl, marked⟩)
            refine ⟨inside, closed, marks, List.forall_mem_cons.mpr ⟨?_, later⟩⟩
            exact marks _ ⟨index, rfl, marked⟩
          · rw [if_neg marked] at walk
            have inBounds : index < visited.size := by
              rw [sizes]
              exact (Array.getElem?_eq_some_iff.mp here).1
            obtain ⟨inside, closed, marks, later⟩ := ih walk (by simpa using sizes)
              (followed.mark (by simpa using here) inBounds)
            have known (other : Int) (member : Marked visited other ∨ other = index) :
                inside other :=
              marks other ((marked_setIfInBounds inBounds).mpr member)
            exact ⟨inside, closed, fun other member => known other (.inl member),
              List.forall_mem_cons.mpr ⟨known _ (.inr rfl),
                fun other member => later other (List.mem_append_right _ member)⟩⟩

/-- If all routes return, the start lies in a set that no route leaves. -/
theorem Routine.allRoutesReturn_closed {routine : Routine} (walk : routine.allRoutesReturn = true) :
    ∃ inside, Closed routine.code.toList inside ∧ inside 0 := by
  have nothing (position : Int) :
      ¬ Marked (Array.replicate routine.code.size false) position := by
    rintro ⟨index, rfl, marked⟩
    rw [Array.getD_eq_getD_getElem?, Array.getElem?_replicate] at marked
    split at marked <;> simp at marked
  obtain ⟨inside, closed, _, pending⟩ := walkRoutes_closed walk (by simp)
    fun position marked => absurd marked (nothing position)
  exact ⟨inside, closed, pending 0 (by simp)⟩

theorem Instruction.successors_eq {instruction : Instruction} (position : Int)
    (straight : instruction.isStraight = true) :
    instruction.successors position = [position + 1] := by
  cases instruction with
  | plain op =>
    cases op with
    | ret => simp [isStraight] at straight
    | _ => rfl
  | branch test offset => simp [isStraight] at straight
  | _ => rfl

/-- What a run does next is one of the things that can follow. -/
theorem move_successors {code : List Instruction} {config after : Config}
    {trace : List Instruction} {instruction : Instruction}
    (here : instructionAt? code config.position = some instruction)
    (moves : move code config = (trace, .inl after)) :
    after.position ∈ instruction.successors config.position := by
  by_cases straight : instruction.isStraight = true
  · rw [instruction.move_eq here straight] at moves
    cases moves
    simp [instruction.successors_eq _ straight]
  · obtain ⟨position, tests⟩ := config
    simp only [move, here] at moves
    cases instruction with
    | branch test offset =>
      cases test with
      | onTrue =>
        rcases tests with _ | ⟨_ | _, tests⟩ <;> cases moves <;> simp [Instruction.successors]
      | _ => cases moves; simp [Instruction.successors]
    | plain op => cases op <;> simp_all [Instruction.isStraight]
    | _ => simp [Instruction.isStraight] at straight

/-- A run stays in a set that no route leaves. -/
theorem Leads.inside {code : List Instruction} {config last : Config} {trace : List Instruction}
    {inside : Int → Prop} (path : Leads code config trace last) (closed : Closed code inside)
    (start : inside config.position) : inside last.position := by
  induction path with
  | refl => exact start
  | next moves _ ih =>
    obtain ⟨instruction, here, nexts⟩ := closed _ start
    exact ih (nexts _ (move_successors here moves))

theorem Instruction.successors_length (position : Int) (instruction : Instruction) :
    (instruction.successors position).length ≤ 2 := by
  cases instruction with
  | plain op => cases op <;> simp [successors]
  | branch test offset => cases test <;> simp [successors]
  | _ => simp [successors]

/-- How many positions have no mark yet. -/
def unmarked (visited : Array Bool) : Nat :=
  visited.toList.count false

theorem unmarked_setIfInBounds {visited : Array Bool} {index : Nat}
    (inBounds : index < visited.size) (fresh : ¬ visited.getD index false = true) :
    unmarked (visited.setIfInBounds index true) + 1 = unmarked visited := by
  have here : visited.toList[index] = false := by
    simpa [Array.getD_eq_getD_getElem?, inBounds] using fresh
  have some : 0 < visited.toList.count false :=
    List.count_pos_iff.mpr (here ▸ List.getElem_mem _)
  simp only [unmarked, Array.toList_setIfInBounds]
  rw [List.count_set (by simpa using inBounds), here]
  simp only [beq_self_eq_true, if_true, Bool.true_beq, Bool.false_eq_true, if_false]
  omega

/-- A walk inside a set that no route leaves comes to its end. Each step takes a pending position,
and one that is marked brings two at most. -/
theorem walkRoutes_of_closed {code : Array Instruction} {inside : Int → Prop}
    (closed : Closed code.toList inside) {steps : Nat} {visited : Array Bool} {pending : List Int}
    (sizes : visited.size = code.size) (known : ∀ position ∈ pending, inside position)
    (enough : pending.length + 2 * unmarked visited ≤ steps) :
    walkRoutes code steps visited pending = true := by
  induction steps generalizing visited pending with
  | zero =>
    cases pending with
    | nil => rfl
    | cons position pending => simp at enough
  | succ steps ih =>
    cases pending with
    | nil => rfl
    | cons position pending =>
      obtain ⟨here, later⟩ := List.forall_mem_cons.mp known
      obtain ⟨instruction, found, nexts⟩ := closed position here
      rw [List.length_cons] at enough
      cases position with
      | negSucc index => simp [instructionAt?] at found
      | ofNat index =>
        have found' : code[index]? = some instruction := by simpa [instructionAt?] using found
        simp only [walkRoutes, found']
        by_cases marked : visited.getD index false = true
        · rw [if_pos marked]
          exact ih sizes later (by omega)
        · rw [if_neg marked]
          have inBounds : index < visited.size := by
            rw [sizes]
            exact (Array.getElem?_eq_some_iff.mp found').1
          have fewer := unmarked_setIfInBounds inBounds marked
          have two := instruction.successors_length (Int.ofNat index)
          refine ih (by simpa using sizes) (fun next member => ?_) ?_
          · rcases List.mem_append.mp member with member | member
            · exact nexts next member
            · exact later next member
          · rw [List.length_append]
            omega

/-- All routes return as soon as the start lies in a set that no route leaves. -/
theorem Routine.allRoutesReturn_iff_closed {routine : Routine} :
    routine.allRoutesReturn = true ↔ ∃ inside, Closed routine.code.toList inside ∧ inside 0 := by
  refine ⟨allRoutesReturn_closed, ?_⟩
  rintro ⟨inside, closed, start⟩
  refine walkRoutes_of_closed closed (by simp) (by simpa using start) ?_
  simp only [unmarked, Array.toList_replicate, List.count_replicate_self, List.length_singleton]
  omega

/-- A run can go on to whatever can follow, if the outcome of the test is right. -/
theorem exists_move {code : List Instruction} {instruction : Instruction} {position next : Int}
    (here : instructionAt? code position = some instruction)
    (known : ∀ offset, instruction ≠ .branch .onFalse offset)
    (member : next ∈ instruction.successors position) (rest : List Bool) :
    ∃ tests trace, move code ⟨position, tests⟩ = (trace, .inl ⟨next, rest⟩) := by
  by_cases straight : instruction.isStraight = true
  · rw [instruction.successors_eq _ straight, List.mem_singleton] at member
    exact ⟨rest, [instruction], by rw [instruction.move_eq here straight, member]⟩
  · cases instruction with
    | branch test offset =>
      cases test with
      | always =>
        rw [Instruction.successors, List.mem_singleton] at member
        exact ⟨rest, [], by simp [move, here, member]⟩
      | onTrue =>
        simp only [Instruction.successors, List.mem_cons, List.not_mem_nil, or_false] at member
        rcases member with rfl | rfl
        · exact ⟨true :: rest, [], by simp [move, here]⟩
        · exact ⟨false :: rest, [], by simp [move, here]⟩
      | onFalse => exact absurd rfl (known offset)
    | plain op => cases op <;> simp_all [Instruction.isStraight, Instruction.successors]
    | _ => simp [Instruction.isStraight] at straight

theorem move_outside {code : List Instruction} {config : Config} {trace : List Instruction} :
    move code config = (trace, .inr .outside) ↔
      trace = [] ∧ instructionAt? code config.position = none := by
  constructor
  · intro moves
    cases here : instructionAt? code config.position with
    | none => simp_all [move]
    | some instruction =>
      exfalso
      by_cases straight : instruction.isStraight = true
      · simp [instruction.move_eq here straight] at moves
      · simp only [move, here] at moves
        cases instruction with
        | branch test offset =>
          cases test with
          | onTrue => rcases config with ⟨_, _ | ⟨_ | _, _⟩⟩ <;> simp at moves
          | _ => simp at moves
        | plain op => cases op <;> simp at moves
        | _ => simp at moves
  · rintro ⟨rfl, here⟩
    simp [move, here]

/-- A run does not end outside the code if it starts in a set that no route leaves. -/
theorem Runs.ne_outside {code : List Instruction} {config : Config} {trace : List Instruction}
    {ending : Ending} {inside : Int → Prop} (run : Runs code config trace ending)
    (closed : Closed code inside) (start : inside config.position) : ending ≠ .outside := by
  induction run with
  | last ends =>
    rintro rfl
    obtain ⟨instruction, here, _⟩ := closed _ start
    simp [(move_outside.mp ends).2] at here
  | next moves _ ih =>
    obtain ⟨instruction, here, nexts⟩ := closed _ start
    exact ih (nexts _ (move_successors here moves))

/-- All routes return if and only if no run leaves the code. The positions that some run comes to
are a set that no route leaves: the outcome of a test at the last of them is free. -/
theorem Routine.allRoutesReturn_iff_runs {routine : Routine}
    (known : ∀ offset, .branch .onFalse offset ∉ routine.code.toList) :
    routine.allRoutesReturn = true ↔
      ∀ tests trace, ¬ Runs routine.code.toList (.on 0 tests) trace .outside := by
  rw [allRoutesReturn_iff_closed]
  constructor
  · rintro ⟨inside, closed, start⟩ tests trace run
    exact run.ne_outside closed start rfl
  · intro stays
    refine ⟨fun position => ∀ rest, ∃ tests trace,
      Leads routine.code.toList (.on 0 tests) trace ⟨position, rest⟩, fun position reached => ?_,
      fun rest => ⟨rest, [], .refl⟩⟩
    cases here : instructionAt? routine.code.toList position with
    | none =>
      obtain ⟨tests, trace, path⟩ := reached []
      exact absurd (path.runs (.last (move_outside.mpr ⟨rfl, here⟩))) (stays _ _)
    | some instruction =>
      refine ⟨instruction, rfl, fun next member rest => ?_⟩
      have inCode : instruction ∈ routine.code.toList := by
        cases position with
        | ofNat index => exact List.mem_of_getElem? here
        | negSucc index => simp [instructionAt?] at here
      obtain ⟨tests, first, moves⟩ := exists_move here
        (fun offset same => known offset (same ▸ inCode)) member rest
      obtain ⟨before, trace, path⟩ := reached tests
      exact ⟨before, trace ++ first, path.trans (.one moves)⟩

end C0
