import C0.Proofs.Routes
import Mathlib.Logic.Relation

namespace C0

/-- The positions that can come right after one another: a return has none after it, a branch that
is always taken only its target, a test its target and the next position. -/
inductive RouteStep (code : List Instruction) : Int → Int → Prop
  | next {position : Int} {instruction : Instruction} :
      instructionAt? code position = some instruction → instruction ≠ .plain .ret →
      (∀ offset, instruction ≠ .branch .always offset) → RouteStep code position (position + 1)
  | jump {position : Int} {test : Branch} {offset : Int32} :
      instructionAt? code position = some (.branch test offset) →
      RouteStep code position (position + 1 + offset.toInt)

/-- Some path through the code comes to a position. -/
def Reachable (code : List Instruction) (position : Int) : Prop :=
  Relation.ReflTransGen (RouteStep code) 0 position

theorem routeStep_iff {code : List Instruction} {position next : Int} :
    RouteStep code position next ↔ ∃ instruction, instructionAt? code position = some instruction ∧
      next ∈ instruction.successors position := by
  constructor
  · intro step
    cases step with
    | @next instruction here notReturn notAlways =>
      refine ⟨instruction, here, ?_⟩
      -- Only a branch that is always taken and a return do not go on to the next position.
      cases instruction with
      | plain op => cases op <;> simp_all [Instruction.successors]
      | branch test offset =>
        cases test with
        | always => exact absurd rfl (notAlways offset)
        | _ => simp [Instruction.successors]
      | _ => simp [Instruction.successors]
    | @jump test offset here =>
      refine ⟨_, here, ?_⟩
      cases test <;> simp [Instruction.successors]
  · rintro ⟨instruction, here, member⟩
    cases instruction with
    | branch test offset =>
      cases test with
      | always =>
        rw [Instruction.successors, List.mem_singleton] at member
        exact member ▸ .jump here
      | _ =>
        simp only [Instruction.successors, List.mem_cons, List.not_mem_nil, or_false] at member
        rcases member with rfl | rfl
        · exact .jump here
        · exact .next here (by simp) (by simp)
    | plain op =>
      by_cases isReturn : op = .ret
      · simp [isReturn, Instruction.successors] at member
      · have straight : (Instruction.plain op).isStraight = true := by
          cases op <;> simp_all [Instruction.isStraight]
        rw [Instruction.successors_eq _ straight, List.mem_singleton] at member
        exact member ▸ .next here (by simpa using isReturn) (by simp)
    | _ =>
      rw [Instruction.successors_eq _ rfl, List.mem_singleton] at member
      exact member ▸ .next here (by simp) (by simp)

theorem exists_instructionAt?_iff {code : List Instruction} {position : Int} :
    (∃ instruction, instructionAt? code position = some instruction) ↔
      0 ≤ position ∧ position < code.length := by
  cases position with
  | ofNat index => simp [instructionAt?, List.getElem?_eq_some_iff]
  | negSucc index => simp [instructionAt?]

/-- The reachable positions are in every set that holds the start and that no route leaves. -/
theorem Reachable.inside {code : List Instruction} {inside : Int → Prop} {position : Int}
    (reachable : Reachable code position) (closed : Closed code inside) (start : inside 0) :
    inside position := by
  induction reachable with
  | refl => exact start
  | tail _ step ih =>
    obtain ⟨instruction, here, nexts⟩ := closed _ ih
    obtain ⟨found, here', member⟩ := routeStep_iff.mp step
    rw [here, Option.some.injEq] at here'
    exact nexts _ (here' ▸ member)

/-- The reachable positions are themselves a set that no route leaves, unless one of them is
outside the code. -/
theorem closed_reachable {code : List Instruction}
    (within : ∀ position, Reachable code position → 0 ≤ position ∧ position < code.length) :
    Closed code (Reachable code) := by
  intro position reachable
  obtain ⟨instruction, here⟩ := exists_instructionAt?_iff.mpr (within position reachable)
  exact ⟨instruction, here, fun next member =>
    reachable.tail (routeStep_iff.mpr ⟨instruction, here, member⟩)⟩

/-- The positions that a search has visited, and those that it has yet to look at. -/
structure Search where
  visited : Array Bool
  pending : List Int

namespace Search

/-- The search through so many instructions, before its first turn. -/
def start (size : Nat) : Search :=
  ⟨Array.replicate size false, [0]⟩

/-- A turn of the search: it takes a pending position and marks it, and goes on with what can
follow. It ends when no position is left or at a position outside the code. -/
def turn (code : Array Instruction) : Search → Search ⊕ Bool
  | ⟨_, []⟩ => .inr true
  | ⟨_, .negSucc _ :: _⟩ => .inr false
  | ⟨visited, .ofNat index :: pending⟩ =>
    match code[index]? with
    | none => .inr false
    | some instruction =>
      if visited.getD index false then .inl ⟨visited, pending⟩
      else .inl ⟨visited.setIfInBounds index true, instruction.successors index ++ pending⟩

/-- A search that turns until it ends, with the number of turns before the last and the answer. -/
inductive Ends (code : Array Instruction) : Search → Nat → Bool → Prop
  | last {search : Search} {answer : Bool} : search.turn code = .inr answer →
      Ends code search 0 answer
  | again {search next : Search} {turns : Nat} {answer : Bool} : search.turn code = .inl next →
      Ends code next turns answer → Ends code search (turns + 1) answer

/-- Bounds the turns to come. A position is followed once and brings at most two others. -/
def remaining (search : Search) : Nat :=
  search.pending.length + 2 * unmarked search.visited

/-- A turn that is not the last looks at a position in the code. If it has been there before, it
goes on with the other positions, and else it follows the position and marks it. -/
theorem turn_eq_inl {code : Array Instruction} {search next : Search}
    (turns : search.turn code = .inl next) :
    ∃ (index : Nat) (pending : List Int) (instruction : Instruction),
      search.pending = (index : Int) :: pending ∧ code[index]? = some instruction ∧
        (search.visited.getD index false = true ∧ next = ⟨search.visited, pending⟩ ∨
          ¬ search.visited.getD index false = true ∧
            next = ⟨search.visited.setIfInBounds index true,
              instruction.successors index ++ pending⟩) := by
  obtain ⟨visited, _ | ⟨index | index, pending⟩⟩ := search
  · simp [turn] at turns
  · cases here : code[index]? with
    | none => simp [turn, here] at turns
    | some instruction =>
      refine ⟨index, pending, instruction, rfl, here, ?_⟩
      by_cases marked : visited.getD index false = true <;> simp_all [turn]
  · simp [turn] at turns

theorem turn_size {code : Array Instruction} {search next : Search}
    (turns : search.turn code = .inl next) : next.visited.size = search.visited.size := by
  obtain ⟨index, pending, instruction, -, -, ⟨-, rfl⟩ | ⟨-, rfl⟩⟩ := turn_eq_inl turns
  · rfl
  · exact Array.size_setIfInBounds

theorem turn_remaining {code : Array Instruction} {search next : Search}
    (sizes : search.visited.size = code.size) (turns : search.turn code = .inl next) :
    next.remaining < search.remaining := by
  obtain ⟨index, pending, instruction, first, here, ⟨-, rfl⟩ | ⟨fresh, rfl⟩⟩ := turn_eq_inl turns
  · simp [remaining, first]
  · have inBounds : index < search.visited.size := by
      rw [sizes]
      exact (Array.getElem?_eq_some_iff.mp here).1
    have fewer := unmarked_setIfInBounds inBounds fresh
    have two := instruction.successors_length (index : Int)
    simp only [remaining, first, List.length_append, List.length_cons]
    omega

/-- A step of the bounded walk is a turn of the search. -/
theorem walkRoutes_succ (code : Array Instruction) (steps : Nat) (search : Search) :
    walkRoutes code (steps + 1) search.visited search.pending =
      match search.turn code with
      | .inr answer => answer
      | .inl next => walkRoutes code steps next.visited next.pending := by
  obtain ⟨visited, _ | ⟨index | index, pending⟩⟩ := search
  · rfl
  · cases here : code[index]? with
    | none => simp [walkRoutes, turn, here]
    | some instruction =>
      by_cases marked : visited.getD index false = true <;> simp [walkRoutes, turn, here, marked]
  · rfl

/-- The search ends, and the bounded walk tells its answer. -/
theorem ends_walkRoutes {code : Array Instruction} {steps : Nat} {search : Search}
    (sizes : search.visited.size = code.size) (enough : search.remaining ≤ steps) :
    ∃ turns ≤ search.remaining,
      search.Ends code turns (walkRoutes code steps search.visited search.pending) := by
  induction steps generalizing search with
  | zero =>
    obtain ⟨visited, _ | ⟨position, pending⟩⟩ := search
    · exact ⟨0, Nat.zero_le _, .last rfl⟩
    · simp [remaining] at enough
  | succ steps ih =>
    rw [walkRoutes_succ]
    cases outcome : search.turn code with
    | inr answer => exact ⟨0, Nat.zero_le _, .last outcome⟩
    | inl next =>
      have fewer := turn_remaining sizes outcome
      obtain ⟨turns, bound, ends⟩ := ih ((turn_size outcome).trans sizes) (by omega)
      exact ⟨turns + 1, by omega, .again outcome ends⟩

end Search

/-- All routes return if and only if every reachable position is in the code. -/
theorem Routine.allRoutesReturn_iff_within {routine : Routine} :
    routine.allRoutesReturn = true ↔ ∀ position, Reachable routine.code.toList position →
      0 ≤ position ∧ position < routine.code.size := by
  rw [allRoutesReturn_iff_closed]
  constructor
  · rintro ⟨inside, closed, start⟩ position reachable
    obtain ⟨instruction, here, _⟩ := closed position (reachable.inside closed start)
    exact exists_instructionAt?_iff.mp ⟨instruction, here⟩
  · intro within
    exact ⟨Reachable routine.code.toList, closed_reachable within, .refl⟩

/-- The check of all routes decides reachability. The search that it makes ends after a number of
turns that the size of the code bounds. It succeeds if every reachable position is in the code, be
it that a path goes round for ever, and fails if some path runs past either end. -/
theorem Routine.allRoutesReturn_reachable (routine : Routine) :
    (∃ turns ≤ 2 * routine.code.size + 1,
      (Search.start routine.code.size).Ends routine.code turns routine.allRoutesReturn) ∧
    (routine.allRoutesReturn = true ↔ ∀ position, Reachable routine.code.toList position →
      0 ≤ position ∧ position < routine.code.size) ∧
    (routine.allRoutesReturn = false ↔ ∃ position, Reachable routine.code.toList position ∧
      (position < 0 ∨ routine.code.size ≤ position)) := by
  have bound : (Search.start routine.code.size).remaining = 2 * routine.code.size + 1 := by
    simp only [Search.remaining, Search.start, unmarked, Array.toList_replicate,
      List.count_replicate_self, List.length_singleton]
    omega
  refine ⟨?_, allRoutesReturn_iff_within, ?_⟩
  · rw [← bound]
    exact Search.ends_walkRoutes (by simp [Search.start]) (Nat.le_of_eq bound)
  · rw [← Bool.not_eq_true, allRoutesReturn_iff_within]
    push Not
    refine exists_congr fun position => and_congr_right fun _ => ?_
    omega

/-- A loop that never returns does not run past an end. -/
example (routine : Routine)
    (code : routine.code = #[.branch .always 0, .plain .nop, .branch .always (-2)]) :
    routine.allRoutesReturn = true := by
  rw [Routine.allRoutesReturn, code]
  decide

end C0
