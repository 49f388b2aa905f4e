import C0.Proofs.Entry

namespace C0

/-- What a call of a function takes from the stack: the arguments, the last one on the top, and
below them the slots that are reserved for the returned value. -/
def Signature.callStack (signature : Signature) : List Cell :=
  ((signature.params.map Param.ty).flatMap Ty.cells).reverse ++
    List.replicate signature.returnSlots .hole

/-- The reserved slots alone are what a call takes if there are no parameters, and only then. -/
theorem Signature.callStack_eq_holes_iff {signature : Signature}
    (valued : ∀ param ∈ signature.params, param.ty ≠ .void) :
    signature.callStack = List.replicate signature.returnSlots .hole ↔ signature.params = [] := by
  rw [callStack, List.append_left_eq_self, List.reverse_eq_nil_iff, List.flatMap_eq_nil_iff]
  constructor
  · intro nothing
    refine List.eq_nil_iff_forall_not_mem.mpr fun param member => valued param member ?_
    have empty := nothing param.ty (List.mem_map_of_mem member)
    cases found : param.ty with
    | void => rfl
    | _ => simp [found, Ty.cells, Ty.cell?] at empty
  · intro none
    simp [none]

namespace Stmt

theorem ofList_append (first second : List Stmt) (onJump : Jump → Nat → Instruction) (base : Nat) :
    (ofList (first ++ second)).assembled onJump base = (ofList first).assembled onJump base ++
      (ofList second).assembled onJump (base + (ofList first).size) := by
  induction first generalizing base with
  | nil => rfl
  | cons stmt rest ih =>
    simp only [List.cons_append, ofList, assembled, ih, size, List.append_assoc, Nat.add_assoc]

theorem constants_ofList_append (first second : List Stmt) :
    (ofList (first ++ second)).constants = (ofList first).constants ++ (ofList second).constants := by
  induction first with
  | nil => rfl
  | cons stmt rest ih => simp only [List.cons_append, ofList, constants, ih, List.append_assoc]

end Stmt

namespace CheckedProgram

/-- The literals in the first values of the globals, in their order. -/
def entryConstants (checked : CheckedProgram) : List Constant :=
  (Stmt.ofList checked.initializers).constants

/-- The stack before the instruction of the entry function at a position. -/
def EntryStack (checked : CheckedProgram) (p : Nat) (stack : List Cell) : Prop :=
  ∃ rest, checked.entrySetting.At checked.entryConstants checked.entry.code.toList p stack rest

/-- The entry function obeys the convention of calls: it is safe for the operand stack, the stack is
empty before and after the declaration of each global, and `main` is called on its arguments, its
reserved slots and nothing else. -/
structure ObeysConvention (checked : CheckedProgram) : Prop where
  safe : ∃ stackAt, StackSafe checked.entrySetting checked.entryConstants
    checked.entry.code.toList stackAt
  balanced : ∀ before after, checked.initializers = before ++ after →
    checked.EntryStack (Stmt.ofList before).size []
  call : ∃ before address, checked.entry.code.toList = before ++ [.indexed .call address] ∧
    checked.entrySetting.routineAt? address.toNat = some checked.main ∧
    checked.EntryStack before.length checked.main.callStack

theorem EntryStack.unique {checked : CheckedProgram} {p : Nat} {stack other : List Cell}
    (first : checked.EntryStack p stack) (second : checked.EntryStack p other) : stack = other := by
  obtain ⟨_, here⟩ := first
  obtain ⟨_, there⟩ := second
  exact (Prod.mk.inj (Option.some.inj (here.symm.trans there))).1

section

variable {source : String} {options : Options} {checked : CheckedProgram}
  (accepted : analyze source options = .ok checked)

include accepted

theorem main_valued : ∀ param ∈ checked.main.params, param.ty ≠ .void := by
  obtain ⟨definition, member, same⟩ := main_mem accepted
  obtain ⟨_, _, _, reads⟩ := analyze_definition accepted member
  cases reads with
  | function head => exact same ▸ head.signature.2.2

/-- The declarations of globals begin and end with an empty stack. -/
theorem flow?_initializers (small : checked.entrySetting.Small) {before after : List Stmt}
    (split : checked.initializers = before ++ after) (rest : List Constant) :
    checked.entrySetting.flow? ((Stmt.ofList before).assembled (fun _ _ => openBranch) 0)
      ([], (Stmt.ofList before).constants ++ rest) = some ([], rest) := by
  have typed : (Stmt.ofList before).Typed checked.entrySetting :=
    Stmt.typed_ofList fun stmt member =>
      (analyze_initializer accepted (split ▸ List.mem_append_left after member)).2
  exact typed.flow small (fun _ _ => ⟨0, rfl⟩) 0 rest

theorem entryStack_between (small : checked.entrySetting.Small) {before after : List Stmt}
    (split : checked.initializers = before ++ after) :
    checked.EntryStack (Stmt.ofList before).size [] := by
  have flow := flow?_initializers accepted small split (Stmt.ofList after).constants
  refine ⟨(Stmt.ofList after).constants, ?_⟩
  rw [Setting.At, entryConstants, split, Stmt.constants_ofList_append, entry_code, split,
    Stmt.ofList_append, List.append_assoc, List.take_left' (Stmt.assembled_length _ _ _)]
  exact flow

/-- `main` is called on the slots that are reserved for its value and on nothing else. -/
theorem entryStack_call (small : checked.entrySetting.Small) :
    ∃ before, checked.entry.code.toList =
        before ++ [.indexed .call (UInt32.ofNat checked.main.address)] ∧
      checked.EntryStack before.length (List.replicate checked.main.returnSlots .hole) := by
  have flow := flow?_initializers accepted small (List.append_nil _).symm []
  have reserve := checked.entrySetting.advance?_reserve checked.main.returnType [] []
  rw [List.append_nil] at flow reserve
  have code : checked.entry.code.toList = ((Stmt.ofList checked.initializers).assembled
      (fun _ _ => openBranch) 0 ++ [.indexed .stackalloc (UInt32.ofNat checked.main.returnSlots)]) ++
      [.indexed .call (UInt32.ofNat checked.main.address)] := by
    simp [entry_code]
  refine ⟨_, code, [], ?_⟩
  rw [Setting.At, entryConstants, code, List.take_left, Setting.flow?_append, flow,
    Option.bind_some, Setting.flow?_cons]
  exact congrArg (Option.bind · _) reserve

/-- There are no branches in the entry function. -/
theorem entry_straight : checked.entry.code.toList.all Instruction.isStraight = true := by
  have straight (stmts : List Stmt) (among : ∀ stmt ∈ stmts, stmt ∈ checked.initializers)
      (base : Nat) : ((Stmt.ofList stmts).assembled (fun _ _ => openBranch) base).all
        Instruction.isStraight = true := by
    induction stmts generalizing base with
    | nil => rfl
    | cons first rest ih =>
      rw [List.forall_mem_cons] at among
      obtain ⟨⟨symbol, value, rfl⟩, _⟩ := analyze_initializer accepted among.1
      rw [Stmt.ofList, Stmt.assembled, List.all_append, ih among.2, Bool.and_true]
      exact declareCode_straight symbol value
  rw [entry_code, List.all_append, straight _ (fun _ member => member)]
  rfl

/-- Without parameters the reserved slots are all that `main` takes. -/
theorem obeysConvention_of_params_eq_nil (small : checked.entrySetting.Small)
    (none : checked.main.params = []) : checked.ObeysConvention := by
  obtain ⟨before, code, rest, reached⟩ := entryStack_call accepted small
  have found := routineAt?_main accepted
  have exact := Setting.toNat_routine small found
  have holes : checked.main.callStack = List.replicate checked.main.returnSlots .hole :=
    (Signature.callStack_eq_holes_iff (main_valued accepted)).mpr none
  have call := checked.entrySetting.advance?_call small found [] rest
  have flow : checked.entrySetting.flow? checked.entry.code.toList ([], checked.entryConstants) =
      some (checked.main.returnType.cells ++ [], rest) := by
    rw [Setting.At, code, List.take_left] at reached
    rw [code, Setting.flow?_append, reached, Option.bind_some, Setting.flow?_cons]
    rw [none, List.append_nil] at call
    exact congrArg (Option.bind · _) call
  refine ⟨?_, fun before after split => entryStack_between accepted small split, before, _, code,
    ?_, holes ▸ ⟨rest, reached⟩⟩
  · exact ⟨_, Setting.stackSafe flow (Setting.lands_straight 0 (entry_straight accepted))⟩
  · rw [exact]
    exact found

theorem ObeysConvention.params_eq_nil (obeys : checked.ObeysConvention)
    (small : checked.entrySetting.Small) : checked.main.params = [] := by
  obtain ⟨before, code, reached⟩ := entryStack_call accepted small
  obtain ⟨before', address, code', _, reached'⟩ := obeys.call
  obtain ⟨rfl, _⟩ := List.append_inj' (code.symm.trans code') rfl
  exact (Signature.callStack_eq_holes_iff (main_valued accepted)).mp (reached'.unique reached)

end

/-- The entry function declares the globals with an empty stack between them and calls `main` on
its reserved slots alone. So it obeys the convention of calls exactly if `main` has no parameters. -/
theorem obeysConvention_iff {source : String} {options : Options} {checked : CheckedProgram}
    (accepted : analyze source options = .ok checked) (short : source.utf8ByteSize < 2 ^ 32 - 1) :
    (∀ before after, checked.initializers = before ++ after →
      checked.EntryStack (Stmt.ofList before).size []) ∧
    (∃ before, checked.entry.code.toList =
        before ++ [.indexed .call (UInt32.ofNat checked.main.address)] ∧
      checked.EntryStack before.length (List.replicate checked.main.returnSlots .hole)) ∧
    (checked.ObeysConvention ↔ checked.main.params = []) := by
  have small := analyze_entrySmall accepted short
  exact ⟨fun before after split => entryStack_between accepted small split,
    entryStack_call accepted small,
    fun obeys => obeys.params_eq_nil accepted small, obeysConvention_of_params_eq_nil accepted small⟩

/-- Globals with first values that need calls, and a `main` without parameters that returns a
value. -/
theorem obeysConvention_iff_globals : ∃ checked : CheckedProgram,
    analyze ("fn f(x: int, y: double) -> int \x7b return x; \x7d let g: double = 1.5; let h: int; " ++
      "const c: int = 2 * f(f(3, g), -g); fn main() -> int \x7b return c; \x7d") {} = .ok checked ∧
    checked.initializers.length = 3 ∧ checked.ObeysConvention := by
  generalize text : "fn f(x: int, y: double) -> int \x7b return x; \x7d let g: double = 1.5; let h: int; " ++
    "const c: int = 2 * f(f(3, g), -g); fn main() -> int \x7b return c; \x7d" = source
  have short : source.utf8ByteSize < 2 ^ 32 - 1 := by
    subst text
    decide +kernel
  have read : (match analyze source {} with
      | .ok checked => checked.initializers.length == 3 && checked.main.params.isEmpty
      | .error _ => false) = true := by
    subst text
    decide +kernel
  cases accepted : analyze source {} with
  | error fault => simp [accepted] at read
  | ok checked =>
    simp only [accepted, Bool.and_eq_true, beq_iff_eq, List.isEmpty_iff] at read
    exact ⟨checked, rfl, read.1, (obeysConvention_iff accepted short).2.2.mpr read.2⟩

/-- A `main` with a parameter is accepted, and called without an argument. -/
theorem not_obeysConvention_param : ∃ checked : CheckedProgram,
    analyze "fn main(a: int) -> void \x7b\x7d" {} = .ok checked ∧ ¬ checked.ObeysConvention := by
  generalize text : "fn main(a: int) -> void \x7b\x7d" = source
  have short : source.utf8ByteSize < 2 ^ 32 - 1 := by
    subst text
    decide +kernel
  have read : (match analyze source {} with
      | .ok checked => !checked.main.params.isEmpty
      | .error _ => false) = true := by
    subst text
    decide +kernel
  cases accepted : analyze source {} with
  | error fault => simp [accepted] at read
  | ok checked =>
    simp only [accepted, Bool.not_eq_true', List.isEmpty_eq_false_iff] at read
    refine ⟨checked, rfl, fun obeys => read ?_⟩
    exact obeys.params_eq_nil accepted (analyze_entrySmall accepted short)

end CheckedProgram

end C0
