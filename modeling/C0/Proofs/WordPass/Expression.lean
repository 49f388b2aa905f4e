import C0.Proofs.WordPass.Exact

namespace C0

namespace Operator

/-- How many instructions an operator has at most. -/
def cost (op : Operator) : Nat :=
  max ((op.instructions? .int).getD []).length ((op.instructions? .double).getD []).length

theorem length_instructions? {op : Operator} {ty : Ty} {code : List Instruction}
    (found : op.instructions? ty = some code) : code.length ≤ op.cost := by
  have length : code.length = ((op.instructions? ty).getD []).length := by rw [found]; rfl
  rw [length]
  cases ty with
  | int => exact Nat.le_max_left _ _
  | double => exact Nat.le_max_right _ _
  | void => cases op <;> exact Nat.zero_le _

/-- A token pays for the operator that it stands for between two operands. -/
theorem cost_binary? {kind : Kind} {op : Operator} (known : binary? kind = some op) :
    op.cost ≤ 2 * kind.weight :=
  Nat.max_le.mpr ⟨instructions?_length known .int, instructions?_length known .double⟩

end Operator

/-- How many instructions operators that wait have at most. -/
def owed {σ : Type} (operators : List (Operator × σ)) : Nat :=
  (operators.map fun operator => operator.1.cost).sum

theorem owed_cons {σ : Type} (operator : Operator × σ) (operators : List (Operator × σ)) :
    owed (operator :: operators) = operator.1.cost + owed operators := by
  rw [owed, List.map_cons, List.sum_cons, ← owed]

/-- Operators that are applied are paid for, and the others are owed still. -/
theorem owed_split {σ : Type} (p : Operator × σ → Bool) (operators : List (Operator × σ)) :
    owed (operators.takeWhile p) + owed (operators.dropWhile p) = owed operators := by
  rw [owed, owed, owed, ← List.sum_append, ← List.map_append, List.takeWhile_append_dropWhile]

section

variable {source : String} {depth code made : Nat}

namespace SinglePass

/-- The instructions of an operator are paid for by its token. -/
theorem apply_pays {op : Operator} {ty : Ty} {span : Span} (enough : op.cost ≤ code) :
    Establishes (Paid source depth code made) (apply op ty span)
      fun _ => Paid source depth (code - op.cost) made := by
  unfold apply
  split
  next written found =>
    exact (write_pays op.cost (Operator.length_instructions? found) enough).bind fun _ =>
      .pure fun _ => id
  next => exact .fail

/-- An operator that was owed for is paid for when it is applied. -/
theorem reduce_pays {types : List Ty} {operator : Operator × Span}
    (enough : operator.1.cost ≤ code) :
    Establishes (Paid source depth code made) (reduce types operator)
      fun _ => Paid source depth (code - operator.1.cost) made := by
  unfold reduce
  dsimp only
  split
  · split
    · exact (apply_pays enough).bind fun _ => .pure fun _ => id
    · exact .alarm
  · split
    · exact .refuse_bind ((apply_pays enough).bind fun _ => .pure fun _ => id)
    · exact .alarm

/-- Operators that are applied one after the other have been paid for. -/
theorem reduceAll_pays {types : List Ty} {operators : List (Operator × Span)}
    (enough : owed operators ≤ code) :
    Establishes (Paid source depth code made) (operators.foldlM reduce types)
      fun _ => Paid source depth (code - owed operators) made := by
  induction operators generalizing types code with
  | nil => exact .pure fun _ => id
  | cons operator operators ih =>
    rw [owed_cons] at enough ⊢
    rw [List.foldlM_cons, ← Nat.sub_sub]
    exact (reduce_pays (by omega)).bind fun _ => ih (by omega)

/-- A minus sign is owed for until its operand is read. -/
theorem negation_pays {operators : OperatorStack Span} :
    Establishes (Paid source depth (code + owed operators.pending) made) (negation operators)
      (Sum.elim (fun more => Paid source depth (code + owed more.pending) made)
        fun more => Paid source depth (code + owed more.pending) made) := by
  refine (eat_pays 1 (by decide)).bind fun sign => ?_
  cases sign with
  | none => exact .pure fun _ => id
  | some span =>
    refine .pure fun _ paid => ?_
    have pushed : owed (operators.push .negate span).pending = 1 + owed operators.pending :=
      owed_cons _ _
    rw [Sum.elim_inl, pushed]
    exact paid.less (by omega) (by omega)

theorem cast_pays {ty : Ty} : Establishes (Paid source depth code made) (cast ty)
    (Sum.elim (fun _ => Paid source depth code made) fun _ => Paid source depth code made) := by
  refine (eat_pays 2 (by decide)).bind fun word => ?_
  cases word with
  | none => exact .pure fun _ => id
  | some span =>
    refine expectType_pays.bind fun target => .refuse_bind ?_
    exact (write_pays 1 (castCode_length ty target.1) (by omega)).bind fun _ =>
      .pure fun _ paid => paid.less (by omega) (by omega)

end SinglePass

namespace WordPass

open SinglePass

theorem resolve_exact {rank : Nat} {name : String} {span : Span} :
    Exact source (Paid source depth code made) (resolve .words rank name span)
      (resolve .exact rank name span) fun _ => Paid source depth code made := by
  refine .get_bind fun found paid => Exact.before ?_ fun _ holds => holds.2
  have params := paid.params
  cases found.symbols.lookupLocal? name rank with
  | some symbol => exact .pure fun _ => id
  | none =>
    refine .param?_bind params ?_
    cases known : found.desk.target.param? name with
    | some place =>
      have inside := Signature.param?_lt known
      have slots : found.desk.target.returnSlots ≤ 1 := by
        rw [Signature.returnSlots]
        cases found.desk.target.returnType <;> decide
      refine .keep_bind (fun small => ?_) (.pure fun _ => id)
      rw [Signature.paramOffset]
      omega
    | none =>
      cases found.symbols.lookupGlobal? name with
      | some symbol => exact .pure fun _ => id
      | none => exact .self .fail

/-- Both passes do the same, and its tokens pay for what it makes. -/
def ExactPaid {α : Type} (source : String) (words step : SinglePass α) : Prop :=
  ∀ {depth code made}, Exact source (Paid source depth code made) words step
    fun _ => Paid source depth code made

/-- The name of a call was taken before, and pays for the call too. -/
def ExactCall (source : String) (words step : SinglePass Ty) : Prop :=
  ∀ {depth code made}, Exact source (Paid source depth (code + 2) (made + 1)) words step
    fun _ => Paid source depth code made

/-- The routines of two passes do the same. A block enters a level before anything in it is
compiled, so its rank may be one further than the levels around it. -/
structure ExactRoutines (source : String) (words steps : Routines) : Prop where
  function : ExactPaid source words.function steps.function
  block : ∀ {rank depth code made}, rank ≤ depth + 1 →
    Exact source (Paid source depth code made) (words.block rank) (steps.block rank)
      fun _ => Paid source depth code made
  statement : ∀ {rank depth code made}, rank ≤ depth → 1 ≤ code →
    Exact source (Paid source depth code made) (words.statement rank) (steps.statement rank)
      fun _ => Paid source depth code made
  declaration : ∀ {rank}, ExactPaid source (words.declaration rank) (steps.declaration rank)
  conditional : ∀ {rank depth code made}, rank ≤ depth →
    Exact source (Paid source depth code made) (words.conditional rank) (steps.conditional rank)
      fun _ => Paid source depth code made
  iteration : ∀ {rank depth code made}, rank ≤ depth →
    Exact source (Paid source depth code made) (words.iteration rank) (steps.iteration rank)
      fun _ => Paid source depth code made
  loopJump : ∀ {jump depth code made}, 1 ≤ code →
    Exact source (Paid source depth code made) (words.loopJump jump) (steps.loopJump jump)
      fun _ => Paid source depth code made
  giveBack : ∀ {rank}, ExactPaid source (words.giveBack rank) (steps.giveBack rank)
  expression : ∀ {rank}, ExactPaid source (words.expression rank) (steps.expression rank)
  operand : ∀ {rank}, ExactPaid source (words.operand rank) (steps.operand rank)
  primary : ∀ {rank}, ExactPaid source (words.primary rank) (steps.primary rank)
  assignment : ∀ {rank name span},
    ExactPaid source (words.assignment rank name span) (steps.assignment rank name span)
  call : ∀ {rank name span},
    ExactCall source (words.call rank name span) (steps.call rank name span)
  arguments : ∀ {rank}, ExactPaid source (words.arguments rank) (steps.arguments rank)
  libraryCall : ∀ {rank function},
    ExactCall source (words.libraryCall rank function) (steps.libraryCall rank function)

section

variable {limit rank : Nat} {words steps : Routines} (inner : ExactRoutines source words steps)

include inner

/-- An assignment has its address and its store from the name and the sign. -/
theorem assignment_exact {name : String} {span : Span} :
    Exact source (Paid source depth code made) (assignment .words limit words rank name span)
      (assignment .exact limit steps rank name span) fun _ => Paid source depth code made := by
  refine resolve_exact.bind fun target => .refuse_bind ?_
  refine .self_bind (expect_pays 1 (by decide)) fun sign => ?_
  refine .self_bind (write_pays 1 (Nat.le_refl _) (by omega)) fun _ => ?_
  refine (enter_exact (by omega)).bind fun _ => inner.expression.bind fun ty => ?_
  refine .self_bind leave_pays fun _ => .refuse_bind ?_
  refine .self_bind (write_pays 1 (Nat.le_refl _) (by omega)) fun _ => ?_
  refine .self_bind markInitialized_pays fun _ => ?_
  exact .pure fun _ paid => paid.less (by omega) (by omega)

theorem argument_exact {before : List (Ty × Span)} :
    Exact source (Paid source depth code made) (argument words rank before)
      (argument steps rank before)
      (Sum.elim (fun _ => Paid source depth code made) fun _ => Paid source depth code made) := by
  refine peek_bind fun start => inner.expression.bind fun ty => ?_
  refine .self_bind (eat_pays 1 (by decide)) fun comma => ?_
  cases comma with
  | none => exact .pure fun _ => id
  | some span => exact .pure fun _ paid => paid.less (by omega) (by omega)

/-- The parentheses of a call pay for the level. -/
theorem arguments_exact :
    Exact source (Paid source depth code made) (arguments .words limit words rank)
      (arguments .exact limit steps rank) fun _ => Paid source depth code made := by
  refine .self_bind (expect_pays 1 (by decide)) fun opening => ?_
  refine (enter_exact (by omega)).bind fun _ => .self_bind (check_pays _) fun isEmpty => ?_
  have values : Exact source (Paid source (depth + 1) (code + 2 * 1) (made + 1 - 1))
      (if isEmpty then pure [] else repeatUntil (argument words rank) [])
      (if isEmpty then pure [] else repeatUntil (argument steps rank) [])
      fun _ => Paid source (depth + 1) (code + 2 * 1) (made + 1 - 1) := by
    split
    · exact .pure fun _ => id
    · exact .repeatUntil (fun _ => argument_exact inner) []
  refine values.bind fun types => .self_bind (expect_pays 1 (by decide)) fun _ => ?_
  refine .self_bind leave_pays fun _ => ?_
  exact .pure fun _ paid => paid.less (by omega) (by omega)

/-- A text in the directory is paid for by its token. -/
theorem libraryArgument_exact {opening : Span} {argument : Library.Argument} (enough : 1 ≤ made) :
    Exact source (Paid source depth code made)
      (libraryArgument .words limit words rank opening argument)
      (libraryArgument .exact limit steps rank opening argument)
      fun _ => Paid source depth code made := by
  cases argument with
  | nothing => exact .pure fun _ => id
  | value ty =>
    refine peek_bind fun start => .refuse_bind ?_
    refine (enter_exact (by omega)).bind fun _ => inner.expression.bind fun ty => ?_
    refine .self_bind leave_pays fun _ => .self ?_
    exact Establishes.refuse.after fun _ _ holds => holds.2.less (by omega) (by omega)
  | text =>
    refine .self_bind next_pays fun token => ?_
    obtain ⟨kind, span⟩ := token
    cases kind with
    | string value =>
      change Exact source (Paid source depth (code + 2) (made + 1)) _ _ _
      refine .self_bind slice_keeps fun text => ?_
      refine (register_exact (by omega)).bind fun address => .self ?_
      refine (write_pays 1 (Nat.le_refl _) (by omega)).after ?_
      exact fun _ _ paid => paid.less (by omega) (by omega)
    | _ => exact .self .fail

/-- The name of a routine is worth an entry and an instruction. -/
theorem libraryCall_exact {function : Library} :
    Exact source (Paid source depth (code + 2) (made + 1))
      (libraryCall .words limit words rank function) (libraryCall .exact limit steps rank function)
      fun _ => Paid source depth code made := by
  refine (register_exact (by omega)).bind fun address => ?_
  refine .self_bind (write_pays 1 (Nat.le_refl _) (by omega)) fun _ => ?_
  refine .self_bind (expect_pays 1 (by decide)) fun opening => ?_
  refine (libraryArgument_exact inner (by omega)).bind fun _ => ?_
  refine .self_bind (expect_pays 1 (by decide)) fun _ => ?_
  refine .self_bind (write_pays 1 (Nat.le_refl _) (by omega)) fun _ => ?_
  exact .pure fun _ paid => paid.less (by omega) (by omega)

/-- Two instructions of a call are paid for by its name. -/
theorem call_exact {name : String} {span : Span} :
    Exact source (Paid source depth (code + 2) (made + 1)) (call words rank name span)
      (call steps rank name span) fun _ => Paid source depth code made := by
  unfold call
  cases Library.ofName? name with
  | some function => exact inner.libraryCall
  | none =>
    refine .self_bind callee_keeps fun signature => ?_
    refine .self_bind (write_pays 1 (Nat.le_refl _) (by omega)) fun _ => ?_
    refine inner.arguments.bind fun types => .self_bind matchParams_keeps fun _ => ?_
    refine .self_bind (write_pays 1 (Nat.le_refl _) (by omega)) fun _ => ?_
    exact .pure fun _ paid => paid.less (by omega) (by omega)

theorem named_exact {name : String} {span : Span} :
    Exact source (Paid source depth (code + 2) (made + 1)) (named .words words rank name span)
      (named .exact steps rank name span) fun _ => Paid source depth code made := by
  have plain : Exact source (Paid source depth (code + 2) (made + 1))
      (resolve .words rank name span >>= fun v => do
        write [v.place.instruction, .plain .load64]
        return v.ty)
      (resolve .exact rank name span >>= fun v => do
        write [v.place.instruction, .plain .load64]
        return v.ty) fun _ => Paid source depth code made := by
    refine resolve_exact.bind fun v => ?_
    refine .self_bind (write_pays 2 (Nat.le_refl _) (by omega)) fun _ => ?_
    exact .pure fun _ paid => paid.less (by omega) (by omega)
  refine peek_bind fun token => ?_
  obtain ⟨kind, _⟩ := token
  cases kind with
  | mark sign =>
    cases sign with
    | assign => exact inner.assignment.after fun _ _ paid => paid.less (by omega) (by omega)
    | openParen => exact inner.call
    | _ => exact plain
  | _ => exact plain

/-- A level is paid for by the opening of the group. -/
theorem parenthesized_exact {opening : Span} :
    Exact source (Paid source depth (code + 2) (made + 1))
      (parenthesized .words limit words rank opening)
      (parenthesized .exact limit steps rank opening) fun _ => Paid source depth code made := by
  refine (enter_exact (by omega)).bind fun _ => inner.expression.bind fun ty => ?_
  refine .self_bind (expect_pays 1 (by decide)) fun _ => .self_bind leave_pays fun _ => ?_
  exact .pure fun _ paid => paid.less (by omega) (by omega)

theorem primary_exact :
    Exact source (Paid source depth code made) (primary .words limit words rank)
      (primary .exact limit steps rank) fun _ => Paid source depth code made := by
  refine .self_bind next_pays fun token => ?_
  obtain ⟨kind, span⟩ := token
  cases kind with
  | identifier name => exact .self_bind slice_keeps fun _ => named_exact inner
  | uint value | double bits | char value =>
    change Exact source (Paid source depth (code + 2) (made + 1)) _ _ _
    refine .self_bind (write_pays 1 (Nat.le_refl _) (by omega)) fun _ => ?_
    exact .pure fun _ paid => paid.less (by omega) (by omega)
  | mark sign =>
    cases sign with
    | openParen => exact parenthesized_exact inner
    | _ => exact .self .fail
  | _ => exact .self .fail

theorem operand_exact : Exact source (Paid source depth code made) (operand words rank)
    (operand steps rank) fun _ => Paid source depth code made :=
  inner.primary.bind fun ty => .self (.repeatUntil (fun _ => cast_pays) ty)

/-- One turn of the expression reader. What waits is owed for. -/
theorem operandAndOperator_exact (before : SinglePass.Unfinished) :
    Exact source (Paid source depth (code + owed before.operators.pending) made)
      (operandAndOperator words rank before) (operandAndOperator steps rank before)
      (Sum.elim (fun after => Paid source depth (code + owed after.operators.pending) made)
        fun _ => Paid source depth code made) := by
  refine .self_bind (.repeatUntil (fun _ => negation_pays) _) fun operators => ?_
  refine inner.operand.bind fun ty => .self_bind peek_pays fun token => ?_
  cases found : Operator.binary? token.kind with
  | some op =>
    have paysFor := Operator.cost_binary? found
    have split : owed (operators.before op) + owed (operators.after op).pending = _ :=
      owed_split _ operators.pending
    have pushed : owed ((operators.after op).push op token.span).pending =
        op.cost + owed (operators.after op).pending := owed_cons _ _
    refine .self_bind next_faced fun _ => ?_
    refine .self_bind (reduceAll_pays (by omega)) fun types => .pure fun _ paid => ?_
    rw [Sum.elim_inl, pushed]
    exact paid.less (by omega) (by omega)
  | none =>
    have split : owed operators.applicable + owed _ = _ := owed_split _ operators.pending
    refine Exact.before ?_ fun _ holds => holds.2
    refine .self_bind (reduceAll_pays (by omega)) fun types => ?_
    match types with
    | [ty] => exact .pure fun _ paid => paid.less (by omega) (by omega)
    | [] | _ :: _ :: _ => exact .self .alarm

/-- At the end of an expression nothing is owed. -/
theorem expression_exact : Exact source (Paid source depth code made) (expression words rank)
    (expression steps rank) fun _ => Paid source depth code made :=
  .repeatUntil (operandAndOperator_exact inner) ⟨.empty, []⟩

end

end WordPass

end

end C0
