import C0.Proofs.Loop

namespace C0

namespace Analysis

variable {α : Type}

theorem peek_forward : Forward peek := by
  intro s word t run
  obtain ⟨_, _, rfl⟩ := peek_ok_iff.mp run
  exact .refl s

theorem advance_forward : Forward advance := by
  intro s _ t run
  obtain rfl := advance_ok_iff.mp run
  exact .advanced s

theorem pure_forward (a : α) : Forward (pure a) := by
  intro s _ t run
  obtain ⟨_, rfl⟩ := pure_ok_iff.mp run
  exact .refl s

theorem get_forward : Forward get := by
  intro s _ t run
  obtain ⟨_, rfl⟩ := get_ok_iff.mp run
  exact .refl s

theorem fail_forward (cause : Cause) (site : Nat) : Forward (fail cause site : Analysis α) := by
  intro s _ t run
  simp at run

theorem refuse_forward (bad : Prop) [Decidable bad] (cause : Cause) (site : Nat) :
    Forward (refuse bad cause site) := by
  unfold refuse
  split
  · exact fail_forward _ _
  · exact pure_forward _

theorem orFail_forward (checked : Except (Fault Nat) α) : Forward (orFail checked) := by
  intro s _ t run
  obtain ⟨_, rfl⟩ := orFail_ok_iff.mp run
  exact .refl s

/-- A token is taken at most once. -/
theorem next_forward : Forward next :=
  peek_forward.bind fun _ => advance_forward.bind fun _ => pure_forward _

theorem check_forward (kind : Kind) : Forward (check kind) :=
  peek_forward.bind fun _ => pure_forward _

theorem expect_forward (kind : Kind) : Forward (expect kind) :=
  next_forward.bind fun _ => (refuse_forward _ _ _).bind fun _ => pure_forward _

theorem eat_forward (kind : Kind) : Forward (eat kind) := by
  refine peek_forward.bind fun word => ?_
  split
  · exact advance_forward.bind fun _ => pure_forward _
  · exact pure_forward _

theorem expectType_forward : Forward expectType := by
  refine next_forward.bind fun ⟨kind, _⟩ => ?_
  cases kind with
  | type _ => exact pure_forward _
  | _ => exact fail_forward _ _

/-- An entry of the directory takes no token. -/
theorem register_forward (entry : Entry) : Forward (register entry) := by
  intro s address t run
  have same := register_ok_iff.mp run
  simp only [State.register, Prod.mk.injEq] at same
  obtain ⟨_, rfl⟩ := same
  exact ⟨0, rfl, rfl⟩

/-- To look a name up takes no token. -/
theorem resolve_forward (scope : Scope) (name : String) (site : Nat) :
    Forward (resolve scope name site) := by
  refine get_forward.bind fun s => ?_
  cases s.symbols.lookupLocal? name scope.rank with
  | some symbol => exact pure_forward _
  | none =>
    cases scope.signature.param? name with
    | some found => exact pure_forward _
    | none =>
      cases s.symbols.lookupGlobal? name with
      | some symbol => exact pure_forward _
      | none => exact fail_forward _ _

theorem callee_forward (scope : Scope) (name : String) (site : Nat) :
    Forward (callee scope name site) := by
  unfold callee
  split
  · exact pure_forward _
  · refine get_forward.bind fun s => ?_
    cases s.definitions.find? (·.signature.name == name) with
    | some definition => exact pure_forward _
    | none => exact fail_forward _ _

theorem markInitialized_forward (v : Variable) : Forward (markInitialized v) := by
  unfold markInitialized
  cases v.rank with
  | none => exact pure_forward _
  | some rank =>
    intro s _ t run
    obtain rfl := modify_ok_iff.mp run
    exact ⟨0, rfl, rfl⟩

section

variable {inner : Option (Scope → Analysis Expr)} {scope : Scope}

theorem cast_forward (operand : Expr) : Forward (cast operand) := by
  refine (eat_forward _).bind fun site => ?_
  cases site with
  | none => exact pure_forward _
  | some site =>
    exact expectType_forward.bind fun _ => (refuse_forward _ _ _).bind fun _ => pure_forward _

theorem matchParams_forward (arguments : List (Expr × Nat)) (params : List Param) (site : Nat) :
    Forward (matchParams arguments params site) := by
  refine (refuse_forward _ _ _).bind fun _ => ?_
  cases (arguments.zip params).find? fun pair => pair.1.1.ty != pair.2.ty with
  | some pair => exact fail_forward _ _
  | none => exact pure_forward _

variable (nested : ∀ expression, inner = some expression → ∀ scope, Forward (expression scope))

include nested

/-- What is nested is read by a step that never goes back, if the limit allows it at all. -/
theorem enter_bind_forward {site : Nat} {f : (Scope → Analysis Expr) → Analysis α}
    (rest : ∀ expression, (∀ scope, Forward (expression scope)) → Forward (f expression)) :
    Forward (enter inner site >>= f) := by
  intro s a u run
  obtain ⟨expression, t, entered, after⟩ := bind_ok_iff.mp run
  obtain ⟨allowed, rfl⟩ := enter_ok_iff.mp entered
  exact rest expression (nested expression allowed) _ _ _ after

theorem assignment_forward (name : String) (site : Nat) :
    Forward (assignment inner scope name site) :=
  (resolve_forward _ _ _).bind fun _ => (refuse_forward _ _ _).bind fun _ =>
    (expect_forward _).bind fun _ => enter_bind_forward nested fun _ forward =>
      (forward scope).bind fun _ => (refuse_forward _ _ _).bind fun _ =>
        (markInitialized_forward _).bind fun _ => pure_forward _

omit nested in
theorem argument_forward {expression : Scope → Analysis Expr}
    (forward : ∀ scope, Forward (expression scope)) (before : List (Expr × Nat)) :
    Forward (argument scope expression before) := by
  refine peek_forward.bind fun _ => (forward scope).bind fun _ => (eat_forward _).bind fun site => ?_
  cases site <;> exact pure_forward _

/-- Arguments are read forwards, one after the other. -/
theorem arguments_forward : Forward (arguments inner scope) := by
  refine (expect_forward _).bind fun _ => enter_bind_forward nested fun _ forward =>
    (check_forward _).bind fun isEmpty => Forward.bind ?_ fun _ =>
      (expect_forward _).bind fun _ => pure_forward _
  split
  · exact pure_forward _
  · exact .repeatUntil (argument_forward forward) _

theorem libraryArgument_forward (opening : Nat) (argument : Library.Argument) :
    Forward (libraryArgument inner scope opening argument) := by
  cases argument with
  | nothing => exact pure_forward _
  | value ty =>
    exact peek_forward.bind fun _ => (refuse_forward _ _ _).bind fun _ =>
      enter_bind_forward nested fun _ forward => (forward scope).bind fun _ =>
        (refuse_forward _ _ _).bind fun _ => pure_forward _
  | text =>
    refine next_forward.bind fun ⟨kind, _⟩ => ?_
    cases kind with
    | string value => exact (register_forward _).bind fun _ => pure_forward _
    | _ => exact fail_forward _ _

/-- A call is read forwards, of a library function or another one. -/
theorem call_forward (name : String) (site : Nat) : Forward (call inner scope name site) := by
  unfold call
  cases Library.ofName? name with
  | some function =>
    exact (register_forward _).bind fun _ => (expect_forward _).bind fun _ =>
      (libraryArgument_forward nested _ _).bind fun _ => (expect_forward _).bind fun _ =>
        pure_forward _
  | none =>
    exact (callee_forward _ _ _).bind fun _ => (arguments_forward nested).bind fun _ =>
      (matchParams_forward _ _ _).bind fun _ => pure_forward _

/-- What begins with a name is read forwards. -/
theorem named_forward (name : String) (site : Nat) : Forward (named inner scope name site) := by
  refine peek_forward.bind fun word => ?_
  split
  · exact assignment_forward nested _ _
  · exact call_forward nested _ _
  · exact (resolve_forward _ _ _).bind fun _ => pure_forward _

theorem parenthesized_forward (opening : Nat) : Forward (parenthesized inner scope opening) :=
  enter_bind_forward nested fun _ forward => (forward scope).bind fun _ =>
    (expect_forward _).bind fun _ => pure_forward _

/-- An operand begins with a token, and what comes after it never goes back. -/
theorem primary_takes {s t : State} {e : Expr} (run : primary inner scope s = .ok e t) :
    ∃ kind u, kind ≠ .eof ∧ s.Takes kind u ∧ u.LeadsTo t := by
  obtain ⟨⟨kind, site⟩, u, read, rest⟩ := bind_ok_iff.mp run
  obtain ⟨takes, _⟩ := next_ok_iff.mp read
  refine ⟨kind, u, ?_, takes, ?_⟩
  · rintro rfl
    simp at rest
  · cases kind with
    | identifier name => exact named_forward nested name site _ _ _ rest
    | uint | double | char => exact pure_forward _ _ _ _ rest
    | mark mark =>
      cases mark with
      | openParen => exact parenthesized_forward nested site _ _ _ rest
      | _ => exact fail_forward _ _ _ _ _ rest
    | _ => exact fail_forward _ _ _ _ _ rest

/-- An operand is read forwards without its casts. -/
theorem primary_forward : Forward (primary inner scope) := by
  intro s e t run
  obtain ⟨kind, u, _, ⟨_, rfl⟩, leads⟩ := primary_takes nested run
  exact (State.LeadsTo.advanced s).trans leads

/-- An operand is read forwards with its casts. -/
theorem operand_forward : Forward (operand inner scope) :=
  (primary_forward nested).bind fun _ => .repeatUntil cast_forward _

end

theorem negation_forward (operators : OperatorStack Nat) : Forward (negation operators) := by
  refine (eat_forward _).bind fun site => ?_
  cases site <;> exact pure_forward _

/-- What follows an operand: an operator before the next operand, or the end of the expression. -/
def settle (before : Unfinished) (operators : OperatorStack Nat) (value : Expr) :
    Analysis (Unfinished ⊕ Expr) := do
  let operands := value :: before.operands
  let word ← peek
  match Operator.binary? word.kind with
  | some op =>
    advance
    let operands ← orFail (reduceAll operands (operators.before op))
    return .inl ⟨(operators.after op).push op word.site, operands⟩
  | none =>
    match ← orFail (reduceAll operands operators.applicable) with
    | [result] => return .inr result
    | _ => fail .unexpectedToken word.site

/-- What follows an operand is read forwards. -/
theorem settle_forward (before : Unfinished) (operators : OperatorStack Nat) (value : Expr) :
    Forward (settle before operators value) := by
  refine peek_forward.bind fun word => ?_
  cases Operator.binary? word.kind with
  | some op =>
    exact advance_forward.bind fun _ => (orFail_forward _).bind fun _ => pure_forward _
  | none =>
    refine (orFail_forward _).bind fun operands => ?_
    split
    · exact pure_forward _
    · exact fail_forward _ _

/-- An operand and the operator behind it are read forwards. -/
theorem operandAndOperator_forward {inner : Option (Scope → Analysis Expr)} {scope : Scope}
    (nested : ∀ expression, inner = some expression → ∀ scope, Forward (expression scope))
    (before : Unfinished) : Forward (operandAndOperator inner scope before) :=
  (Forward.repeatUntil negation_forward _).bind fun operators =>
    (operand_forward nested).bind fun value => settle_forward before operators value

/-- Reading an expression never goes back. -/
theorem expression_forward (limit : Nat) (scope : Scope) : Forward (expression limit scope) := by
  induction limit generalizing scope with
  | zero => exact .repeatUntil (operandAndOperator_forward (by simp)) _
  | succ limit ih =>
    refine .repeatUntil (operandAndOperator_forward ?_) _
    rintro _ ⟨rfl⟩ scope
    exact ih scope

/-- How to read what an expression of a level has one level further in. -/
def expressionBelow : Nat → Option (Scope → Analysis Expr)
  | 0 => none
  | limit + 1 => some (expression limit)

/-- An expression is read with what is allowed one level further in. -/
theorem expression_eq (limit : Nat) :
    expression limit = expressionWith (expressionBelow limit) := by
  cases limit <;> rfl

/-- A construct is read with what is allowed one level further in. -/
theorem nested_eq (limit : Nat) : nested limit = constructWith (readersBelow limit) := by
  cases limit <;> rfl

/-- What is allowed one level further in is read forwards. -/
theorem expressionBelow_forward (limit : Nat) (reader : Scope → Analysis Expr)
    (allowed : expressionBelow limit = some reader) (scope : Scope) : Forward (reader scope) := by
  cases limit with
  | zero => simp [expressionBelow] at allowed
  | succ limit =>
    cases Option.some.inj allowed
    exact expression_forward limit scope

end Analysis

end C0
