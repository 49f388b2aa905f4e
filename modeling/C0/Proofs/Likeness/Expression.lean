import C0.Proofs.Likeness

namespace C0

open Analysis

namespace Analysis

/-- Operators that cannot be applied are blamed themselves. -/
theorem reduce_blames {operands : List Expr} {operator : Operator × Nat} {fault : Fault Nat}
    (failed : reduce operands operator = .error fault) :
    fault = ⟨.typeMismatch, operator.2⟩ := by
  obtain ⟨op, site⟩ := operator
  unfold reduce at failed
  dsimp only at failed
  split at failed
  · split at failed
    · split at failed <;> cases failed
      rfl
    · cases failed
      rfl
  · split at failed
    · split at failed <;> cases failed
      rfl
    · cases failed
      rfl

theorem reduceAll_blames {operators : List (Operator × Nat)} {operands : List Expr}
    {fault : Fault Nat} (failed : reduceAll operands operators = .error fault) :
    fault.cause = .typeMismatch ∧ fault.site ∈ operators.map Prod.snd := by
  induction operators generalizing operands with
  | nil => cases failed
  | cons operator operators ih =>
    simp only [reduceAll, List.foldlM_cons] at failed
    cases first : reduce operands operator with
    | error other =>
      rw [first] at failed
      cases failed
      simp [reduce_blames first]
    | ok reduced =>
      rw [first] at failed
      obtain ⟨mismatch, member⟩ := ih failed
      exact ⟨mismatch, List.mem_cons_of_mem _ member⟩

end Analysis

namespace Likeness

variable {L : Likeness} {known : List Nat} {scope : Scope}

theorem register_alike (entry : Entry) :
    L.Alike known siteless (register entry) (register entry) :=
  .ofQuiet ⟨fun _ => rfl, fun _ => rfl, fun _ _ => rfl⟩

theorem markInitialized_alike (v : Variable) :
    L.Alike known siteless (markInitialized v) (markInitialized v) := by
  unfold markInitialized
  cases v.rank with
  | none => exact .pure (by simp)
  | some rank => exact .ofQuiet ⟨fun _ => rfl, fun _ => rfl, fun _ _ => rfl⟩

theorem resolve_alike {name : String} {site : Nat} (member : site ∈ known) :
    L.Alike known siteless (resolve scope name site) (resolve scope name site) := by
  refine .get_bind (fun _ _ => rfl) fun s => ?_
  cases s.symbols.lookupLocal? name scope.rank with
  | some symbol => exact .pure (by simp)
  | none =>
    cases scope.signature.param? name with
    | some found => exact .pure (by simp)
    | none =>
      cases s.symbols.lookupGlobal? name with
      | some symbol => exact .pure (by simp)
      | none => exact .fail rfl member

theorem callee_alike {name : String} {site : Nat} (member : site ∈ known) :
    L.Alike known siteless (callee scope name site) (callee scope name site) := by
  unfold callee
  split
  · exact .pure (by simp)
  · refine .get_bind (fun _ _ => rfl) fun s => ?_
    cases s.definitions.find? (·.signature.name == name) with
    | some definition => exact .pure (by simp)
    | none => exact .fail rfl member

/-- Two readers of expressions that are alike and never go back. -/
structure ExprPair (L : Likeness) (f f' : Scope → Analysis Expr) : Prop where
  alike : ∀ scope, L.Alike [] siteless (f scope) (f' scope)
  forward : ∀ scope, Forward (f scope)
  forward' : ∀ scope, Forward (f' scope)

theorem ExprPair.anywhere {f f' : Scope → Analysis Expr} (pair : L.ExprPair f f') (scope : Scope) :
    L.Alike known siteless (f scope) (f' scope) :=
  (pair.alike scope).weaken (by simp)

/-- The sites where arguments start. -/
abbrev argumentSites (arguments : List (Expr × Nat)) : List Nat :=
  arguments.map Prod.snd

theorem argument_alike {f f' : Scope → Analysis Expr} (pair : L.ExprPair f f')
    (before : List (Expr × Nat)) :
    L.Alike (argumentSites before ++ known) (Sum.elim argumentSites argumentSites)
      (argument scope f before) (argument scope f' before) := by
  refine .peek_bind fun kind site => AlikeFrom.bind ((pair.anywhere scope).from _ _) fun value =>
    (AlikeFrom.eat (by simp)).bind fun comma => ?_
  have placed : argumentSites (before ++ [(value, site)]) ⊆
      comma.toList ++ (siteless value ++ site :: (argumentSites before ++ known)) := by
    intro other member
    simp only [argumentSites, List.map_append, List.mem_append] at member ⊢
    rcases member with member | member
    · exact .inr (.inr (.tail _ (List.mem_append_left _ member)))
    · rw [List.mem_singleton.mp member]
      exact .inr (.inr (.head _))
  cases comma with
  | none => exact .pure placed
  | some site => exact .pure placed

theorem matchParams_alike {arguments : List (Expr × Nat)} {params : List Param} {site : Nat}
    (member : site ∈ known) (placed : argumentSites arguments ⊆ known) :
    L.Alike known siteless (matchParams arguments params site)
      (matchParams arguments params site) := by
  refine .refuse_bind rfl member ?_
  cases found : (arguments.zip params).find? fun pair => pair.1.1.ty != pair.2.ty with
  | none => exact .pure (by simp)
  | some pair =>
    have among := (List.of_mem_zip (List.mem_of_find?_eq_some found)).1
    exact .fail rfl (placed (List.mem_map_of_mem among))

section

variable {inner inner' : Option (Scope → Analysis Expr)} (allowed : Inner ExprPair L inner inner')

include allowed

theorem forward_of_inner (expression : Scope → Analysis Expr) (some : inner = .some expression)
    (scope : Scope) : Forward (expression scope) := by
  cases allowed with
  | both pair =>
    cases some
    exact pair.forward scope
  | _ => cases some

theorem forward_of_inner' (expression : Scope → Analysis Expr) (some : inner' = .some expression)
    (scope : Scope) : Forward (expression scope) := by
  cases allowed with
  | both pair =>
    cases some
    exact pair.forward' scope
  | neither => cases some
  | second _ pair =>
    cases some
    exact pair.forward' scope

theorem assignment_alike {name : String} {site : Nat} (member : site ∈ known) :
    L.Alike known siteless (assignment inner scope name site)
      (assignment inner' scope name site) :=
  (resolve_alike member).bind fun _ => .refuse_bind rfl (by simpa using member) <|
    .expect_bind (by simp) fun _ => .enter_bind allowed (by simp) fun _ _ _ pair =>
      (pair.anywhere scope).bind fun _ => .refuse_bind rfl (by simp) <|
        (markInitialized_alike _).bind fun _ => .pure (by simp)

theorem arguments_alike :
    L.Alike known argumentSites (arguments inner scope) (arguments inner' scope) := by
  refine .expect_bind (by simp) fun opening => .enter_bind allowed (by simp) fun L f f' pair =>
    (AlikeFrom.check _).bind fun isEmpty => ?_
  have values : L.Alike (opening :: known) argumentSites
      (if isEmpty then pure [] else repeatUntil (argument scope f) [])
      (if isEmpty then pure [] else repeatUntil (argument scope f') []) := by
    split
    · exact .pure (by simp)
    · exact .repeatUntil (argument_progresses (pair.forward scope))
        (argument_progresses (pair.forward' scope)) (fun before => argument_alike pair before) []
        (by simp)
  exact values.bind fun _ => (AlikeFrom.expect (by simp)).bind fun _ => .pure (by simp)

theorem libraryArgument_alike {opening : Nat} (argument : Library.Argument)
    (member : opening ∈ known) :
    L.AlikeFrom (·.position = opening + 1) 1 known siteless
      (libraryArgument inner scope opening argument)
      (libraryArgument inner' scope opening argument) := by
  cases argument with
  | nothing => exact (AlikeFrom.pure (by simp)).from _ _
  | value ty =>
    refine .peek_bind fun kind start => .refuse_bind rfl (by simp) ?_
    refine AlikeFrom.restrict (.enter_bind allowed (by simp [member]) fun _ _ _ pair =>
      (pair.anywhere scope).bind fun _ => .refuse_bind rfl (by simp) <| .pure (by simp))
      fun s starts => starts.1
  | text =>
    refine Alike.from (.next_bind (fun site => ⟨.typeMismatch, rfl, rfl, rfl⟩)
      fun kind site _ => ?_) _ _
    cases kind with
    | string value =>
      exact Alike.from ((register_alike _).bind fun _ => .pure (by simp)) _ _
    | _ => exact .fail rfl (by simp)

theorem call_alike {name : String} {site : Nat} (member : site ∈ known) :
    L.Alike known siteless (call inner scope name site) (call inner' scope name site) := by
  unfold call
  cases Library.ofName? name with
  | some function =>
    exact (register_alike _).bind fun _ => .expect_bind (by simp) fun opening =>
      (libraryArgument_alike allowed _ (by simp)).bind fun _ =>
        (AlikeFrom.expect (by simp)).bind fun _ => .pure (by simp)
  | none =>
    exact (callee_alike member).bind fun _ => (arguments_alike allowed).bind fun values =>
      (matchParams_alike (by simp [member]) (by simp)).bind fun _ => .pure (by simp)

theorem named_alike {name : String} {site : Nat} (member : site ∈ known) :
    L.Alike known siteless (named inner scope name site) (named inner' scope name site) := by
  refine .peek_bind fun kind here => ?_
  have loaded : L.Alike (here :: known) siteless
      (resolve scope name site >>= fun source => pure (Expr.load source))
      (resolve scope name site >>= fun source => pure (Expr.load source)) :=
    (resolve_alike (.tail _ member)).bind fun _ => .pure (by simp)
  cases kind with
  | mark mark =>
    cases mark with
    | assign => exact (assignment_alike allowed (.tail _ member)).from _ _
    | openParen => exact (call_alike allowed (.tail _ member)).from _ _
    | _ => exact loaded.from _ _
  | _ => exact loaded.from _ _

theorem parenthesized_alike {opening : Nat} (member : opening ∈ known) :
    L.AlikeFrom (·.position = opening + 1) 1 known siteless (parenthesized inner scope opening)
      (parenthesized inner' scope opening) :=
  .enter_bind allowed member fun _ _ _ pair => (pair.anywhere scope).bind fun _ =>
    (AlikeFrom.expect (by simp)).bind fun _ => .pure (by simp)

theorem primary_alike :
    L.Alike known siteless (primary inner scope) (primary inner' scope) := by
  refine .next_bind (fun site => ⟨.unexpectedToken, rfl, rfl, rfl⟩) fun kind site _ => ?_
  cases kind with
  | identifier name => exact (named_alike allowed (by simp)).from _ _
  | uint | double | char => exact (AlikeFrom.pure (by simp)).from _ _
  | mark mark =>
    cases mark with
    | openParen => exact parenthesized_alike allowed (by simp)
    | _ => exact .fail rfl (by simp)
  | _ => exact .fail rfl (by simp)

omit allowed in
theorem cast_alike (operand : Expr) :
    L.Alike known (Sum.elim siteless siteless) (cast operand) (cast operand) := by
  refine (AlikeFrom.eat (by simp)).bind fun site => ?_
  cases site with
  | none => exact .pure (by simp)
  | some site =>
    exact AlikeFrom.expectType.bind fun _ => .refuse_bind rfl (by simp) <| .pure (by simp)

theorem operand_alike :
    L.Alike known siteless (operand inner scope) (operand inner' scope) :=
  (primary_alike allowed).bind fun value =>
    .repeatUntil cast_progresses cast_progresses (fun operand => cast_alike operand) value (by simp)

/-- The sites of operators that wait. -/
abbrev operatorSites (operators : OperatorStack Nat) : List Nat :=
  operators.pending.map Prod.snd

omit allowed in
theorem negation_alike (operators : OperatorStack Nat) :
    L.Alike (operatorSites operators ++ known) (Sum.elim operatorSites operatorSites)
      (negation operators) (negation operators) := by
  refine (AlikeFrom.eat (by simp)).bind fun site => ?_
  cases site with
  | none => exact .pure (by simp)
  | some site => exact .pure (by simp [operatorSites, OperatorStack.push])

/-- The sites of the operators in an expression of which a part was read. -/
abbrev unfinishedSites (unfinished : Unfinished) : List Nat :=
  operatorSites unfinished.operators

omit allowed in
theorem reduceAll_alike {operands : List Expr} {operators : List (Operator × Nat)}
    (placed : operators.map Prod.snd ⊆ known) :
    L.Alike known siteless (orFail (reduceAll operands operators))
      (orFail (reduceAll operands operators)) := by
  refine .orFail fun fault failed => ?_
  obtain ⟨mismatch, member⟩ := reduceAll_blames failed
  exact ⟨by rw [mismatch]; rfl, placed member⟩

theorem operandAndOperator_alike (before : Unfinished) :
    L.Alike (unfinishedSites before ++ known) (Sum.elim unfinishedSites siteless)
      (operandAndOperator inner scope before) (operandAndOperator inner' scope before) := by
  have signs : L.Alike (unfinishedSites before ++ known) operatorSites
      (repeatUntil negation before.operators) (repeatUntil negation before.operators) :=
    .repeatUntil negation_progresses negation_progresses negation_alike before.operators
      (List.subset_append_left _ _)
  refine signs.bind fun operators => (operand_alike allowed).bind fun value =>
    .peek_bind fun kind site => ?_
  have waiting : operatorSites operators ⊆
      site :: (operatorSites operators ++ (unfinishedSites before ++ known)) :=
    List.subset_cons_of_subset _ (List.subset_append_left _ _)
  dsimp only
  cases found : Operator.binary? kind with
  | some op =>
    have earlier := (List.takeWhile_prefix (OperatorStack.goesBefore op)
      (l := operators.pending)).subset
    have later := (List.dropWhile_suffix (OperatorStack.goesBefore op)
      (l := operators.pending)).subset
    refine .advance_bind (fun s starts =>
      ⟨starts.2.1, kind, starts.2.2, Layered.binary?_notEnd found⟩) (Alike.from ?_ _ _)
    refine (reduceAll_alike (List.Subset.trans (List.map_subset _ earlier) waiting)).bind fun _ =>
      .pure (List.cons_subset.mpr ⟨.head _, List.Subset.trans (List.map_subset _ later) waiting⟩)
  | none =>
    have all := (List.takeWhile_prefix OperatorStack.isApplicable (l := operators.pending)).subset
    refine Alike.from ((reduceAll_alike (List.Subset.trans (List.map_subset _ all) waiting)).bind
      fun operands => ?_) _ _
    split
    · exact .pure (by simp)
    · exact .fail rfl (by simp)

/-- Expressions are alike if what is nested in them is. -/
theorem expressionWith_pair : L.ExprPair (expressionWith inner) (expressionWith inner') where
  alike scope := .repeatUntil
    (Layered.operandAndOperator_progresses (forward_of_inner allowed))
    (Layered.operandAndOperator_progresses (forward_of_inner' allowed))
    (operandAndOperator_alike allowed) _ (by simp [OperatorStack.empty])
  forward scope := .repeatUntil (operandAndOperator_forward (forward_of_inner allowed)) _
  forward' scope := .repeatUntil (operandAndOperator_forward (forward_of_inner' allowed)) _

end

/-- Two runs with the same limit. -/
theorem expression_pair (late : ∀ site, ¬ L.Early ⟨.nestingTooDeep, site⟩) (limit : Nat) :
    L.ExprPair (expression limit) (expression limit) := by
  induction limit with
  | zero => exact expressionWith_pair (.neither late)
  | succ limit ih => exact expressionWith_pair (.both ih)

/-- Two runs of which the first one has the smaller limit and ends early when it is reached. -/
theorem expression_pair_of_lt (early : ∀ site, L.Early ⟨.nestingTooDeep, site⟩)
    {limit limit' : Nat} (less : limit < limit') :
    L.ExprPair (expression limit) (expression limit') := by
  induction limit generalizing limit' with
  | zero =>
    obtain ⟨further, rfl⟩ := Nat.exists_eq_add_of_lt less
    exact expressionWith_pair (.second early (expression_pair (fun _ => id) _))
  | succ limit ih =>
    cases limit' with
    | zero => omega
    | succ limit' => exact expressionWith_pair (.both (ih (by omega)))

end Likeness

end C0
