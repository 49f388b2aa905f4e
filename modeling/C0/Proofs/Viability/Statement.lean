import C0.Proofs.Viability.Expression

namespace C0

open Analysis Pattern

/-- What a declaration looks like behind its type. -/
def initializerForm : Bool → Pattern
  | false => inOrder [maybe (inOrder [sign .assign, rule .expression]), sign .semicolon]
  | true => inOrder [sign .assign, rule .expression, sign .semicolon]

section

variable {after p : Pattern} {scope : Scope}

/-- A type is asked for here too. That it may not be `void` is no matter of tokens. -/
theorem expectValueType_expected :
    Expects after (seq (token .type) p) expectValueType fun _ => p :=
  .expectType_bind fun _ => .silent_bind (.refuse (by simp)) fun _ => .pure rfl

theorem declare_silent (symbol : Symbol) (site : Nat) : Silent (declare symbol site) := by
  refine .bind .get fun s => .bind (.orFail fun fault failed => ?_) fun _ =>
    .modifyGet fun _ => ⟨rfl, rfl⟩
  unfold SymbolTable.declare at failed
  split at failed <;> cases failed
  simp

theorem publish_silent (symbol : Symbol) : Silent (publish symbol) := by
  unfold publish
  split
  · exact .bind (register_silent _) fun _ => .modifyGet fun _ => ⟨rfl, rfl⟩
  · exact .pure _

theorem allocate_silent (scope : Scope) :
    Silent (modifyGet fun s => s.allocate scope : Analysis Nat) := by
  refine .modifyGet fun s => ?_
  unfold State.allocate
  split <;> exact ⟨rfl, rfl⟩

/-- A declaration goes on with a name and a type. Only a constant has to be given a value. -/
theorem declaredSymbol_expected (isConst : Bool) :
    Expects after (chain [token .identifier, sign .colon, token .type] (initializerForm isConst))
      (declaredSymbol scope isConst) fun symbol => initializerForm symbol.isConst :=
  .expectIdentifier_bind fun word => .silent_bind .get fun s => .silent_bind (.refuse (by simp))
    fun _ => .expect_bind (by simp) fun _ => expectValueType_expected.bind fun ty =>
      .silent_bind (allocate_silent scope) fun slot => .silent_bind (declare_silent _ _) fun _ =>
        .silent_bind (publish_silent _) fun _ => .pure rfl

/-- The word that a declaration begins with tells which rest it has. -/
theorem declarationWord_expected : Expects after (rule .declaration) declarationWord fun isConst =>
    chain [token .identifier, sign .colon, token .type] (initializerForm isConst) := by
  intro kind
  cases kind with
  | keyword word =>
    cases word with
    | letWord => exact .rule (.first rfl (.next_bind rfl (by simp) fun _ => .pure rfl))
    | constWord => exact .rule (.other rfl (.next_bind rfl (by simp) fun _ => .pure rfl))
    | _ => exact .next_stuck (fun _ => rfl) rfl
  | _ => exact .next_stuck (fun _ => rfl) rfl

end

section

variable {f : Scope → Analysis Expr} {scope : Scope} {after : Pattern}
  (spelled : SpellsExpression f)

include spelled

/-- A value follows, or the declaration ends. -/
theorem initializer_expected (symbol : Symbol) :
    Expects after (initializerForm symbol.isConst) (initializer f scope symbol)
      fun _ => inOrder [sign .semicolon] := by
  have given (sign' : Nat) : Expects after (chain [rule .expression] (inOrder [sign .semicolon]))
      (do
        let value ← f scope
        refuse (value.ty ≠ symbol.ty) .typeMismatch sign'
        markInitialized symbol.toVariable
        return some value) fun _ => inOrder [sign .semicolon] :=
    (spelled scope _ (closing_of_exactly rfl)).andThen.bind fun value =>
      .silent_bind (.refuse (by simp)) fun _ =>
        .silent_bind (markInitialized_silent _) fun _ => .pure rfl
  unfold initializer initializerSign
  cases symbol.isConst with
  | true =>
    simp only [if_true, bind_map_left]
    exact .expect_bind (by simp) given
  | false =>
    intro kind
    simp only [Bool.false_eq_true, if_false]
    refine .eat_bind (fun _ site => ?_) fun other => ?_
    · refine .present rfl (.congr (fun _ => derives_inOrder_seq_iff) ?_)
      exact .advance_bind rfl (by simp) (given site)
    · refine .skip ?_ (.pure rfl)
      simp [starts, nullable, inOrder, chain, sign, Terminal.accepts, other]

/-- Declarations are read as the grammar has them. -/
theorem declaration_spelled : Spells after (rule .declaration) (declaration f scope) :=
  declarationWord_expected.bind fun isConst => (declaredSymbol_expected isConst).bind fun symbol =>
    (initializer_expected spelled symbol).bind fun value =>
      .expect_bind (by simp) fun _ => .pure rfl

/-- A value follows, or the statement ends. -/
theorem returnedValue_expected (site : Nat) :
    Expects after (chain [maybe (rule .expression)] (inOrder [sign .semicolon]))
      (returnedValue f scope site) fun _ => inOrder [sign .semicolon] := by
  refine fun kind => .check_bind ?_
  by_cases same : kind = .mark .semicolon
  · subst same
    exact .skip rfl (.silent_bind (.refuse (by simp)) fun _ => .pure rfl)
  · have other : (kind == .mark .semicolon) = false := beq_eq_false_iff_ne.mpr same
    rw [other]
    refine .present ?_ (((spelled scope _ (closing_of_exactly rfl)).andThen kind).bind fun value =>
      .silent_bind (.refuse (by simp)) fun _ => .pure rfl)
    simp [starts, nullable, inOrder, chain, sign, Terminal.accepts, same]

theorem giveBack_spelled :
    Spells after (inOrder [word .returnWord, maybe (rule .expression), sign .semicolon])
      (giveBack f scope) :=
  .expect_bind (by simp) fun site => (returnedValue_expected spelled site).bind fun value =>
    .expect_bind (by simp) fun _ => .pure rfl

theorem evaluation_spelled :
    Spells after (inOrder [rule .expression, sign .semicolon]) (evaluation f scope) :=
  (spelled scope _ (closing_of_exactly rfl)).andThen.bind fun value =>
    .expect_bind (by simp) fun _ => .pure rfl

end

/-- A jump out of a loop is its word and a semicolon. -/
theorem loopJump_expected {after : Pattern} {word : Keyword} (scope : Scope) (jump : Stmt) :
    ExpectsAt (.keyword word) after (inOrder [.word word, sign .semicolon]) (loopJump scope jump)
      fun _ => empty :=
  .next_bind (beq_self_eq_true _) (by simp) fun _ => .silent_bind (.refuse (by simp)) fun _ =>
    .expect_bind (by simp) fun _ => .pure rfl

/-- The rule of a construct. -/
def Construct.rule : Construct → Rule
  | block => .block
  | conditional => .conditional
  | iteration => .iteration

/-- Readers read what the grammar says. Behind a conditional nothing else may begin with an
alternative. -/
structure SpellsNested (readers : Readers) : Prop where
  expression : SpellsExpression readers.expression
  nested : ∀ construct scope after,
    (construct = .conditional → after.starts (.keyword .elseWord) = false) →
      Spells after (rule construct.rule) (readers.nested construct scope)

section

variable {readers : Readers} {scope : Scope} {after : Pattern} (spelled : SpellsNested readers)

include spelled

/-- Each statement is known by its first token. No `else` may follow, so that the last conditional
takes it. -/
theorem statement_spelled (apart : after.starts (.keyword .elseWord) = false) :
    Spells after (rule .statement) (statement readers scope) := by
  refine fun kind => .rule (.peek_bind fun site => ?_)
  have evaluated : Spells after _ (evaluation readers.expression scope) :=
    evaluation_spelled spelled.expression
  have declared : Spells after _ (declaration readers.expression scope) :=
    declaration_spelled spelled.expression
  cases kind with
  | keyword word =>
    cases word with
    | letWord | constWord => exact .first rfl (declared _)
    | ifWord =>
      exact .other rfl (.first rfl (spelled.nested .conditional scope after (fun _ => apart) _))
    | whileWord =>
      exact .other rfl (.other rfl (.first rfl
        (spelled.nested .iteration scope after (by simp) _)))
    | returnWord =>
      exact .other rfl (.other rfl (.other rfl (.first rfl
        (giveBack_spelled spelled.expression _))))
    | breakWord =>
      exact .other rfl (.other rfl (.other rfl (.other rfl (.first rfl (loopJump_expected _ _)))))
    | continueWord =>
      exact .other rfl (.other rfl (.other rfl (.other rfl (.other rfl (.first rfl
        (loopJump_expected _ _))))))
    | _ =>
      exact .other rfl (.other rfl (.other rfl (.other rfl (.other rfl (.other rfl (.other rfl
        (.other rfl (evaluated _))))))))
  | mark mark =>
    cases mark with
    | openBrace =>
      exact .other rfl (.other rfl (.other rfl (.other rfl (.other rfl (.other rfl (.first rfl
        (spelled.nested .block scope.inner after (by simp) _)))))))
    | semicolon =>
      refine .other rfl (.other rfl (.other rfl (.other rfl (.other rfl (.other rfl (.other rfl
        (.first rfl (.congr (fun _ => derives_seq_empty_iff.symm) ?_))))))))
      exact .advance_bind rfl (by simp) (.pure rfl)
    | _ =>
      exact .other rfl (.other rfl (.other rfl (.other rfl (.other rfl (.other rfl (.other rfl
        (.other rfl (evaluated _))))))))
  | _ =>
    exact .other rfl (.other rfl (.other rfl (.other rfl (.other rfl (.other rfl (.other rfl
      (.other rfl (evaluated _))))))))

/-- One turn of the block reader: a statement, or the end of the block. -/
theorem statementOrEnd_expected (before : List Stmt) :
    Expects after (chain [many (rule .statement)] (inOrder [sign .closeBrace]))
      (statementOrEnd readers scope before)
      (Sum.elim (fun _ => chain [many (rule .statement)] (inOrder [sign .closeBrace]))
        fun _ => inOrder [sign .closeBrace]) := by
  refine fun kind => .check_bind ?_
  by_cases same : kind = .mark .closeBrace
  · subst same
    exact .stop rfl (.pure rfl)
  · have other : (kind == .mark .closeBrace) = false := beq_eq_false_iff_ne.mpr same
    rw [other]
    refine .again ?_ (((statement_spelled spelled rfl).andThen kind).bind fun next => .pure rfl)
    simp [starts, nullable, inOrder, chain, sign, Terminal.accepts, same]

/-- A condition is an expression that the block after it closes. -/
theorem test_expected {p : Pattern} (closing : Closing (seq p after)) (site : Nat) :
    Expects after (seq (rule .expression) p) (test readers scope site) fun _ => p :=
  (spelled.expression scope _ closing).andThen.bind fun _ =>
    .silent_bind (.refuse (by simp)) fun _ => .pure rfl

/-- An `else` belongs to the conditional before it. -/
theorem alternative_spelled (apart : after.starts (.keyword .elseWord) = false) :
    Spells after (inOrder [maybe (inOrder [word .elseWord, choice (rule .conditional)
      [rule .block]])]) (alternative readers scope) := by
  refine fun kind => .eat_bind (fun _ site => ?_) fun other => ?_
  · refine .present apart (.congr (fun _ => derives_inOrder_seq_iff) ?_)
    refine .advance_bind rfl (by simp) (.congr (fun _ => derives_seq_empty_iff) fun kind => ?_)
    refine .check_bind ?_
    by_cases same : kind = .keyword .ifWord
    · subst same
      exact .first rfl (spelled.nested .conditional scope after (fun _ => apart) _)
    · have other : (kind == .keyword .ifWord) = false := beq_eq_false_iff_ne.mpr same
      rw [other]
      refine .other ?_ (spelled.nested .block scope.inner after (by simp) kind)
      simp [starts, nullable, Rule.firsts, Terminal.accepts, same]
  · refine .skip ?_ (.pure rfl)
    simp [starts, nullable, inOrder, chain, word, Terminal.accepts, other]

end

/-- A block does not carry an expression on. -/
theorem closing_of_block {p after : Pattern} : Closing (seq (seq (rule .block) p) after) := by
  intro kind goes
  simp [starts, nullable, Rule.firsts, Terminal.accepts,
    Kind.ne_of_goesOn goes (.mark .openBrace) rfl]

section

variable {inner : Option Readers} {scope : Scope} {after : Pattern}
  (spelled : ∀ readers, inner = some readers → SpellsNested readers)
  (moves : ∀ readers, inner = some readers → ReadersMove readers)

include spelled

include moves in
theorem block_spelled : Spells after (rule .block) (block inner scope) := by
  refine .rule (.expect_bind (by simp) fun opening kind => .enter_bind fun readers allowed => ?_)
  have listed : Expects after (chain [many (rule .statement)] (inOrder [sign .closeBrace]))
      (repeatUntil (statementOrEnd readers scope) []) fun _ => inOrder [sign .closeBrace] :=
    .repeatUntil (statementOrEnd_progresses (moves readers allowed) scope)
      (statementOrEnd_expected (spelled readers allowed)) []
  exact (listed kind).bind fun body => .expect_bind (by simp) fun closing =>
    .silent_bind (.modifyGet fun _ => ⟨rfl, rfl⟩) fun _ => .pure rfl

theorem conditional_spelled (apart : after.starts (.keyword .elseWord) = false) :
    Spells after (rule .conditional) (conditional inner scope) := by
  refine .rule (.expect_bind (by simp) fun site kind => .enter_bind fun readers allowed => ?_)
  have nested := spelled readers allowed
  refine (test_expected nested closing_of_block site kind).bind fun value => ?_
  refine (nested.nested .block scope.inner _ (by simp)).andThen.bind fun yes => ?_
  exact (alternative_spelled nested apart).bind fun no => .pure rfl

theorem iteration_spelled : Spells after (rule .iteration) (iteration inner scope) := by
  refine .rule (.expect_bind (by simp) fun site kind => .enter_bind fun readers allowed => ?_)
  have nested := spelled readers allowed
  refine (test_expected nested closing_of_block site kind).bind fun value => ?_
  exact (nested.nested .block scope.innerLoop _ (by simp)).andThen.bind fun body => .pure rfl

include moves in
/-- Each construct is read as its rule has it, if those inside it are. -/
theorem constructWith_spelled (construct : Construct)
    (apart : construct = .conditional → after.starts (.keyword .elseWord) = false) :
    Spells after (rule construct.rule) (constructWith inner construct scope) := by
  cases construct with
  | block => exact (block_spelled spelled moves).bind fun _ => .pure rfl
  | conditional => exact conditional_spelled spelled (apart rfl)
  | iteration => exact iteration_spelled spelled

end

/-- Constructs are read as the grammar has them. The induction is on the levels that are left. -/
theorem nested_spelled (limit : Nat) (construct : Construct) (scope : Scope) (after : Pattern)
    (apart : construct = .conditional → after.starts (.keyword .elseWord) = false) :
    Spells after (rule construct.rule) (nested limit construct scope) := by
  induction limit generalizing construct scope after with
  | zero => exact constructWith_spelled (by simp) (by simp) construct apart
  | succ limit ih =>
    refine constructWith_spelled ?_ (readersBelow_moves (limit + 1)) construct apart
    rintro _ ⟨rfl⟩
    exact ⟨expression_spelled limit, ih⟩

theorem readersBelow_spelled (limit : Nat) (readers : Readers)
    (allowed : readersBelow limit = some readers) : SpellsNested readers := by
  cases limit with
  | zero => simp [readersBelow] at allowed
  | succ limit =>
    cases Option.some.inj allowed
    exact ⟨expression_spelled limit, nested_spelled limit⟩

end C0
