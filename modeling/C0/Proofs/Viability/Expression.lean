import C0.Proofs.Viability

namespace C0

open Analysis Pattern

/-- Whether a token goes on with an expression, at least after some operands. -/
def Kind.goesOn (kind : Kind) : Bool :=
  [Terminal.exactly (.keyword .asWord), .exactly (.mark .assign), .exactly (.mark .openParen),
    .operator].any (·.accepts kind)

/-- What follows an expression does not begin like the rest of one. -/
def Closing (after : Pattern) : Prop :=
  ∀ kind, kind.goesOn = true → after.starts kind = false

/-- The casts behind an operand. -/
def casts : Pattern :=
  many (inOrder [word .asWord, token .type])

/-- The operators behind an operand, each with the next operand. -/
def operations : Pattern :=
  many (inOrder [token .operator, rule .unary])

/-- What follows an operand without casts, if something follows the expression. -/
def operandAfter (after : Pattern) : Pattern :=
  seq (inOrder [casts]) (seq (inOrder [operations]) after)

section

variable {α β : Type} {after form p q : Pattern} {kind : Kind}

theorem register_silent (entry : Entry) : Silent (register entry) :=
  .modifyGet fun _ => ⟨rfl, rfl⟩

theorem resolve_silent (scope : Scope) (name : String) (site : Nat) :
    Silent (resolve scope name site) := by
  refine .bind .get fun s => ?_
  cases s.symbols.lookupLocal? name scope.rank with
  | some symbol => exact .pure _
  | none =>
    cases scope.signature.param? name with
    | some found => exact .pure _
    | none =>
      cases s.symbols.lookupGlobal? name with
      | some symbol => exact .pure _
      | none => exact .fail (by simp)

theorem callee_silent (scope : Scope) (name : String) (site : Nat) :
    Silent (callee scope name site) := by
  unfold callee
  split
  · exact .pure _
  · refine .bind .get fun s => ?_
    cases s.definitions.find? (·.signature.name == name) with
    | some definition => exact .pure _
    | none => exact .fail (by simp)

theorem markInitialized_silent (v : Variable) : Silent (markInitialized v) := by
  unfold markInitialized
  cases v.rank with
  | none => exact .pure _
  | some rank => exact .modifyGet fun _ => ⟨rfl, rfl⟩

theorem matchParams_silent (arguments : List (Expr × Nat)) (params : List Param) (site : Nat) :
    Silent (matchParams arguments params site) := by
  refine .bind (.refuse (by simp)) fun _ => ?_
  cases (arguments.zip params).find? fun pair => pair.1.1.ty != pair.2.ty with
  | some pair => exact .fail (by simp)
  | none => exact .pure _

/-- A comma goes on with a list, and anything else ends it. -/
theorem Expects.comma_bind {a : α} {b : β} {item : Pattern}
    (apart : (seq q after).starts (.mark .comma) = false) :
    Expects after (seq (many (inOrder [sign .comma, item])) q)
      (eat (.mark .comma) >>= fun site => match site with
        | some _ => return Sum.inl a
        | none => return Sum.inr b)
      (Sum.elim (fun _ => chain [item, many (inOrder [sign .comma, item])] q) fun _ => q) := by
  intro kind
  refine .eat_bind (fun _ site => ?_) fun other => ?_
  · refine .again apart (.congr (fun _ => derives_inOrder_seq_iff) ?_)
    exact .advance_bind rfl (by simp) (.pure rfl)
  · refine .stop ?_ (.pure rfl)
    simp [starts, nullable, inOrder, chain, sign, Terminal.accepts, other]

/-- The casts after an operand are read until a token is no cast. -/
theorem casts_spelled (apart : after.starts (.keyword .asWord) = false) (value : Expr) :
    Spells after (inOrder [casts]) (repeatUntil cast value) := by
  refine .repeatUntil cast_progresses (fun operand kind => ?_) value
  refine .eat_bind (fun _ site => ?_) fun other => ?_
  · refine .again apart (.congr (fun _ => derives_inOrder_seq_iff) ?_)
    exact .advance_bind rfl (by simp) (.expectType_bind fun _ =>
      .silent_bind (.refuse (by simp)) fun _ => .pure rfl)
  · refine .stop ?_ (.pure rfl)
    simp [starts, nullable, inOrder, chain, word, Terminal.accepts, other]

namespace Analysis.Layered

/-- One step of an expression: an operand with its signs, and then an operator arrives or all that
waits is closed. -/
def arrival (inner : Option (Scope → Analysis Expr)) (scope : Scope) (p : Pending) :
    Analysis (Unfinished ⊕ Expr) := do
  let e ← unary (operand inner scope)
  let word ← peek
  match Operator.binary? word.kind with
  | some op =>
    advance
    let q ← orFail (p.arrive op word.site e)
    return .inl q.unfinished
  | none =>
    let e ← orFail (close p.waiting e)
    return .inr e

/-- An operand with its operator is read as the layered reader does, so it is enough to tell of that
one. -/
theorem arrival_agrees (inner : Option (Scope → Analysis Expr)) (scope : Scope) (p : Pending)
    (s : State) :
    observe (operandAndOperator inner scope p.unfinished) s =
      observe (arrival inner scope p) s := by
  rw [observe_operandAndOperator, arrival, observe_bind]
  congr 1
  funext ⟨e, t⟩
  simp only [observe_bind, observe_peek]
  cases t.current with
  | error cause => rfl
  | ok kind =>
    rw [ok_bind]
    cases found : Operator.binary? kind with
    | some op =>
      simp only [observe_bind, observe_advance, observe_orFail, observe_pure, pure_bind, bind_assoc,
        found]
    | none => simp only [observe_bind, observe_orFail, observe_pure, pure_bind, bind_assoc, found]

/-- What is left to be read stays of one kind through a turn. -/
theorem unfinished_of_arrival {inner : Option (Scope → Analysis Expr)} {scope : Scope} {p : Pending}
    {s t : State} {next : Unfinished} (run : arrival inner scope p s = .ok (.inl next) t) :
    ∃ q : Pending, next = q.unfinished := by
  simp only [arrival, bind_ok_iff] at run
  obtain ⟨e, u, -, word, v, -, run⟩ := run
  cases found : Operator.binary? word.kind with
  | none => simp [found] at run
  | some op =>
    simp only [found, bind_ok_iff, pure_ok_iff] at run
    obtain ⟨_, _, -, q, _, -, same, _⟩ := run
    exact ⟨q, (Sum.inl.inj same).symm⟩

/-- A fold whose steps blame no token blames none either. -/
theorem foldlM_error {σ ι : Type} {f : σ → ι → Except (Fault Nat) σ} {items : List ι}
    (steps : ∀ a i fault, f a i = .error fault → fault.cause ≠ .unexpectedToken) {a : σ}
    {fault : Fault Nat} (failed : items.foldlM f a = .error fault) :
    fault.cause ≠ .unexpectedToken := by
  induction items generalizing a with
  | nil => cases failed
  | cons i items ih =>
    rw [List.foldlM_cons] at failed
    cases first : f a i with
    | error fault' =>
      rw [first, error_bind] at failed
      cases failed
      exact steps a i _ first
    | ok b =>
      rw [first, ok_bind] at failed
      exact ih failed

theorem signs_error {sites : List Nat} {value : Expr} {fault : Fault Nat}
    (failed : sites.foldlM negate value = .error fault) : fault.cause ≠ .unexpectedToken := by
  refine foldlM_error (fun e site fault failed => ?_) failed
  unfold negate at failed
  split at failed <;> cases failed
  simp

theorem close_error {waiting : List Waiting} {e : Expr} {fault : Fault Nat}
    (failed : close waiting e = .error fault) : fault.cause ≠ .unexpectedToken := by
  refine foldlM_error (fun e w fault failed => ?_) failed
  unfold join at failed
  split at failed <;> cases failed
  simp

theorem arrive_error {p : Pending} {op : Operator} {site : Nat} {e : Expr} {fault : Fault Nat}
    (failed : p.arrive op site e = .error fault) : fault.cause ≠ .unexpectedToken := by
  have closed {waiting : List Waiting} {make : Expr → Pending}
      (failed : (close waiting e >>= fun e => pure (make e)) = .error fault) :
      fault.cause ≠ .unexpectedToken := by
    cases first : close waiting e with
    | ok e => simp [first, pure, Except.pure] at failed
    | error fault' =>
      rw [first, error_bind] at failed
      cases failed
      exact close_error first
  unfold Pending.arrive at failed
  split at failed
  · exact closed failed
  · split at failed
    · exact closed failed
    · split at failed
      · exact closed failed
      · cases failed

end Analysis.Layered

/-- The operators of the grammar are those that the reader knows. -/
theorem accepts_operator (kind : Kind) :
    Terminal.operator.accepts kind = (Operator.binary? kind).isSome := by
  cases kind with
  | mark mark => cases mark <;> rfl
  | _ => rfl

theorem sign_progresses : Progresses Layered.sign := by
  intro sites s after t run
  obtain ⟨site, u, eaten, run⟩ := bind_ok_iff.mp run
  cases site with
  | none => simp at run
  | some site =>
    obtain ⟨_, rfl⟩ := pure_ok_iff.mp run
    exact (eat_some_iff.mp eaten).1.length_lt (by simp)

/-- Signs are read until a token is no sign. -/
theorem signs_expected (apart : (seq p after).starts (.mark .minus) = false) (sites : List Nat) :
    Expects after (seq (many (sign .minus)) p) (repeatUntil Layered.sign sites) fun _ => p := by
  refine .repeatUntil sign_progresses (fun sites kind => ?_) sites
  refine .eat_bind (fun _ site => ?_) fun other => ?_
  · exact .again apart (.advance_bind rfl (by simp) (.pure rfl))
  · refine .stop ?_ (.pure rfl)
    simp [starts, nullable, sign, Terminal.accepts, other]

theorem Kind.ne_of_goesOn (goes : kind.goesOn = true) (other : Kind)
    (stops : other.goesOn = false) : kind ≠ other := by
  rintro rfl
  simp [goes] at stops

/-- A token that does not carry an expression on closes it. -/
theorem closing_of_exactly (stops : kind.goesOn = false) :
    Closing (seq (seq (token (.exactly kind)) p) after) := by
  intro found goes
  simp [starts, nullable, Terminal.accepts, Kind.ne_of_goesOn goes kind stops]

end

/-- What a call of a name looks like behind the name. -/
def callForm (name : String) : Pattern :=
  match (Library.ofName? name).map Library.argument with
  | none => inOrder [sign .openParen, maybe (separated (rule .expression)), sign .closeParen]
  | some .nothing => inOrder [sign .openParen, sign .closeParen]
  | some (.value _) => inOrder [sign .openParen, rule .expression, sign .closeParen]
  | some .text => inOrder [sign .openParen, token .string, sign .closeParen]

/-- What an operand that begins with a name looks like behind the name. -/
def nameForm (name : String) : Pattern :=
  either empty (either (inOrder [sign .assign, rule .expression]) (callForm name))

/-- A reader reads an expression, whatever follows it that does not begin like the rest of one. -/
def SpellsExpression (f : Scope → Analysis Expr) : Prop :=
  ∀ scope after, Closing after → Spells after (rule .expression) (f scope)

section

variable {inner : Option (Scope → Analysis Expr)} {scope : Scope} {after : Pattern}
  (spelled : ∀ f, inner = some f → SpellsExpression f)

include spelled

/-- After its name, an assignment is a sign and an expression. -/
theorem assignment_spelled (closing : Closing after) (name : String) (site : Nat) :
    Spells after (inOrder [sign .assign, rule .expression]) (assignment inner scope name site) := by
  refine .silent_bind (resolve_silent _ _ _) fun target => .silent_bind (.refuse (by simp)) fun _ =>
    .expect_bind (by simp) fun sign kind => .enter_bind fun f allowed => ?_
  refine ((spelled f allowed scope (seq empty after) closing).andThen kind).bind fun value => ?_
  exact .silent_bind (.refuse (by simp)) fun _ =>
    .silent_bind (markInitialized_silent _) fun _ => .pure rfl

/-- After its opening, a group is an expression and its close. -/
theorem parenthesized_spelled (opening : Nat) :
    Spells after (inOrder [rule .expression, sign .closeParen])
      (parenthesized inner scope opening) := by
  refine fun kind => .enter_bind fun f allowed => ?_
  refine ((spelled f allowed scope _ ?_).andThen kind).bind fun value => ?_
  · exact closing_of_exactly rfl
  · exact .expect_bind (by simp) fun _ => .pure rfl

/-- Arguments stand between parentheses, and there may be none. -/
theorem arguments_spelled (forward : ∀ f, inner = some f → ∀ scope, Forward (f scope)) :
    Spells after (inOrder [sign .openParen, maybe (separated (rule .expression)),
      sign .closeParen]) (arguments inner scope) := by
  refine .expect_bind (by simp) fun opening kind => .enter_bind fun f allowed => .check_bind ?_
  have listed : Expects after
      (chain [rule .expression, many (inOrder [sign .comma, rule .expression])]
        (inOrder [sign .closeParen]))
      (repeatUntil (argument scope f) []) fun _ => inOrder [sign .closeParen] := by
    refine .repeatUntil (argument_progresses (forward f allowed scope)) (fun before kind => ?_) []
    refine .peek_bind fun site =>
      ((spelled f allowed scope _ ?_).andThen kind).bind fun value => .comma_bind rfl
    intro kind goes
    simp [starts, nullable, inOrder, chain, sign, Terminal.accepts,
      Kind.ne_of_goesOn goes (.mark .comma) rfl, Kind.ne_of_goesOn goes (.mark .closeParen) rfl]
  have closed (values : List (Expr × Nat)) : Spells after (inOrder [sign .closeParen])
      (expect (.mark .closeParen) >>= fun _ => pure values) :=
    .expect_bind (by simp) fun _ => .pure rfl
  by_cases same : kind = .mark .closeParen
  · subst same
    exact .skip rfl (closed [] _)
  · have other : (kind == .mark .closeParen) = false := beq_eq_false_iff_ne.mpr same
    rw [other]
    refine .present ?_ (.congr (fun _ => derives_inOrder_seq_iff) ?_)
    · simp [starts, nullable, chain, sign, Terminal.accepts, same]
    · exact (listed kind).bind closed

/-- A call is read as its name asks: a library name takes what its routine takes. -/
theorem call_spelled (forward : ∀ f, inner = some f → ∀ scope, Forward (f scope)) (name : String)
    (site : Nat) : Spells after (callForm name) (call inner scope name site) := by
  unfold call callForm
  cases Library.ofName? name with
  | none =>
    refine .silent_bind (callee_silent _ _ _) fun signature => ?_
    refine (arguments_spelled spelled forward).bind fun values => ?_
    exact .silent_bind (matchParams_silent _ _ _) fun _ => .pure rfl
  | some function =>
    refine .silent_bind (register_silent _) fun address => ?_
    have closed (values : List Expr) : Spells after (inOrder [sign .closeParen])
        (expect (.mark .closeParen) >>= fun _ =>
          pure (Expr.call (.library address function) values)) :=
      .expect_bind (by simp) fun _ => .pure rfl
    simp only [Option.map_some]
    cases function.argument with
    | nothing => exact .expect_bind (by simp) fun opening => closed []
    | value ty =>
      refine .expect_bind (by simp) fun opening kind => .bind (.peek_bind fun site => ?_) closed
      refine .silent_bind (.refuse (by simp)) fun _ => .enter_bind fun f allowed => ?_
      refine ((spelled f allowed scope _ ?_).andThen kind).bind fun value => ?_
      · exact closing_of_exactly rfl
      · exact .silent_bind (.refuse (by simp)) fun _ => .pure rfl
    | text =>
      refine .expect_bind (by simp) fun opening => .bind ?_ closed
      intro kind
      cases kind with
      | string value =>
        exact .next_bind rfl (by simp) fun site =>
          .silent_bind (register_silent _) fun address => .pure rfl
      | _ => exact .next_other (by simp) fun site => rfl

end

/-- The names of the grammar are those of the library functions, by what they take. -/
theorem accepts_libraryName (function : Library) :
    Terminal.routine.accepts (.identifier function.name) = false ∧
      Terminal.bareLibrary.accepts (.identifier function.name) =
        (function.argument matches .nothing) ∧
      Terminal.valueLibrary.accepts (.identifier function.name) =
        (function.argument matches .value _) ∧
      Terminal.textLibrary.accepts (.identifier function.name) =
        (function.argument matches .text) := by
  cases function <;> decide

/-- A name that the library does not have belongs to one class of the grammar only. -/
theorem accepts_otherName {name : String} (free : Library.ofName? name = none) :
    Terminal.routine.accepts (.identifier name) = true ∧
      Terminal.bareLibrary.accepts (.identifier name) = false ∧
      Terminal.valueLibrary.accepts (.identifier name) = false ∧
      Terminal.textLibrary.accepts (.identifier name) = false := by
  have absent : ∀ function ∈ Library.all, name ≠ function.name := by
    rintro function member rfl
    simpa using List.find?_eq_none.mp free function member
  simp only [Library.all, Library.name, List.forall_mem_cons, List.not_mem_nil, false_imp_iff,
    implies_true, and_true] at absent
  simp [Terminal.accepts, Terminal.isName, Terminal.bareNames, Terminal.valueNames,
    Terminal.textNames, absent]

/-- What a name begins depends on the name. -/
theorem derives_primary_identifier_iff {name : String} {word : List Kind} :
    (rule .primary).Derives (.identifier name :: word) ↔ (nameForm name).Derives word := by
  have plain : Terminal.identifier.accepts (.identifier name) = true ∧
      Terminal.uint.accepts (.identifier name) = false ∧
      Terminal.double.accepts (.identifier name) = false ∧
      Terminal.char.accepts (.identifier name) = false ∧
      (Terminal.exactly (.mark .openParen)).accepts (.identifier name) = false :=
    ⟨rfl, rfl, rfl, rfl, rfl⟩
  rw [derives_rule_iff]
  simp only [Rule.body, choice, nameForm, derives_either_iff, inOrder, chain, sign,
    derives_token_seq_cons_iff, derives_token_cons_iff, derives_empty_iff, plain, true_and,
    Bool.false_eq_true, false_and, false_or]
  cases found : Library.ofName? name with
  | none =>
    simp only [accepts_otherName found, callForm, found, Option.map_none, inOrder, chain, sign,
      true_and, Bool.false_eq_true, false_and, or_false]
  | some function =>
    have named := List.find?_some found
    obtain rfl : function.name = name := by simpa using named
    simp only [accepts_libraryName function, callForm, found, Option.map_some, inOrder, chain, sign,
      Bool.false_eq_true, false_and, false_or]
    cases function.argument <;> simp

/-- An operand takes in the casts behind it. -/
theorem derives_unary_casts {word more : List Kind} (first : (rule .unary).Derives word)
    (rest : casts.Derives more) : (rule .unary).Derives (word ++ more) := by
  rw [derives_rule_iff] at first ⊢
  obtain ⟨signs, _, rfl, inSigns, first⟩ := derives_seq_iff.mp first
  obtain ⟨operand, _, rfl, inOperand, first⟩ := derives_seq_iff.mp first
  rw [List.append_assoc, List.append_assoc]
  refine .seq inSigns (.seq inOperand ?_)
  rw [chain, chain, derives_seq_empty_iff] at first ⊢
  exact first.many_append rest

/-- Operators with their operands take in the casts behind the last operand. -/
theorem derives_operations_casts {word more : List Kind} (first : operations.Derives word)
    (some : word ≠ []) (rest : casts.Derives more) : operations.Derives (word ++ more) := by
  generalize same : operations = form at first
  induction first with
  | @more p item others inItem inOthers _ ih =>
    cases same
    rw [List.append_assoc]
    by_cases last : others = []
    · subst last
      obtain ⟨op, _, rfl, inOp, operand⟩ := derives_seq_iff.mp inItem
      rw [chain, chain, derives_seq_empty_iff] at operand
      have longer : (inOrder [token .operator, rule .unary]).Derives (op ++ (_ ++ more)) :=
        .seq inOp (derives_seq_empty_iff.mpr (derives_unary_casts operand rest))
      rw [List.nil_append, List.append_assoc, ← List.append_nil (op ++ _)]
      exact .more longer .none
    · exact .more inItem (ih last rfl)
  | none => exact absurd rfl some
  | _ => cases same

/-- An expression takes in casts and operators behind it. -/
theorem derives_expression_absorb {word more others : List Kind}
    (first : (rule .expression).Derives word) (inCasts : casts.Derives more)
    (inOthers : operations.Derives others) :
    (rule .expression).Derives (word ++ (more ++ others)) := by
  rw [derives_rule_iff] at first ⊢
  obtain ⟨operand, later, rfl, inOperand, inLater⟩ := derives_seq_iff.mp first
  rw [chain, chain, derives_seq_empty_iff] at inLater
  by_cases alone : later = []
  · subst alone
    rw [List.append_nil, ← List.append_assoc]
    exact .seq (derives_unary_casts inOperand inCasts) (derives_seq_empty_iff.mpr inOthers)
  · have longer := (derives_operations_casts inLater alone inCasts).many_append inOthers
    rw [List.append_assoc, ← List.append_assoc later]
    exact .seq inOperand (derives_seq_empty_iff.mpr longer)

/-- An assignment takes in the operators after it, since its value is a whole expression. -/
theorem derives_assignment_absorb {after : Pattern} {word : List Kind}
    (derived : (seq (inOrder [sign .assign, rule .expression]) (operandAfter after)).Derives word) :
    (seq (inOrder [sign .assign, rule .expression]) after).Derives word := by
  rw [derives_inOrder_seq_iff] at derived ⊢
  obtain ⟨assign, _, rfl, inAssign, derived⟩ := derives_seq_iff.mp derived
  obtain ⟨value, _, rfl, inValue, derived⟩ := derives_seq_iff.mp derived
  rw [chain, operandAfter, derives_inOrder_seq_iff] at derived
  obtain ⟨more, _, rfl, inCasts, derived⟩ := derives_seq_iff.mp derived
  rw [chain, derives_inOrder_seq_iff] at derived
  obtain ⟨others, last, rfl, inOthers, derived⟩ := derives_seq_iff.mp derived
  refine .seq inAssign ?_
  rw [← List.append_assoc more, ← List.append_assoc value]
  exact .seq (derives_expression_absorb inValue inCasts inOthers) derived

/-- What may follow an expression may follow an operand of it. -/
theorem derives_operandAfter {after : Pattern} {word : List Kind} (derived : after.Derives word) :
    (operandAfter after).Derives word := by
  have last : (seq (inOrder [operations]) after).Derives ([] ++ word) :=
    .seq (.seq .none .empty) derived
  exact .seq (.seq .none .empty) last

section

variable {inner : Option (Scope → Analysis Expr)} {scope : Scope} {after : Pattern}
  (spelled : ∀ f, inner = some f → SpellsExpression f)
  (forward : ∀ f, inner = some f → ∀ scope, Forward (f scope)) (closing : Closing after)

include spelled forward closing

/-- A name begins an assignment, a call or a value. -/
theorem named_spelled (name : String) (site : Nat) :
    Spells (operandAfter after) (nameForm name) (named inner scope name site) := by
  have call_starts (kind : Kind) (other : kind ≠ .mark .openParen) :
      (seq (callForm name) (operandAfter after)).starts kind = false := by
    have begins : (callForm name).starts kind = false ∧ (callForm name).nullable = false := by
      unfold callForm
      split <;> simp [starts, nullable, inOrder, chain, sign, Terminal.accepts, other]
    simp [starts, begins]
  have assign_starts (kind : Kind) (other : kind ≠ .mark .assign) :
      (seq (inOrder [sign .assign, rule .expression]) (operandAfter after)).starts kind =
        false := by
    simp [starts, nullable, inOrder, chain, sign, Terminal.accepts, other]
  have loaded (kind : Kind) (notAssign : kind ≠ .mark .assign) (notOpen : kind ≠ .mark .openParen) :
      ExpectsAt kind (operandAfter after) (nameForm name)
        (resolve scope name site >>= fun source => return Expr.load source) fun _ => empty := by
    refine .first ?_ (.silent_bind (resolve_silent _ _ _) fun _ => .pure rfl)
    rw [starts_either_seq, assign_starts kind notAssign, call_starts kind notOpen, Bool.or_self]
  refine fun kind => .peek_bind fun place => ?_
  cases kind with
  | mark mark =>
    cases mark with
    | assign =>
      have assigned : Spells after _ (assignment inner scope name site) :=
        assignment_spelled spelled closing name site
      exact .other (closing (.mark .assign) rfl) (.first (call_starts _ (by simp))
        (assigned.absorb (fun _ => derives_operandAfter) (fun _ => derives_assignment_absorb) _))
    | openParen =>
      exact .other (closing (.mark .openParen) rfl) (.other (assign_starts _ (by simp))
        (call_spelled spelled forward name site _))
    | _ => exact loaded _ (by simp) (by simp)
  | _ => exact loaded _ (by simp) (by simp)

theorem primary_spelled : Spells (operandAfter after) (rule .primary) (primary inner scope) := by
  intro kind
  have literal {terminal : Terminal} {value : Expr} (accepted : terminal.accepts kind = true)
      (more : kind ≠ .eof) {f : Word → Analysis Expr}
      (gives : ∀ site, f ⟨kind, site⟩ = pure value) :
      ExpectsAt kind (operandAfter after) (token terminal) (next >>= f) fun _ => empty := by
    refine .congr (fun _ => derives_seq_empty_iff.symm) (.next_bind accepted more fun site => ?_)
    rw [gives]
    exact .pure rfl
  cases kind with
  | identifier name =>
    have named : ExpectsAt (.identifier name) (operandAfter after)
        (seq (token (.exactly (.identifier name))) (nameForm name)) (primary inner scope)
        fun _ => empty :=
      .next_bind (beq_self_eq_true _) (by simp) fun site =>
        named_spelled spelled forward closing name site
    refine named.narrow (fun word derived => ?_) fun word derived => ?_
    · obtain ⟨_, later, rfl, first, form⟩ := derives_seq_iff.mp derived
      obtain ⟨found, accepted, rfl⟩ := derives_token_iff.mp first
      obtain rfl : found = .identifier name := by simpa [Terminal.accepts] using accepted
      exact derives_primary_identifier_iff.mpr form
    · obtain ⟨before, later, same, first, rest⟩ := derives_seq_iff.mp derived
      cases before with
      | nil => cases first.nullable
      | cons found before =>
        cases same
        have form := derives_primary_identifier_iff.mp first
        exact .seq (.seq (.token (beq_self_eq_true _)) form) rest
  | uint value =>
    exact .rule (.other rfl (.other rfl (.first rfl (literal rfl (by simp) fun _ => rfl))))
  | double value =>
    exact .rule (.other rfl (.other rfl (.other rfl (.first rfl
      (literal rfl (by simp) fun _ => rfl)))))
  | char value =>
    exact .rule (.other rfl (.other rfl (.other rfl (.other rfl (.first rfl
      (literal rfl (by simp) fun _ => rfl))))))
  | mark mark =>
    cases mark with
    | openParen =>
      refine .rule (.other rfl (.other rfl (.other rfl (.other rfl (.other rfl (.first rfl
        (.next_bind rfl (by simp) fun site => ?_)))))))
      exact parenthesized_spelled spelled site
    | _ => exact .next_stuck (fun _ => rfl) rfl
  | _ => exact .next_stuck (fun _ => rfl) rfl

theorem unary_spelled : Spells (seq (inOrder [operations]) after) (rule .unary)
    (Layered.unary (operand inner scope)) := by
  refine .rule ((signs_expected rfl []).bind fun sites => ?_)
  have apart : (seq (inOrder [operations]) after).starts (.keyword .asWord) = false :=
    closing (.keyword .asWord) rfl
  have read : Expects (seq (inOrder [operations]) after) (seq (rule .primary) (inOrder [casts]))
      (operand inner scope) fun _ => empty :=
    (primary_spelled spelled forward closing).andThen.bind fun value =>
      casts_spelled apart value
  exact read.bind fun value =>
    (Silent.orFail fun _ => Layered.signs_error).expects fun _ => rfl

/-- One turn of the expression reader: an operand, and an operator if there is one. -/
theorem arrival_expected (p : Layered.Pending) :
    Expects after (Rule.body .expression) (Layered.arrival inner scope p)
      (Sum.elim (fun _ => Rule.body .expression) fun _ => empty) := by
  refine (unary_spelled spelled forward closing).andThen.bind fun e kind => ?_
  refine .peek_bind fun site => ?_
  have known := accepts_operator kind
  cases found : Operator.binary? kind with
  | some op =>
    rw [found] at known
    refine .again (closing kind (by simp [Kind.goesOn, known])) ?_
    refine .congr (fun _ => derives_inOrder_seq_iff) ?_
    refine .advance_bind known (Layered.binary?_notEnd found) ?_
    exact .silent_bind (.orFail fun _ => Layered.arrive_error) fun q => .pure rfl
  | none =>
    rw [found] at known
    refine .stop ?_ (.silent_bind (.orFail fun _ => Layered.close_error) fun e => .pure rfl)
    simpa [starts, nullable, inOrder, chain] using known

/-- Expressions are read as the grammar has them, at every level. -/
theorem expressionWith_spelled : Spells after (rule .expression) (expressionWith inner scope) := by
  have starts : ∃ p : Layered.Pending, (⟨.empty, []⟩ : Unfinished) = p.unfinished := ⟨.none, rfl⟩
  refine .rule (.repeatUntil_of (P := fun before => ∃ p : Layered.Pending, before = p.unfinished)
    (Layered.operandAndOperator_progresses forward) ?_ ?_ starts)
  · rintro _ s _ t ⟨p, rfl⟩ run
    have arrives := observe_ok_iff.mpr run
    rw [Layered.arrival_agrees] at arrives
    exact Layered.unfinished_of_arrival (observe_ok_iff.mp arrives)
  · rintro _ ⟨p, rfl⟩ kind s kinds faces
    rw [Layered.arrival_agrees]
    exact arrival_expected spelled forward closing p kind s kinds faces

end

/-- An expression is read as the grammar says at every depth. -/
theorem expression_spelled (limit : Nat) : SpellsExpression (expression limit) := by
  induction limit with
  | zero => exact fun scope after closing => expressionWith_spelled (by simp) (by simp) closing
  | succ limit ih =>
    intro scope after closing
    refine expressionWith_spelled ?_ ?_ closing
    · rintro _ ⟨rfl⟩
      exact ih
    · rintro _ ⟨rfl⟩
      exact expression_forward limit

end C0
