import C0.Proofs.Bindings.Expression

namespace C0

/-- What may stand behind a whole statement of a scope. -/
def Scope.ending (scope : Scope) : Stance :=
  if scope.rank = 0 then .other else .operand

/-- A name was read that is declared with its type. -/
def pending (scope : Scope) (name : String) (isConst : Bool) : Assertion := fun bindings cores _ =>
  ∃ earlier : Bindings, earlier.Fits scope cores ∧
    bindings = (earlier.declare name isConst).facing .other

section

variable {source : String} {scope outer : Scope} {bindings : Bindings} {cores : List Symbol}
  {name : String} {isConst : Bool}

theorem Bindings.Fits.ending (fits : bindings.Fits scope cores) :
    Bindings.ending bindings.blocks = scope.ending := by
  rw [Bindings.ending, Scope.ending, fits.rank]
  cases bindings.blocks <;> rfl

theorem pending_calm : (pending scope name isConst).Calm := by
  rintro _ cores _ ⟨bindings, _, rfl⟩
  exact fun atOperand => by cases atOperand

/-- A token that leaves the names alone stands between a name and its type. -/
theorem pending_next {kind : Kind} (steady : kind.isSteady = true)
    (closes : kind.opensOperand = false) {reading reading' : Reading}
    (holds : pending scope name isConst bindings cores reading) :
    pending scope name isConst (bindings.next kind) cores reading' := by
  obtain ⟨earlier, fits, rfl⟩ := holds
  refine ⟨earlier, fits, ?_⟩
  rw [Bindings.next_of_passes rfl, Bindings.pass_of_steady steady, Kind.stance, closes]
  rfl

theorem Ensures.expect_semicolon : Ensures source (past scope) (Analysis.expect (.mark .semicolon))
    fun _ => facing scope scope.ending := by
  refine .expect past_calm fun bindings cores _ holds => ?_
  rw [Bindings.next_of_passes holds.2.1]
  exact ⟨holds.1.facing _, holds.1.ending⟩

end

namespace Analysis

variable {source : String} {scope outer : Scope}

theorem declarationWord_ensures : Ensures source (past scope) declarationWord fun isConst =>
    facing scope (.naming isConst) := by
  refine .next_bind past_calm fun kind site => ?_
  cases kind with
  | keyword word =>
    cases word with
    | letWord | constWord =>
      refine .pure ?_
      rintro _ cores reading ⟨bindings, holds, rfl⟩
      rw [Bindings.next_of_passes holds.2.1]
      exact ⟨holds.1.facing _, rfl⟩
    | _ => exact .fail (by simp)
  | _ => exact .fail (by simp)

/-- From its type on a symbol is declared. -/
theorem declare_ensures (symbol : Symbol) (site : Nat) (ranked : symbol.rank = scope.rank)
    (new : symbol.isInitialized = false) :
    Ensures source (pending scope symbol.name symbol.isConst) (declare symbol site) fun _ =>
      facing scope .other := by
  intro s seen
  rw [declare, get_bind_eq]
  unfold SymbolTable.declare
  split
  · exact seen.exposes (by simp)
  · -- The scan has declared the name where it was read, the table does so only here.
    obtain ⟨ahead, _, ⟨bindings, fits, rfl⟩, same⟩ := seen
    have core : symbol.core = symbol := by rw [Symbol.core, ← new]
    have cores : (s.declared symbol).cores = symbol :: s.cores := by
      rw [State.cores, State.declared, List.map_cons, core, State.cores]
    refine ⟨ahead, _, ⟨?_, rfl⟩, same⟩
    change ((bindings.declare symbol.name symbol.isConst).facing .other).Fits scope
      (s.declared symbol).cores
    rw [cores]
    exact (fits.declare ranked).facing _

theorem publish_ensures (symbol : Symbol) {pre : Assertion} :
    Ensures source pre (publish symbol) fun _ => pre := by
  refine .quiet fun s => ?_
  unfold publish
  split <;> exact ⟨_, _, rfl, rfl, rfl, rfl⟩

theorem declaredSymbol_ensures (isConst : Bool) :
    Ensures source (facing scope (.naming isConst)) (declaredSymbol scope isConst) fun _ =>
      facing scope .other := by
  have named : Ensures source (facing scope (.naming isConst)) expectIdentifier fun word =>
      pending scope word.name isConst := by
    refine .expectIdentifier (facing_calm (by simp)) fun word bindings cores _ holds =>
      ⟨bindings, holds.1, ?_⟩
    rw [Bindings.next, holds.2]
  have colon (name : String) : Ensures source (pending scope name isConst)
      (expect (.mark .colon)) fun _ => pending scope name isConst :=
    .expect pending_calm fun _ _ _ => pending_next rfl rfl
  have typed (name : String) : Ensures source (pending scope name isConst) expectValueType fun _ =>
      pending scope name isConst :=
    .expectValueType pending_calm fun _ _ _ _ => pending_next rfl rfl
  have allocated (name : String) : Ensures source (pending scope name isConst)
      (modifyGet fun s => s.allocate scope) fun _ => pending scope name isConst := by
    refine .quiet fun s => ⟨(s.allocate scope).1, (s.allocate scope).2, rfl, ?_⟩
    unfold State.allocate
    split <;> exact ⟨rfl, rfl, rfl⟩
  exact named.bind fun word => Ensures.get.bind fun s => (Ensures.refuse (by simp)).bind fun _ =>
    (colon word.name).bind fun _ => (typed word.name).bind fun ty =>
      (allocated word.name).bind fun slot =>
        (declare_ensures ⟨word.name, ty, isConst, false, slot, scope.rank⟩ _ rfl rfl).bind
          fun _ => (publish_ensures _).bind fun _ => .pure fun _ _ _ => id

section

variable {f : Scope → Analysis Expr} (reads : ReadsOperands source scope (f scope))

include reads

theorem initializer_ensures (symbol : Symbol) : Ensures source (facing scope .other)
    (initializer f scope symbol) fun _ => past scope := by
  have sign : Ensures source (facing scope .other) (initializerSign symbol.isConst) fun sign =>
      sign.elim (past scope) fun _ => facing scope .operand := by
    refine Ensures.before ?_ fun _ _ _ => past_of_facing rfl (by simp)
    unfold initializerSign
    split
    · exact (Ensures.expect_operand rfl rfl).bind fun _ => .pure fun _ _ _ => id
    · exact .eat_steady rfl fun _ _ _ holds => ⟨holds.1, holds.2.1⟩
  refine sign.bind fun sign => ?_
  cases sign with
  | none => exact .pure fun _ _ _ => id
  | some sign =>
    exact reads.bind fun _ => (Ensures.refuse (by simp)).bind fun _ =>
      Ensures.markInitialized.bind fun _ => .pure fun _ _ _ => id

theorem declaration_ensures :
    Ensures source (past scope) (declaration f scope) fun _ => facing scope scope.ending :=
  declarationWord_ensures.bind fun isConst => (declaredSymbol_ensures isConst).bind fun symbol =>
    (initializer_ensures reads symbol).bind fun _ => Ensures.expect_semicolon.bind fun _ =>
      .pure fun _ _ _ => id

theorem giveBack_ensures :
    Ensures source (past scope) (giveBack f scope) fun _ => facing scope scope.ending := by
  have value (site : Nat) : Ensures source (facing scope .operand) (returnedValue f scope site)
      fun _ => past scope := by
    refine Ensures.check.bind fun isEmpty => ?_
    cases isEmpty with
    | true =>
      exact (Ensures.refuse (by simp)).bind fun _ => .pure fun _ _ _ holds =>
        past_of_known rfl (by simp) holds.1 (holds.2 rfl)
    | false =>
      exact (reads.before fun _ _ _ => And.left).bind fun _ => (Ensures.refuse (by simp)).bind
        fun _ => .pure fun _ _ _ => id
  exact (Ensures.expect_operand rfl rfl).bind fun site => (value site).bind fun _ =>
    Ensures.expect_semicolon.bind fun _ => .pure fun _ _ _ => id

theorem evaluation_ensures : Ensures source (facing scope .operand) (evaluation f scope) fun _ =>
    facing scope scope.ending :=
  reads.bind fun _ => Ensures.expect_semicolon.bind fun _ => .pure fun _ _ _ => id

end

theorem loopJump_ensures {kind : Kind} (steady : kind.isSteady = true)
    (closes : kind.opensOperand = false) (jump : Stmt) :
    Ensures source
      (fun bindings cores reading => past scope bindings cores reading ∧ reading = .ok kind)
      (loopJump scope jump) fun _ => facing scope scope.ending := by
  refine .next_bind (fun bindings cores name holds => past_calm bindings cores name holds.1)
    fun found site => ?_
  have ends : Ensures source (past scope) (do
      refuse (!scope.inLoop) .invalidIdentifier site
      let _ ← expect (.mark .semicolon)
      return jump) fun _ => facing scope scope.ending :=
    (Ensures.refuse (by simp)).bind fun _ => Ensures.expect_semicolon.bind fun _ =>
      .pure fun _ _ _ => id
  refine ends.before ?_
  rintro _ cores reading ⟨bindings, ⟨holds, same⟩, rfl⟩
  cases same
  have behind : facing scope kind.stance (bindings.next kind) cores reading :=
    facing_next holds.1 holds.2.1 steady
  rw [Kind.stance, closes] at behind
  exact past_of_facing rfl (by simp) behind

/-- What stands one level of nesting further in is read as the scan tells. -/
structure Readers.Ensure (source : String) (inner : Readers) : Prop where
  expression : ∀ scope, ReadsOperands source scope (inner.expression scope)
  block : ∀ scope outer : Scope, scope.signature = outer.signature → scope.rank = outer.rank + 1 →
    outer.rank ≠ 0 → Ensures source (past outer) (inner.nested .block scope) fun _ =>
      facing outer outer.ending
  conditional : ∀ scope, scope.rank ≠ 0 → Ensures source (past scope)
    (inner.nested .conditional scope) fun _ => facing scope scope.ending
  iteration : ∀ scope, scope.rank ≠ 0 → Ensures source (past scope)
    (inner.nested .iteration scope) fun _ => facing scope scope.ending

section

variable {inner : Readers} (ensure : Readers.Ensure source inner) (deep : scope.rank ≠ 0)

include ensure deep

theorem statement_ensures : Ensures source (facing scope .operand) (statement inner scope) fun _ =>
    facing scope scope.ending := by
  refine .peek_bind fun kind site => ?_
  have known {m : Analysis Stmt} (named : ∀ name, kind ≠ .identifier name)
      (reads : Ensures source (past scope) m fun _ => facing scope scope.ending) :
      Ensures source (fun bindings cores reading => facing scope .operand bindings cores reading ∧
        reading = .ok kind) m fun _ => facing scope scope.ending :=
    reads.before fun _ _ _ holds => past_of_known rfl named holds.1 holds.2
  have evaluates : Ensures source (fun bindings cores reading =>
      facing scope .operand bindings cores reading ∧ reading = .ok kind)
      (evaluation inner.expression scope) fun _ => facing scope scope.ending :=
    (evaluation_ensures (ensure.expression scope)).before fun _ _ _ => And.left
  cases kind with
  | keyword word =>
    cases word with
    | letWord | constWord =>
      exact known (by simp) (declaration_ensures (ensure.expression scope))
    | ifWord => exact known (by simp) (ensure.conditional scope deep)
    | whileWord => exact known (by simp) (ensure.iteration scope deep)
    | returnWord => exact known (by simp) (giveBack_ensures (ensure.expression scope))
    | breakWord | continueWord =>
      exact (loopJump_ensures rfl rfl _).before fun _ _ _ holds =>
        ⟨past_of_known rfl (by simp) holds.1 holds.2, holds.2⟩
    | _ => exact evaluates
  | mark mark =>
    cases mark with
    | openBrace => exact known (by simp) (ensure.block scope.inner scope rfl rfl deep)
    | semicolon =>
      refine (Ensures.advance (by simp) fun bindings cores _ holds => ?_).bind fun _ =>
        .pure fun _ _ _ => id
      rw [Bindings.next_of_passes (by rw [holds.2]; rfl)]
      exact ⟨holds.1.facing _, holds.1.ending⟩
    | _ => exact evaluates
  | _ => exact evaluates

theorem statementOrEnd_ensures (before : List Stmt) : Ensures source (facing scope .operand)
    (statementOrEnd inner scope before)
      (Sum.elim (fun _ => facing scope .operand) fun _ => past scope) := by
  have again : scope.ending = .operand := if_neg deep
  refine Ensures.check.bind fun isEnd => ?_
  cases isEnd with
  | true => exact .pure fun _ _ _ holds => past_of_known rfl (by simp) holds.1 (holds.2 rfl)
  | false =>
    refine ((statement_ensures ensure deep).before fun _ _ _ => And.left).bind fun _ => .pure ?_
    rw [again]
    exact fun _ _ _ => id

omit ensure deep in
/-- Closing a block leaves what is declared around it. -/
theorem close_ensures (deeper : scope.rank = outer.rank + 1)
    (params : outer.signature.params = if outer.rank = 0 then [] else scope.signature.params) :
    Ensures source
      (fun bindings cores _ => ∃ earlier : Bindings, earlier.Fits scope cores ∧
        bindings = earlier.closed)
      (modify fun s => { s with symbols := s.symbols.dropRank scope.rank }) fun _ =>
        facing outer outer.ending := by
  -- The brace lies behind, but so far only the scan has closed the block.
  rintro s ⟨ahead, _, ⟨bindings, fits, rfl⟩, same⟩
  have closed : bindings.closed.Fits outer (s.closed scope.rank).cores := by
    rw [State.cores_closed]
    exact fits.closed deeper params
  exact ⟨ahead, bindings.closed, ⟨closed, closed.ending⟩, same⟩

omit ensure deep in
/-- A block is read from its brace on, whatever stands before it. -/
theorem block_ensures {pre : Assertion} {readers : Option Readers}
    (ensure : ∀ inner, readers = some inner → Readers.Ensure source inner)
    (opens : Ensures source pre (expect (.mark .openBrace)) fun _ => facing scope .operand)
    (deeper : scope.rank = outer.rank + 1)
    (params : outer.signature.params = if outer.rank = 0 then [] else scope.signature.params) :
    Ensures source pre (block readers scope) fun _ => facing outer outer.ending := by
  have deep : scope.rank ≠ 0 := by omega
  have closing : Ensures source (past scope) (expect (.mark .closeBrace)) fun _ bindings cores _ =>
      ∃ earlier : Bindings, earlier.Fits scope cores ∧ bindings = earlier.closed :=
    .expect past_calm fun bindings _ _ holds =>
      ⟨bindings, holds.1, Bindings.next_of_passes holds.2.1⟩
  exact opens.bind fun _ => .enter_bind fun inner found =>
    (Ensures.repeatUntil (statementOrEnd_ensures (ensure inner found) deep) []).bind fun _ =>
      closing.bind fun _ => (close_ensures deeper params).bind fun _ => .pure fun _ _ _ => id

omit ensure deep in
/-- The brace of a block in another one. -/
theorem openBrace_ensures (same : scope.signature = outer.signature)
    (deeper : scope.rank = outer.rank + 1) :
    Ensures source (past outer) (expect (.mark .openBrace)) fun _ => facing scope .operand := by
  refine .expect past_calm fun bindings cores _ holds => ?_
  rw [Bindings.next_of_passes holds.2.1]
  exact ⟨holds.1.opened same deeper, rfl⟩

omit deep in
theorem test_ensures (site : Nat) : ReadsOperands source scope (test inner scope site) :=
  (ensure.expression scope).bind fun _ => (Ensures.refuse (by simp)).bind fun _ =>
    .pure fun _ _ _ => id

theorem alternative_ensures : Ensures source (facing scope scope.ending) (alternative inner scope)
    fun _ => facing scope scope.ending := by
  have again : scope.ending = .operand := if_neg deep
  have word : Ensures source (facing scope scope.ending) (eat (.keyword .elseWord)) fun site =>
      site.elim (facing scope scope.ending) fun _ => facing scope .other :=
    .eat_steady rfl fun _ _ _ holds => ⟨holds.1, by rw [holds.2, again]; rfl⟩
  refine word.bind fun site => ?_
  cases site with
  | none => exact .pure fun _ _ _ => id
  | some site =>
    refine Ensures.check.bind fun isIf => ?_
    cases isIf with
    | true =>
      exact (ensure.conditional scope deep).before fun _ _ _ holds =>
        past_of_facing rfl (by simp) holds.1
    | false =>
      exact (ensure.block scope.inner scope rfl rfl deep).before fun _ _ _ holds =>
        past_of_facing rfl (by simp) holds.1

end

section

variable {readers : Option Readers}
  (ensure : ∀ inner, readers = some inner → Readers.Ensure source inner)

include ensure

theorem conditional_ensures (deep : scope.rank ≠ 0) : Ensures source (past scope)
    (conditional readers scope) fun _ => facing scope scope.ending :=
  (Ensures.expect_operand rfl rfl).bind fun _ => .enter_bind fun inner found =>
    (test_ensures (ensure inner found) _).bind fun _ =>
      ((ensure inner found).block scope.inner scope rfl rfl deep).bind fun _ =>
        (alternative_ensures (ensure inner found) deep).bind fun _ => .pure fun _ _ _ => id

theorem iteration_ensures (deep : scope.rank ≠ 0) : Ensures source (past scope)
    (iteration readers scope) fun _ => facing scope scope.ending :=
  (Ensures.expect_operand rfl rfl).bind fun _ => .enter_bind fun inner found =>
    (test_ensures (ensure inner found) _).bind fun _ =>
      ((ensure inner found).block scope.innerLoop scope rfl rfl deep).bind fun _ =>
        .pure fun _ _ _ => id

theorem nestedBlock_ensures (same : scope.signature = outer.signature)
    (deeper : scope.rank = outer.rank + 1) (deep : outer.rank ≠ 0) :
    Ensures source (past outer) (constructWith readers .block scope) fun _ =>
      facing outer outer.ending :=
  (block_ensures ensure (openBrace_ensures same deeper) deeper
    (by rw [if_neg deep, same])).bind fun _ => .pure fun _ _ _ => id

end

/-- Statements are read as the scan tells, however deep they may nest. -/
theorem readersBelow_ensure (limit : Nat) :
    ∀ inner, readersBelow limit = some inner → Readers.Ensure source inner := by
  induction limit with
  | zero => simp [readersBelow]
  | succ limit ih =>
    rintro _ ⟨rfl⟩
    rw [nested_eq]
    refine ⟨expression_ensures limit, fun scope outer same deeper deep => ?_, fun scope deep => ?_,
      fun scope deep => ?_⟩
    · exact nestedBlock_ensures ih same deeper deep
    · exact conditional_ensures ih deep
    · exact iteration_ensures ih deep

end Analysis

end C0
