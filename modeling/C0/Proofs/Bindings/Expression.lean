import C0.Proofs.Bindings.Tracking
import C0.Proofs.ScopeTracking.Statement

namespace C0

open Bindings (scanSource isBare)

/-- The token stands in a statement or between functions. -/
def Stance.passes : Stance → Bool
  | operand | other | bare => true
  | _ => false

/-- What may stand behind a token that leaves the names alone. -/
def Kind.stance (kind : Kind) : Stance :=
  if kind.opensOperand then .operand else .other

/-- The token leaves the names alone, and it alone tells what may stand behind it. -/
def Kind.isSteady : Kind → Bool
  | identifier _ => false
  | keyword .letWord | keyword .constWord | keyword .fnWord => false
  | mark .openBrace | mark .closeBrace | mark .semicolon | mark .openParen => false
  | _ => true

/-- What may stand behind the parenthesis before what a library function takes. -/
def Library.Argument.stance : Library.Argument → Stance
  | value _ => .operand
  | _ => .other

theorem Kind.ne_identifier {kind : Kind} (steady : kind.isSteady = true) (name : String) :
    kind ≠ .identifier name := by
  rintro rfl
  cases steady

/-- The bindings fit a scope, and something may stand next. -/
def facing (scope : Scope) (stance : Stance) : Assertion := fun bindings cores _ =>
  bindings.Fits scope cores ∧ bindings.stance = stance

/-- The bindings fit a scope, and what comes next does not begin an operand with a name. -/
def past (scope : Scope) : Assertion := fun bindings cores reading =>
  bindings.Fits scope cores ∧ bindings.stance.passes = true ∧
    (bindings.stance = .operand → ∀ name, reading ≠ .ok (.identifier name))

section

variable {source : String} {scope : Scope} {bindings : Bindings} {cores : List Symbol}
  {reading : Reading} {kind : Kind} {stance : Stance} {s t : State}

theorem Bindings.next_of_passes (passes : bindings.stance.passes = true) :
    bindings.next kind = bindings.pass kind := by
  unfold Bindings.next
  cases here : bindings.stance with
  | operand | other | bare => rfl
  | _ =>
    rw [here] at passes
    cases passes

theorem Bindings.pass_of_steady (steady : kind.isSteady = true) :
    bindings.pass kind = bindings.facing kind.stance := by
  cases kind with
  | identifier name => cases steady
  | keyword word =>
    cases word with
    | letWord | constWord | fnWord => cases steady
    | _ => rfl
  | mark mark =>
    cases mark with
    | openBrace | closeBrace | semicolon | openParen => cases steady
    | _ => rfl
  | _ => rfl

theorem past_calm : (past scope).Calm :=
  fun _ _ name holds atOperand => holds.2.2 atOperand name rfl

theorem facing_calm (other : stance ≠ .operand) : (facing scope stance).Calm :=
  fun _ _ _ holds atOperand => other (holds.2.symm.trans atOperand)

theorem past_of_facing (passes : stance.passes = true) (other : stance ≠ .operand)
    (holds : facing scope stance bindings cores reading) : past scope bindings cores reading :=
  ⟨holds.1, holds.2 ▸ passes, fun atOperand => absurd (holds.2.symm.trans atOperand) other⟩

/-- A token that is known and no name does not begin an operand with one. -/
theorem past_of_known (passes : stance.passes = true) (known : ∀ name, kind ≠ .identifier name)
    (holds : facing scope stance bindings cores reading) (next : reading = .ok kind) :
    past scope bindings cores reading :=
  ⟨holds.1, holds.2 ▸ passes, fun _ name same => known name (Except.ok.inj (next.symm.trans same))⟩

theorem facing_next (fits : bindings.Fits scope cores) (passes : bindings.stance.passes = true)
    (steady : kind.isSteady = true) :
    facing scope kind.stance (bindings.next kind) cores reading := by
  rw [Bindings.next_of_passes passes, Bindings.pass_of_steady steady]
  exact ⟨fits.facing _, rfl⟩

namespace Ensures

theorem expect_other (steady : kind.isSteady = true) (closes : kind.opensOperand = false) :
    Ensures source (past scope) (Analysis.expect kind) fun _ => facing scope .other :=
  expect past_calm fun _ _ _ holds => by
    simpa [Kind.stance, closes] using facing_next holds.1 holds.2.1 steady

theorem expect_operand (steady : kind.isSteady = true) (opens : kind.opensOperand = true) :
    Ensures source (past scope) (Analysis.expect kind) fun _ => facing scope .operand :=
  expect past_calm fun _ _ _ holds => by
    simpa [Kind.stance, opens] using facing_next holds.1 holds.2.1 steady

theorem eat_steady {pre : Assertion} (steady : kind.isSteady = true)
    (passes : ∀ bindings cores reading, pre bindings cores reading →
      bindings.Fits scope cores ∧ bindings.stance.passes = true) :
    Ensures source pre (Analysis.eat kind) fun site =>
      site.elim pre fun _ => facing scope kind.stance :=
  eat (Kind.ne_identifier steady) fun bindings cores _ holds =>
    facing_next (passes bindings cores _ holds).1 (passes bindings cores _ holds).2 steady

/-- Behind the name of a function that takes no value, a parenthesis is not before an operand. -/
theorem expect_openParen (passes : stance.passes = true) (other : stance ≠ .operand) :
    Ensures source (facing scope stance) (Analysis.expect (.mark .openParen)) fun _ =>
      facing scope (if stance = .bare then .other else .operand) := by
  refine expect (facing_calm other) fun bindings cores _ holds => ?_
  rw [Bindings.next_of_passes (holds.2 ▸ passes), ← holds.2]
  exact ⟨holds.1.facing _, rfl⟩

end Ensures

namespace Seen

/-- The stance behind a name. -/
theorem name {name : String} (seen : Seen source (facing scope .operand) s)
    (takes : s.Takes (.identifier name) t)
    (free : t.current = .ok (.mark .assign) →
      ( t.variable? scope name).map Variable.isConst ≠ some true) :
    Seen source (facing scope (if isBare name then .bare else .other)) t := by
  refine seen.take takes (fun bindings holds => ?_) fun bindings holds => ?_
  · have sign : t.rest.head? = some (.ok (.mark .assign)) → t.current = .ok (.mark .assign) :=
      fun next => by rw [State.current, next]; rfl
    have fits := holds.1
    rw [← takes.cores] at fits
    rw [fits.isConst] at free
    simp only [Bindings.breaks, Bool.and_eq_false_iff, decide_eq_false_iff_not]
    by_cases next : t.rest.head? = some (.ok (.mark .assign))
    · exact .inl (.inr (free (sign next)))
    · exact .inr next
  · rw [Bindings.next_of_passes (by rw [holds.2]; rfl)]
    exact ⟨holds.1.facing _, rfl⟩

/-- An assignment to a constant is found by the scan. -/
theorem constant {name : String} (seen : Seen source (facing scope .operand) s)
    (takes : s.Takes (.identifier name) t) (next : t.current = .ok (.mark .assign))
    (isConst : ( t.variable? scope name).map Variable.isConst = some true) :
    FaultExposes (scanSource source) ⟨.changeConst, s.position⟩ t.position := by
  obtain ⟨_, bindings, ⟨fits, atOperand⟩, same⟩ := seen
  rw [← takes.cores] at fits
  rw [fits.isConst] at isConst
  have sign : t.rest.head? = some (.ok (.mark .assign)) := by
    rw [State.Takes.rest ⟨next, rfl⟩ (by simp)]
    rfl
  have breaks : bindings.breaks (.identifier name) t.rest = true := by
    simp [Bindings.breaks, atOperand, isConst, sign]
  have found : scanSource source = s.position ::
      (bindings.next (.identifier name)).scan (s.position + 1) t.rest := by
    rw [← same, takes.rest (by simp), Bindings.scan, breaks]
    rfl
  rw [found, takes.position]
  refine ⟨fun site member before => ?_, fun _ => ⟨List.mem_cons_self .., Nat.lt_succ_self _⟩⟩
  rcases List.mem_cons.mp member with rfl | later
  · exact ⟨rfl, rfl⟩
  · exact absurd (Bindings.le_of_mem_scan later) (Nat.not_le.mpr before)

end Seen

end

namespace Analysis

variable {source : String} {scope : Scope} {s t : State}

theorem cast_ensures (operand : Expr) : Ensures source (past scope) (cast operand)
    (Sum.elim (fun _ => past scope) fun _ => past scope) := by
  refine (Ensures.eat_steady rfl fun _ _ _ holds => ⟨holds.1, holds.2.1⟩).bind fun site => ?_
  cases site with
  | none => exact .pure fun _ _ _ => id
  | some site =>
    have type : Ensures source (facing scope .other) expectType fun _ => facing scope .other :=
      .expectType (facing_calm (by simp)) fun _ _ _ _ holds =>
        facing_next holds.1 (by rw [holds.2]; rfl) rfl
    exact type.bind fun _ => (Ensures.refuse (by simp)).bind fun _ =>
      .pure fun _ _ _ => past_of_facing rfl (by simp)

theorem negation_ensures (operators : OperatorStack Nat) :
    Ensures source (facing scope .operand) (negation operators)
      (Sum.elim (fun _ => facing scope .operand) fun _ => facing scope .operand) := by
  refine (Ensures.eat_steady rfl fun _ _ _ holds => ⟨holds.1, by rw [holds.2]; rfl⟩).bind
    fun site => ?_
  cases site <;> exact .pure fun _ _ _ => id

theorem matchParams_ensures (arguments : List (Expr × Nat)) (params : List Param) (site : Nat)
    {pre : Assertion} : Ensures source pre (matchParams arguments params site) fun _ => pre := by
  refine (Ensures.refuse (by simp)).bind fun _ => ?_
  cases (arguments.zip params).find? fun pair => pair.1.1.ty != pair.2.ty with
  | some pair => exact .fail (by simp)
  | none => exact .pure fun _ _ _ => id

theorem resolve_ensures (name : String) (site : Nat) {pre : Assertion} :
    Ensures source pre (resolve scope name site) fun _ => pre := by
  intro s seen
  rw [resolve_eq]
  cases s.variable? scope name with
  | none => exact seen.exposes (by simp)
  | some v => exact seen

theorem callee_ensures (name : String) (site : Nat) {pre : Assertion} :
    Ensures source pre (callee scope name site) fun _ => pre := by
  intro s seen
  rw [callee_eq]
  cases s.callee? scope name with
  | none => exact seen.exposes (by simp)
  | some signature => exact seen

/-- An expression is read from the beginning of an operand on. -/
abbrev ReadsOperands (source : String) (scope : Scope) (m : Analysis Expr) : Prop :=
  Ensures source (facing scope .operand) m fun _ => past scope

theorem argument_ensures {expression : Scope → Analysis Expr}
    (reads : ReadsOperands source scope (expression scope)) (before : List (Expr × Nat)) :
    Ensures source (facing scope .operand) (argument scope expression before)
      (Sum.elim (fun _ => facing scope .operand) fun _ => past scope) := by
  refine .peek_bind fun _ _ => (reads.before fun _ _ _ => And.left).bind fun _ =>
    (Ensures.eat_steady rfl fun _ _ _ holds => ⟨holds.1, holds.2.1⟩).bind fun site => ?_
  cases site <;> exact .pure fun _ _ _ => id

section

variable {inner : Option (Scope → Analysis Expr)}
  (nested : ∀ expression, inner = some expression → ReadsOperands source scope (expression scope))

include nested

theorem arguments_ensures : Ensures source (facing scope .other) (arguments inner scope) fun _ =>
    past scope := by
  have opening : Ensures source (facing scope .other) (expect (.mark .openParen)) fun _ =>
      facing scope .operand := .expect_openParen rfl (by simp)
  refine opening.bind fun _ => .enter_bind fun expression found => Ensures.check.bind fun isEmpty => ?_
  have values : Ensures source (fun bindings cores reading =>
      facing scope .operand bindings cores reading ∧
        (isEmpty = true → reading = .ok (.mark .closeParen)))
      (if isEmpty then pure [] else repeatUntil (argument scope expression) []) fun _ =>
        past scope := by
    split
    · rename_i empty
      exact .pure fun _ _ _ holds => past_of_known rfl (by simp) holds.1 (holds.2 empty)
    · exact (Ensures.repeatUntil (argument_ensures (nested expression found)) []).before
        fun _ _ _ => And.left
  exact values.bind fun _ => (Ensures.expect_other rfl rfl).bind fun _ =>
    .pure fun _ _ _ => past_of_facing rfl (by simp)

theorem parenthesized_ensures (opening : Nat) :
    ReadsOperands source scope (parenthesized inner scope opening) :=
  .enter_bind fun expression found => (nested expression found).bind fun _ =>
    (Ensures.expect_other rfl rfl).bind fun _ => .pure fun _ _ _ => past_of_facing rfl (by simp)

/-- What a library function takes is read as its parenthesis tells. -/
theorem libraryArgument_ensures (opening : Nat) (argument : Library.Argument) :
    Ensures source (facing scope argument.stance) (libraryArgument inner scope opening argument)
      fun _ => past scope := by
  cases argument with
  | nothing => exact .pure fun _ _ _ => past_of_facing rfl (by decide)
  | value ty =>
    exact .peek_bind fun _ _ => (Ensures.refuse (by simp)).bind fun _ =>
      .enter_bind fun expression found => ((nested expression found).before fun _ _ _ =>
        And.left).bind fun _ => (Ensures.refuse (by simp)).bind fun _ => .pure fun _ _ _ => id
  | text =>
    refine .next_bind (facing_calm (by decide)) fun kind site => ?_
    cases kind with
    | string value =>
      refine Ensures.register.bind fun _ => .pure ?_
      rintro _ cores reading ⟨bindings, ⟨fits, other⟩, rfl⟩
      have behind : facing scope .other (bindings.next (.string value)) cores reading :=
        facing_next fits (by rw [other]; rfl) rfl
      exact past_of_facing rfl (by simp) behind
    | _ => exact .fail (by simp)

omit nested in
/-- The parenthesis of a library function is read with the stance that its name left. -/
theorem libraryOpening_ensures {name : String} {function : Library}
    (known : Library.ofName? name = some function) :
    Ensures source (facing scope (if isBare name then .bare else .other))
      (expect (.mark .openParen)) fun _ => facing scope function.argument.stance := by
  rw [isBare, known, Option.map_some]
  cases function.argument <;> exact .expect_openParen rfl (by simp)

theorem call_ensures (name : String) (site : Nat) :
    Ensures source (facing scope (if isBare name then .bare else .other))
      (call inner scope name site) fun _ => past scope := by
  unfold call
  cases known : Library.ofName? name with
  | some function =>
    exact Ensures.register.bind fun _ => (libraryOpening_ensures known).bind fun _ =>
      (libraryArgument_ensures nested _ _).bind fun _ => (Ensures.expect_other rfl rfl).bind fun _ =>
        .pure fun _ _ _ => past_of_facing rfl (by simp)
  | none =>
    have plain : isBare name = false := by rw [isBare, known]; rfl
    rw [plain]
    exact (callee_ensures name site).bind fun signature => (arguments_ensures nested).bind fun _ =>
      (matchParams_ensures _ _ _).bind fun _ => .pure fun _ _ _ => id

/-- An assignment to a constant fails at its name, before the sign is read. -/
theorem assignment_leaves {name : String} (seen : Seen source (facing scope .operand) s)
    (takes : s.Takes (.identifier name) t) (sign : t.current = .ok (.mark .assign)) :
    Leaves source (fun _ => past scope) (assignment inner scope name s.position t) := by
  have behind (free : ( t.variable? scope name).map Variable.isConst ≠ some true) :
      Seen source (past scope) t :=
    (seen.name takes fun _ => free).mono fun bindings holds =>
      past_of_facing (by split <;> rfl) (by split <;> simp) holds
  -- The name is looked up before the sign is read, so nothing lies behind but the name.
  rw [assignment, bind_eq, resolve_eq]
  cases resolved : t.variable? scope name with
  | none =>
    rw [resolved] at behind
    exact Seen.exposes (behind (by simp)) (by simp)
  | some target =>
    have refused : Leaves source (fun _ => past scope)
        (refuse target.isConst .changeConst s.position t) := by
      unfold refuse
      split
      · rename_i isConst
        exact seen.constant takes sign (by rw [resolved, Option.map_some, isConst])
      · rename_i changeable
        exact behind (by simpa [resolved] using changeable)
    exact refused.bind fun _ => (Ensures.expect_operand rfl rfl).bind fun _ =>
      .enter_bind fun expression found => (nested expression found).bind fun _ =>
        (Ensures.refuse (by simp)).bind fun _ => Ensures.markInitialized.bind fun _ =>
          .pure fun _ _ _ => id

theorem named_leaves {name : String} (seen : Seen source (facing scope .operand) s)
    (takes : s.Takes (.identifier name) t) :
    Leaves source (fun _ => past scope) (named inner scope name s.position t) := by
  rw [named, bind_eq, peek_eq]
  cases current : t.current with
  | error cause => exact (seen.name takes (by simp [current])).unreadable current
  | ok kind =>
    have behind (other : kind ≠ .mark .assign) :=
      seen.name takes fun sign => absurd (Except.ok.inj (current.symm.trans sign)) other
    have loads (other : kind ≠ .mark .assign) : Leaves source (fun _ => past scope)
        ((resolve scope name s.position >>= fun v => pure (Expr.load v)) t) := by
      refine Ensures.bind (resolve_ensures name s.position) (fun _ => .pure fun _ _ _ => ?_) t
        (behind other)
      exact past_of_facing (by split <;> rfl) (by split <;> simp)
    cases kind with
    | mark mark =>
      cases mark with
      | assign => exact assignment_leaves nested seen takes current
      | openParen => exact call_ensures nested name s.position t (behind (by simp))
      | _ => exact loads (by simp)
    | _ => exact loads (by simp)

theorem primary_ensures : ReadsOperands source scope (primary inner scope) := by
  intro s seen
  rw [primary, bind_eq, next_eq]
  cases current : s.current with
  | error cause => exact seen.unreadable current
  | ok kind =>
    have takes : s.Takes kind s.advanced := ⟨current, rfl⟩
    have passed (known : ∀ name, kind ≠ .identifier name) : Seen source
        (fun bindings cores _ => ∃ earlier, facing scope .operand earlier cores (.ok kind) ∧
          bindings = earlier.pass kind) s.advanced :=
      seen.take takes (fun _ _ => Bindings.breaks_of_ne known) fun bindings holds =>
        ⟨bindings, holds, Bindings.next_of_passes (by rw [holds.2]; rfl)⟩
    have literal (steady : kind.isSteady = true) (closes : kind.opensOperand = false) :
        Seen source (past scope) s.advanced := by
      refine (passed (Kind.ne_identifier steady)).mono ?_
      rintro _ ⟨bindings, holds, rfl⟩
      rw [Bindings.pass_of_steady steady, Kind.stance, closes]
      have behind : facing scope .other (bindings.facing .other) s.advanced.cores
          s.advanced.current := ⟨holds.1.facing _, rfl⟩
      exact past_of_facing rfl (by simp) behind
    cases kind with
    | identifier name => exact named_leaves nested seen takes
    | uint | double | char => exact literal rfl rfl
    | mark mark =>
      cases mark with
      | openParen =>
        refine parenthesized_ensures nested s.position s.advanced ((passed (by simp)).mono ?_)
        rintro _ ⟨bindings, holds, rfl⟩
        refine ⟨holds.1.facing _, ?_⟩
        simp [Bindings.pass, Bindings.facing, holds.2]
      | _ => exact (passed (by simp)).exposes (by simp)
    | _ => exact (passed (by simp)).exposes (by simp)

theorem operand_ensures : ReadsOperands source scope (operand inner scope) :=
  (primary_ensures nested).bind fun _ => .repeatUntil cast_ensures _

omit nested in
theorem binary?_stance {kind : Kind} {op : Operator} (known : Operator.binary? kind = some op) :
    kind.isSteady = true ∧ kind.opensOperand = true := by
  cases kind with
  | mark mark =>
    cases mark with
    | plus | minus | star | slash | equal | notEqual | less | greater | lessEqual | greaterEqual =>
      exact ⟨rfl, rfl⟩
    | _ => cases known
  | _ => cases known

theorem operandAndOperator_ensures (before : Unfinished) :
    Ensures source (facing scope .operand) (operandAndOperator inner scope before)
      (Sum.elim (fun _ => facing scope .operand) fun _ => past scope) := by
  refine (Ensures.repeatUntil negation_ensures _).bind fun operators =>
    (operand_ensures nested).bind fun value => .peek_bind fun kind site => ?_
  dsimp only
  cases known : Operator.binary? kind with
  | some op =>
    obtain ⟨steady, opens⟩ := binary?_stance known
    have passed : Ensures source
        (fun bindings cores reading => past scope bindings cores reading ∧ reading = .ok kind)
        advance fun _ => facing scope .operand :=
      .advance (Kind.ne_identifier steady) fun _ _ _ holds => by
        simpa [Kind.stance, opens] using facing_next holds.1 holds.2.1 steady
    exact passed.bind fun _ => (Ensures.orFail fun _ failed => by
      simp [(reduceAll_blames failed).1]).bind fun _ => .pure fun _ _ _ => id
  | none =>
    refine (Ensures.orFail fun _ failed => by simp [(reduceAll_blames failed).1]).bind
      fun operands => ?_
    split
    · exact .pure fun _ _ _ => And.left
    · exact .fail (by simp)

end

/-- Expressions are read as the scan tells. -/
theorem expression_ensures (limit : Nat) (scope : Scope) :
    ReadsOperands source scope (expression limit scope) := by
  induction limit generalizing scope with
  | zero => exact .repeatUntil (operandAndOperator_ensures (by simp)) _
  | succ limit ih =>
    refine .repeatUntil (operandAndOperator_ensures ?_) _
    rintro _ ⟨rfl⟩
    exact ih scope

end Analysis

end C0
