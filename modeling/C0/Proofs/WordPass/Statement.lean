import C0.Proofs.WordPass.Expression

namespace C0

section

variable {source : String} {depth code made : Nat}

namespace SinglePass

theorem initializerSign_pays {isConst : Bool} :
    Establishes (Paid source depth code made) (initializerSign isConst) fun
      | some _ => Paid source depth (code + 2) (made + 1)
      | none => Paid source depth code made := by
  unfold initializerSign
  cases isConst with
  | false => exact eat_pays 1 (by decide)
  | true =>
    simp only [if_true, map_eq_pure_bind]
    exact (expect_pays 1 (by decide)).bind fun _ => .pure fun _ => id

/-- A declaration begins with a word that is worth at least three. -/
theorem declarationWord_pays : Establishes (Paid source depth code made) declarationWord
    fun _ => Paid source depth (code + 6) (made + 3) := by
  refine next_pays.bind fun token => ?_
  obtain ⟨kind, span⟩ := token
  dsimp only
  cases kind with
  | keyword word =>
    cases word with
    | letWord | constWord =>
      exact .pure fun _ paid => paid.less (Nat.add_le_add_left (by decide) code)
        (Nat.add_le_add_left (by decide) made)
    | _ => exact .fail
  | _ => exact .fail

/-- A jump takes an instruction from what is left. -/
theorem loopJump_pays {jump : Jump} (enough : 1 ≤ code) :
    Establishes (Paid source depth code made) (loopJump jump)
      fun _ => Paid source depth code made := by
  have keeps : Establishes (Paid source depth code made) next
      fun _ => Paid source depth code made :=
    next_pays.after fun _ _ paid => paid.less (by omega) (by omega)
  refine keeps.bind fun token => Establishes.get.bind fun found => .refuse_bind
    (Establishes.before ?_ fun _ holds => holds.2)
  refine (placeholder_pays enough).bind fun site => ?_
  have noted : Establishes (fun b => site < 2 * source.utf8ByteSize ∧
      Paid source depth (code - 1) made b)
      (onDesk fun desk => .ok ((), desk.note (.one jump site)))
      fun _ => Paid source depth (code - 1) made := by
    rintro b _ _ ⟨site_lt, paid⟩ ⟨⟩
    exact paid.noted jump site_lt
  exact noted.bind fun _ => (expect_pays 1 (by decide)).bind fun _ =>
    .pure fun _ paid => paid.less (by omega) (by omega)

end SinglePass

namespace WordPass

open SinglePass

variable {α : Type} {post : α → Bench → Prop}

/-- A name is looked up among the parameters of the function. -/
theorem isTaken_exact {rank : Nat} {name : String} :
    Exact source (Paid source depth code made) (isTaken .words rank name)
      (isTaken .exact rank name) fun _ => Paid source depth code made := by
  refine .get_bind fun found paid => Exact.before ?_ fun _ holds => holds.2
  split
  · exact .pure fun _ => id
  · exact .param?_bind paid.params (.pure fun _ => id)

/-- A global symbol is an entry of the directory. -/
theorem publish_exact {symbol : Symbol} (enough : 1 ≤ made) :
    Exact source (Paid source depth code made) (publish .words symbol) (publish .exact symbol)
      fun _ => Paid source depth code (made - 1) := by
  unfold publish
  split
  · exact (register_exact enough).bind fun _ => .self (.modify fun _ paid => { paid with })
  · exact .pure fun _ paid => paid.less (Nat.le_refl _) (by omega)

/-- The slot of a symbol and its entry are paid for by the declaration. -/
theorem declaredSymbol_exact {rank : Nat} {isConst : Bool} :
    Exact source (Paid source depth code made) (declaredSymbol .words rank isConst)
      (declaredSymbol .exact rank isConst) fun _ => Paid source depth code made := by
  refine .self_bind expectIdentifier_pays fun word => isTaken_exact.bind fun taken => ?_
  -- The name, the colon and the type pay for the slot, the symbol and the entry.
  refine .refuse_bind (.self_bind (expect_pays 1 (by decide)) fun _ => ?_)
  refine .self_bind expectValueType_pays fun ty => (allocate_exact (by omega)).bind fun slot => ?_
  refine .self_bind (declare_pays (by omega)) fun _ => (publish_exact (by omega)).bind fun _ => ?_
  exact .pure fun _ paid => paid.less (by omega) (by omega)

section

variable {limit rank : Nat} {words steps : Routines} (inner : ExactRoutines source words steps)

include inner

theorem initializer_exact {symbol : Symbol} :
    Exact source (Paid source depth code made) (initializer words rank symbol)
      (initializer steps rank symbol) fun _ => Paid source depth code made := by
  refine .self_bind initializerSign_pays fun sign => ?_
  cases sign with
  | none => exact .pure fun _ => id
  | some sign =>
    refine .self_bind (write_pays 1 (Nat.le_refl _) (by omega)) fun _ => ?_
    refine inner.expression.bind fun ty => .refuse_bind ?_
    refine .self_bind (write_pays 1 (Nat.le_refl _) (by omega)) fun _ => .self ?_
    exact markInitialized_pays.after fun _ _ paid => paid.less (by omega) (by omega)

theorem declaration_exact :
    Exact source (Paid source depth code made) (declaration .words words rank)
      (declaration .exact steps rank) fun _ => Paid source depth code made := by
  refine .self_bind declarationWord_pays fun isConst => ?_
  refine declaredSymbol_exact.bind fun symbol => (initializer_exact inner).bind fun _ => ?_
  refine .self_bind (expect_pays 1 (by decide)) fun _ => ?_
  exact .pure fun _ paid => paid.less (by omega) (by omega)

theorem returnedValue_exact {span : Span} (enough : 1 ≤ code) :
    Exact source (Paid source depth code made) (returnedValue words rank span)
      (returnedValue steps rank span) fun _ => Paid source depth (code - 1) made := by
  refine .get_bind fun _ _ => Exact.before ?_ fun _ holds => holds.2
  refine .self_bind (check_pays _) fun isEmpty => ?_
  cases isEmpty with
  | true =>
    exact .self (Establishes.refuse.after fun _ _ holds =>
      holds.2.less (by omega) (Nat.le_refl _))
  | false =>
    refine inner.expression.bind fun ty => .refuse_bind (.self ?_)
    exact write_pays 1 (Nat.le_refl _) enough

theorem giveBack_exact : Exact source (Paid source depth code made) (giveBack words rank)
    (giveBack steps rank) fun _ => Paid source depth code made := by
  refine .self_bind (expect_pays 6 (by decide)) fun span => ?_
  refine .self_bind (write_pays 1 (Nat.le_refl _) (by omega)) fun _ => ?_
  refine (returnedValue_exact inner (by omega)).bind fun _ => ?_
  have noted : Establishes (Paid source depth (code + 2 * 6 - 1 - 1) (made + 6))
      (onDesk fun desk =>
        .ok ((), { desk with target := { desk.target with returned := true } }))
      fun _ => Paid source depth (code + 2 * 6 - 1 - 1) (made + 6) := by
    refine .onDesk fun b _ desk paid done => ?_
    cases done
    exact paid.redrawn ⟨rfl, rfl, rfl, rfl⟩
  refine .self_bind noted fun _ => ?_
  refine .self_bind (write_pays 1 (Nat.le_refl _) (by omega)) fun _ => ?_
  refine .self_bind (expect_pays 1 (by decide)) fun _ => ?_
  exact .pure fun _ paid => paid.less (by omega) (by omega)

/-- What takes a value away is written before its semicolon is taken. -/
theorem evaluation_exact (enough : 1 ≤ code) :
    Exact source (Paid source depth code made) (evaluation words rank) (evaluation steps rank)
      fun _ => Paid source depth code made := by
  refine inner.expression.bind fun ty => ?_
  refine .self_bind (write_pays 1 (by split <;> simp) enough) fun _ => ?_
  refine .self_bind (expect_pays 1 (by decide)) fun _ => ?_
  exact .pure fun _ paid => paid.less (by omega) (by omega)

/-- The rank of a block inside fits where there are as many levels. -/
theorem innerBlock_exact (within : rank ≤ depth) :
    Exact source (Paid source depth code made) (innerBlock .words words rank)
      (innerBlock .exact steps rank) fun _ => Paid source depth code made := by
  have ranks (b : Bench) (paid : Paid source depth code made b) : rank ≤ source.utf8ByteSize := by
    have counted := paid.counted
    have bytes := paid.weight_le
    omega
  refine .knowing ranks fun ranks => .keep_bind (fun small => by omega) ?_
  exact (inner.block (Nat.succ_le_succ within)).bind fun _ => .pure fun _ => id

/-- Each kind of statement is paid for by its own tokens. -/
theorem statement_exact (within : rank ≤ depth) (enough : 1 ≤ code) :
    Exact source (Paid source depth code made) (statement .words words rank)
      (statement .exact steps rank) fun _ => Paid source depth code made := by
  refine peek_bind fun token => ?_
  obtain ⟨kind, span⟩ := token
  have evaluated : Exact source (Paid source depth code made) (evaluation words rank)
      (evaluation steps rank) fun _ => Paid source depth code made :=
    evaluation_exact inner enough
  cases kind with
  | keyword word =>
    cases word with
    | letWord | constWord => exact inner.declaration
    | ifWord => exact inner.conditional within
    | whileWord => exact inner.iteration within
    | returnWord => exact inner.giveBack
    | breakWord | continueWord => exact inner.loopJump enough
    | _ => exact evaluated
  | mark sign =>
    cases sign with
    | openBrace => exact innerBlock_exact inner within
    | semicolon =>
      refine .self_bind next_pays fun _ => ?_
      exact .pure fun _ paid => paid.less (by omega) (by omega)
    | _ => exact evaluated
  | _ => exact evaluated

theorem statementOrEnd_exact (within : rank ≤ depth) (enough : 1 ≤ code) :
    Exact source (Paid source depth code made) (statementOrEnd words rank ())
      (statementOrEnd steps rank ())
      (Sum.elim (fun _ => Paid source depth code made) fun _ => Paid source depth code made) := by
  refine .self_bind (check_pays _) fun ends => ?_
  cases ends with
  | true => exact .pure fun _ => id
  | false => exact (inner.statement within enough).bind fun _ => .pure fun _ => id

/-- The braces of a block pay for its level. -/
theorem block_exact (within : rank ≤ depth + 1) :
    Exact source (Paid source depth code made) (block .words limit words rank)
      (block .exact limit steps rank) fun _ => Paid source depth code made := by
  refine .self_bind (expect_pays 1 (by decide)) fun opening => ?_
  refine (enter_exact (by omega)).bind fun _ => ?_
  refine (Exact.repeatUntil (fun _ => statementOrEnd_exact inner within (by omega)) ()).bind
    fun _ => ?_
  refine .self_bind (expect_pays 1 (by decide)) fun closing => ?_
  refine .self_bind (.modify fun b paid => paid.dropped rank) fun _ => ?_
  refine .self_bind leave_pays fun _ => ?_
  exact .pure fun _ paid => paid.less (by omega) (by omega)

theorem test_exact {span : Span} (enough : 1 ≤ code) :
    Exact source (Paid source depth code made) (test words rank span) (test steps rank span)
      fun _ => Paid source depth (code - 1) made := by
  refine inner.expression.bind fun ty => .refuse_bind (.self ?_)
  exact write_pays 1 (Nat.le_refl _) enough

/-- An `else` needs nothing for itself: its jump was paid for by the conditional. -/
theorem alternative_exact (within : rank ≤ depth) :
    Exact source (Paid source depth code made) (alternative .words words rank)
      (alternative .exact steps rank) fun _ => Paid source depth code made := by
  refine .self_bind (eat_pays 0 (Nat.zero_le _)) fun word => ?_
  cases word with
  | none => exact .pure fun _ => id
  | some span =>
    refine .self_bind (check_pays _) fun another => ?_
    cases another with
    | true => exact inner.conditional within
    | false => exact innerBlock_exact inner within

/-- A conditional has its placeholders from its word. -/
theorem conditional_exact (within : rank ≤ depth) :
    Exact source (Paid source depth code made) (conditional .words limit words rank)
      (conditional .exact limit steps rank) fun _ => Paid source depth code made := by
  -- The word pays for the level, the test and two placeholders.
  refine .self_bind (expect_pays 2 (by decide)) fun span => ?_
  refine (enter_exact (by omega)).bind fun _ => (test_exact inner (by omega)).bind fun _ => ?_
  refine .self_bind (placeholder_pays (by omega)) fun skipYes => .given fun yes_lt => ?_
  refine (innerBlock_exact inner (by omega)).bind fun _ => ?_
  refine .self_bind (placeholder_pays (by omega)) fun skipNo => .given fun no_lt => ?_
  refine .self_bind position_pays fun target => .given fun target_le => ?_
  refine (patch_exact yes_lt target_le).bind fun _ => ?_
  refine (alternative_exact inner (by omega)).bind fun _ => ?_
  refine .self_bind position_pays fun after => .given fun after_le => ?_
  refine (patch_exact no_lt after_le).bind fun _ => .self ?_
  exact leave_pays.after fun _ _ paid => paid.less (by omega) (by omega)

end

/-- The branches that wait for the end of a loop stand in the code of its body. -/
theorem insideLoop_exact {recheck : Nat} {words step : SinglePass Unit}
    (body : Exact source (Paid source depth code made) words step
      fun _ => Paid source depth code made) :
    Exact source (Paid source depth code made) (insideLoop recheck words)
      (insideLoop recheck step) fun jumps b =>
        (∀ site ∈ jumps.all, site < 2 * source.utf8ByteSize) ∧ Paid source depth code made b := by
  -- The body runs with one loop more, and what it fails with is handed on.
  constructor
  · intro b jumps b'' paid done
    unfold insideLoop at done
    cases ran : step { b with desk := b.desk.openLoop recheck } with
    | ok x b' =>
      rw [ran] at done
      have paid' := body.establishes _ x b' (paid.openLoop recheck) ran
      have closes : Establishes (Paid source depth code made) (onDesk (·.closeLoop recheck))
          fun jumps b => (∀ site ∈ jumps.all, site < 2 * source.utf8ByteSize) ∧
            Paid source depth code made b :=
        .onDesk fun _ _ _ open' closed => open'.closeLoop closed
      exact closes b' jumps b'' paid' done
    | error stop b' =>
      rw [ran] at done
      dsimp only at done
      split at done <;> cases done
  · intro small b paid
    rw [insideLoop, insideLoop, body.same small _ (paid.openLoop recheck)]

/-- A loop has its jumps from its word, which is long enough. -/
theorem iteration_exact {limit rank : Nat} {words steps : Routines}
    (inner : ExactRoutines source words steps) (within : rank ≤ depth) :
    Exact source (Paid source depth code made) (iteration .words limit words rank)
      (iteration .exact limit steps rank) fun _ => Paid source depth code made := by
  -- The word pays for the level, the test and three placeholders.
  refine .self_bind (expect_pays 5 (by decide)) fun span => ?_
  refine (enter_exact (by omega)).bind fun _ => ?_
  refine .self_bind (placeholder_pays (by omega)) fun start => .given fun start_lt => ?_
  refine .self_bind position_pays fun recheck => .given fun recheck_le => ?_
  refine (patch_exact start_lt recheck_le).bind fun _ => ?_
  refine (test_exact inner (by omega)).bind fun _ => ?_
  refine .self_bind (placeholder_pays (by omega)) fun exit => .given fun exit_lt => ?_
  refine (insideLoop_exact (innerBlock_exact inner (by omega))).bind fun jumps =>
    .given fun jumps_lt => ?_
  refine .self_bind (placeholder_pays (by omega)) fun back => .given fun back_lt => ?_
  refine (patch_exact back_lt recheck_le).bind fun _ => ?_
  refine .self_bind position_pays fun after => .given fun after_le => ?_
  refine (patch_exact exit_lt after_le).bind fun _ => ?_
  have leaving := fun site member => jumps_lt site (List.mem_append_left _ member)
  have repeating := fun site member => jumps_lt site (List.mem_append_right _ member)
  refine (patchAll_exact leaving after_le).bind fun _ => ?_
  refine (patchAll_exact repeating recheck_le).bind fun _ => .self ?_
  exact leave_pays.after fun _ _ paid => paid.less (by omega) (by omega)

end WordPass

end

end C0
