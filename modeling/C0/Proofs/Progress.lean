import C0.Proofs.Precedence

namespace C0

namespace Analysis

variable {α β : Type}

/-- A change that leaves the readings alone does not go back. -/
theorem modify_forward {f : State → State}
    (quiet : ∀ s, (f s).position = s.position ∧ (f s).rest = s.rest) : Forward (modify f) := by
  intro s _ t run
  obtain rfl := modify_ok_iff.mp run
  exact ⟨0, (quiet s).1, (quiet s).2⟩

theorem expectIdentifier_forward : Forward expectIdentifier := by
  refine next_forward.bind fun ⟨kind, _⟩ => ?_
  cases kind with
  | identifier name => exact pure_forward _
  | _ => exact fail_forward _ _

theorem expectValueType_forward : Forward expectValueType :=
  expectType_forward.bind fun _ => (refuse_forward _ _ _).bind fun _ => pure_forward _

theorem initializerSign_forward (isConst : Bool) : Forward (initializerSign isConst) := by
  intro s sign t run
  unfold initializerSign at run
  split at run
  · obtain ⟨_, run, _⟩ := map_ok_iff.mp run
    exact expect_forward _ _ _ _ run
  · exact eat_forward _ _ _ _ run

theorem publish_forward (symbol : Symbol) : Forward (publish symbol) := by
  unfold publish
  split
  · exact (register_forward _).bind fun _ => modify_forward (by simp)
  · exact pure_forward _

theorem declaredSymbol_forward (scope : Scope) (isConst : Bool) :
    Forward (declaredSymbol scope isConst) := by
  refine expectIdentifier_forward.bind fun word => get_forward.bind fun s =>
    (refuse_forward _ _ _).bind fun _ => (expect_forward _).bind fun _ =>
      expectValueType_forward.bind fun ty => Forward.bind ?_ fun slot => Forward.bind ?_ fun _ =>
        (publish_forward _).bind fun _ => pure_forward _
  · intro s slot t run
    have same := modifyGet_ok_iff.mp run
    unfold State.allocate at same
    split at same <;> cases same <;> exact ⟨0, rfl, rfl⟩
  · exact get_forward.bind fun _ => (orFail_forward _).bind fun _ =>
      modify_forward (by simp)

/-- The head of a function is read forwards. -/
theorem functionHead_forward : Forward functionHead := by
  have ofParam (before : Signature) : Forward (param before) := by
    refine (eat_forward _).bind fun _ => expectIdentifier_forward.bind fun _ =>
      (expect_forward _).bind fun _ => expectValueType_forward.bind fun _ =>
        (orFail_forward _).bind fun _ => (eat_forward _).bind fun comma => ?_
    cases comma <;> exact pure_forward _
  have ofParams (before : Signature) : Forward (params before) := by
    refine (expect_forward _).bind fun _ => (check_forward _).bind fun isEmpty =>
      Forward.bind ?_ fun _ => (expect_forward _).bind fun _ => pure_forward _
    split
    · exact pure_forward _
    · exact .repeatUntil ofParam _
  exact (expect_forward _).bind fun _ => expectIdentifier_forward.bind fun _ =>
    get_forward.bind fun _ => (refuse_forward _ _ _).bind fun _ =>
    (register_forward _).bind fun _ =>
      (ofParams _).bind fun _ => (expect_forward _).bind fun _ => expectType_forward.bind fun _ =>
        pure_forward _

/-- The step takes at least one token. -/
def Shortens (m : Analysis α) : Prop :=
  ∀ s a t, m s = .ok a t → s.LeadsTo t ∧ t.rest.length < s.rest.length

namespace Shortens

/-- What takes a token does not go back. -/
theorem forward {m : Analysis α} (shortens : Shortens m) : Forward m :=
  fun _ _ _ run => (shortens _ _ _ run).1

/-- The first of two steps takes a token. -/
theorem bind {m : Analysis α} {f : α → Analysis β} (first : Shortens m)
    (rest : ∀ a, Forward (f a)) : Shortens (m >>= f) := by
  intro s b u run
  obtain ⟨a, t, before, after⟩ := bind_ok_iff.mp run
  obtain ⟨leads, shorter⟩ := first _ _ _ before
  have leads' := rest a _ _ _ after
  exact ⟨leads.trans leads', Nat.lt_of_le_of_lt leads'.length_le shorter⟩

/-- The second of two steps takes a token. -/
theorem after {m : Analysis α} {f : α → Analysis β} (first : Forward m)
    (rest : ∀ a, Shortens (f a)) : Shortens (m >>= f) := by
  intro s b u run
  obtain ⟨a, t, before, after⟩ := bind_ok_iff.mp run
  have leads := first _ _ _ before
  obtain ⟨leads', shorter⟩ := rest a _ _ _ after
  exact ⟨leads.trans leads', Nat.lt_of_lt_of_le shorter leads.length_le⟩

/-- A step that takes a token other than the end has fewer readings left. -/
theorem of_takes {m : Analysis α}
    (takes : ∀ s a t, m s = .ok a t → ∃ kind, kind ≠ .eof ∧ s.Takes kind t) : Shortens m := by
  intro s a t run
  obtain ⟨kind, more, taken⟩ := takes s a t run
  refine ⟨?_, taken.length_lt more⟩
  rw [taken.2]
  exact .advanced s

end Shortens

theorem expect_shortens {kind : Kind} (more : kind ≠ .eof) : Shortens (expect kind) :=
  .of_takes fun _ _ _ run => ⟨kind, more, (expect_ok_iff.mp run).1⟩

theorem declarationWord_shortens : Shortens declarationWord := by
  refine .of_takes fun s isConst t run => ?_
  obtain ⟨⟨kind, site⟩, u, read, run⟩ := bind_ok_iff.mp run
  obtain ⟨takes, _⟩ := next_ok_iff.mp read
  cases kind with
  | keyword word =>
    cases word with
    | letWord | constWord =>
      obtain ⟨_, rfl⟩ := pure_ok_iff.mp run
      exact ⟨_, by simp, takes⟩
    | _ => simp at run
  | _ => simp at run

section

variable {f : Scope → Analysis Expr} (forward : ∀ scope, Forward (f scope)) (scope : Scope)

include forward

theorem initializer_forward (symbol : Symbol) : Forward (initializer f scope symbol) := by
  refine (initializerSign_forward _).bind fun sign => ?_
  cases sign with
  | none => exact pure_forward _
  | some sign =>
    exact (forward scope).bind fun _ => (refuse_forward _ _ _).bind fun _ =>
      (markInitialized_forward _).bind fun _ => pure_forward _

/-- A declaration takes at least the word that it begins with. -/
theorem declaration_shortens : Shortens (declaration f scope) :=
  declarationWord_shortens.bind fun _ => (declaredSymbol_forward _ _).bind fun _ =>
    (initializer_forward forward _ _).bind fun _ => (expect_forward _).bind fun _ => pure_forward _

/-- A return takes at least its word. -/
theorem giveBack_shortens : Shortens (giveBack f scope) := by
  refine (expect_shortens (by simp)).bind fun site => Forward.bind ?_ fun _ =>
    (expect_forward _).bind fun _ => pure_forward _
  refine (check_forward _).bind fun isBare => ?_
  split
  · exact (refuse_forward _ _ _).bind fun _ => pure_forward _
  · exact (forward scope).bind fun _ => (refuse_forward _ _ _).bind fun _ => pure_forward _

/-- An expression as a statement takes at least its semicolon. -/
theorem evaluation_shortens : Shortens (evaluation f scope) :=
  .after (forward scope) fun _ => (expect_shortens (by simp)).bind fun _ => pure_forward _

end

theorem loopJump_shortens (scope : Scope) (jump : Stmt) : Shortens (loopJump scope jump) :=
  .after next_forward fun _ => .after (refuse_forward _ _ _) fun _ =>
    (expect_shortens (by simp)).bind fun _ => pure_forward _

/-- What is nested is read by steps that never go back, and a construct takes a token. -/
structure ReadersMove (readers : Readers) : Prop where
  expression : ∀ scope, Forward (readers.expression scope)
  nested : ∀ construct scope, Shortens (readers.nested construct scope)

section

variable {readers : Readers} (moves : ReadersMove readers) (scope : Scope)

include moves

/-- A statement of any kind takes a token. -/
theorem statement_shortens : Shortens (statement readers scope) := by
  intro s stmt t run
  obtain ⟨⟨kind, site⟩, u, read, run⟩ := bind_ok_iff.mp run
  obtain ⟨current, _, rfl⟩ := peek_ok_iff.mp read
  have evaluated (run : evaluation readers.expression scope s = .ok stmt t) :=
    evaluation_shortens moves.expression scope s stmt t run
  cases kind with
  | keyword word =>
    cases word with
    | letWord | constWord => exact declaration_shortens moves.expression scope s stmt t run
    | ifWord | whileWord => exact moves.nested _ _ s stmt t run
    | returnWord => exact giveBack_shortens moves.expression scope s stmt t run
    | breakWord | continueWord => exact loopJump_shortens scope _ s stmt t run
    | _ => exact evaluated run
  | mark mark =>
    cases mark with
    | openBrace => exact moves.nested _ _ s stmt t run
    | semicolon =>
      obtain ⟨_, u, taken, run⟩ := bind_ok_iff.mp run
      obtain rfl := advance_ok_iff.mp taken
      obtain ⟨_, rfl⟩ := pure_ok_iff.mp run
      exact ⟨.advanced s, State.Takes.length_lt ⟨current, rfl⟩ (by simp)⟩
    | _ => exact evaluated run
  | _ => exact evaluated run

theorem statementOrEnd_forward (before : List Stmt) :
    Forward (statementOrEnd readers scope before) := by
  refine (check_forward _).bind fun ends => ?_
  split
  · exact pure_forward _
  · exact (statement_shortens moves scope).forward.bind fun _ => pure_forward _

/-- Another statement is looked for only after one was taken. -/
theorem statementOrEnd_progresses : Progresses (statementOrEnd readers scope) := by
  intro before s after t run
  obtain ⟨ends, u, checked, run⟩ := bind_ok_iff.mp run
  obtain ⟨_, rfl⟩ := check_ok_iff.mp checked
  split at run
  · simp at run
  · obtain ⟨stmt, u, read, run⟩ := bind_ok_iff.mp run
    obtain ⟨_, rfl⟩ := pure_ok_iff.mp run
    exact (statement_shortens moves scope _ _ _ read).2

theorem alternative_forward : Forward (alternative readers scope) := by
  refine (eat_forward _).bind fun site => ?_
  cases site with
  | none => exact pure_forward _
  | some site =>
    refine (check_forward _).bind fun again => ?_
    split <;> exact (moves.nested _ _).forward

theorem test_forward (site : Nat) : Forward (test readers scope site) :=
  (moves.expression scope).bind fun _ => (refuse_forward _ _ _).bind fun _ => pure_forward _

end

section

variable {inner : Option Readers} (moves : ∀ readers, inner = some readers → ReadersMove readers)

include moves

/-- What follows one level further in goes forwards if it does so with what is allowed there. -/
theorem enter_readers_forward {site : Nat} {f : Readers → Analysis α}
    (rest : ∀ readers, ReadersMove readers → Forward (f readers)) :
    Forward (enter inner site >>= f) := by
  intro s a u run
  obtain ⟨readers, t, entered, after⟩ := bind_ok_iff.mp run
  obtain ⟨allowed, rfl⟩ := enter_ok_iff.mp entered
  exact rest readers (moves readers allowed) _ _ _ after

/-- A block takes at least its braces. -/
theorem block_shortens (scope : Scope) : Shortens (block inner scope) :=
  (expect_shortens (by simp)).bind fun _ => enter_readers_forward moves fun _ moves =>
    (Forward.repeatUntil (statementOrEnd_forward moves scope) _).bind fun _ =>
      (expect_forward _).bind fun _ => (modify_forward (by simp)).bind fun _ =>
        pure_forward _

/-- A construct takes at least the token that it begins with. -/
theorem constructWith_shortens (construct : Construct) (scope : Scope) :
    Shortens (constructWith inner construct scope) := by
  cases construct with
  | block => exact (block_shortens moves scope).bind fun _ => pure_forward _
  | conditional =>
    exact (expect_shortens (by simp)).bind fun _ => enter_readers_forward moves fun _ moves =>
      (test_forward moves scope _).bind fun _ => (moves.nested _ _).forward.bind fun _ =>
        (alternative_forward moves scope).bind fun _ => pure_forward _
  | iteration =>
    exact (expect_shortens (by simp)).bind fun _ => enter_readers_forward moves fun _ moves =>
      (test_forward moves scope _).bind fun _ => (moves.nested _ _).forward.bind fun _ =>
        pure_forward _

end

/-- A construct takes a token, however many levels are left. -/
theorem nested_shortens (limit : Nat) (construct : Construct) (scope : Scope) :
    Shortens (nested limit construct scope) := by
  induction limit generalizing construct scope with
  | zero => exact constructWith_shortens (by simp) construct scope
  | succ limit ih =>
    refine constructWith_shortens ?_ construct scope
    rintro _ ⟨rfl⟩
    exact ⟨expression_forward limit, ih⟩

/-- What is allowed one level further in moves on. -/
theorem readersBelow_moves (limit : Nat) (readers : Readers)
    (allowed : readersBelow limit = some readers) : ReadersMove readers := by
  cases limit with
  | zero => simp [readersBelow] at allowed
  | succ limit =>
    cases Option.some.inj allowed
    exact ⟨expression_forward limit, nested_shortens limit⟩

/-- A function takes at least its word. -/
theorem function_shortens (limit : Nat) : Shortens (function limit) := by
  refine .after functionHead_forward fun signature =>
    .after (modify_forward (by simp)) fun _ =>
      (block_shortens (readersBelow_moves limit) _).bind fun result => get_forward.bind fun s => ?_
  cases Definition.ofBody? signature s.frame result.1 with
  | none => exact fail_forward _ _
  | some definition =>
    exact Forward.bind (modify_forward (by simp)) fun _ => modify_forward (by simp)

theorem globalDeclaration_shortens (limit : Nat) : Shortens (globalDeclaration limit) :=
  (declaration_shortens (expression_forward limit) globalScope).bind fun _ =>
    modify_forward (by simp)

/-- An item of a program that is not its end takes a token. -/
theorem itemOrEnd_moves {limit : Nat} {before after : Unit} {s t : State}
    (run : itemOrEnd limit before s = .ok (.inl after) t) :
    s.LeadsTo t ∧ t.rest.length < s.rest.length := by
  obtain ⟨⟨kind, _⟩, u, read, run⟩ := bind_ok_iff.mp run
  obtain ⟨_, _, rfl⟩ := peek_ok_iff.mp read
  cases kind with
  | keyword word =>
    cases word with
    | fnWord =>
      obtain ⟨_, run, _⟩ := map_ok_iff.mp run
      exact function_shortens limit _ _ _ run
    | letWord | constWord =>
      obtain ⟨_, run, _⟩ := map_ok_iff.mp run
      exact globalDeclaration_shortens limit _ _ _ run
    | _ => simp at run
  | _ => simp at run

theorem itemOrEnd_progresses (limit : Nat) : Progresses (itemOrEnd limit) :=
  fun _ _ _ _ run => (itemOrEnd_moves run).2

/-- Another argument is read only after a comma was taken. -/
theorem argument_progresses {expression : Scope → Analysis Expr} {scope : Scope}
    (forward : Forward (expression scope)) : Progresses (argument scope expression) := by
  intro before s after t run
  simp only [argument, bind_ok_iff, peek_ok_iff] at run
  obtain ⟨_, _, ⟨_, _, rfl⟩, value, u, read, comma, v, eaten, run⟩ := run
  cases comma with
  | none => simp at run
  | some site =>
    obtain ⟨_, rfl⟩ := pure_ok_iff.mp run
    have taken := (eat_some_iff.mp eaten).1.length_lt (by simp)
    exact Nat.lt_of_lt_of_le taken (forward _ _ _ read).length_le

/-- Another cast is looked for only after one was taken. -/
theorem cast_progresses : Progresses cast := by
  intro operand s after t run
  obtain ⟨site, u, eaten, run⟩ := bind_ok_iff.mp run
  cases site with
  | none => simp at run
  | some site =>
    simp only [bind_ok_iff, expectType_ok_iff, refuse_ok_iff, pure_ok_iff] at run
    obtain ⟨word, v, ⟨typed, _⟩, _, _, ⟨_, rfl⟩, _, rfl⟩ := run
    exact (typed.length_lt (by simp)).trans ((eat_some_iff.mp eaten).1.length_lt (by simp))

/-- Another sign is looked for only after one was taken. -/
theorem negation_progresses : Progresses negation := by
  intro operators s after t run
  obtain ⟨site, u, eaten, run⟩ := bind_ok_iff.mp run
  cases site with
  | none => simp at run
  | some site =>
    obtain ⟨_, rfl⟩ := pure_ok_iff.mp run
    exact (eat_some_iff.mp eaten).1.length_lt (by simp)

/-- Another parameter is read only after a comma was taken. -/
theorem param_progresses : Progresses param := by
  intro before s after t run
  simp only [param, bind_ok_iff, orFail_ok_iff] at run
  obtain ⟨const, u, marked, word, v, named, _, w, colon, ty, x, typed, _, _, ⟨_, rfl⟩, comma, y,
    eaten, run⟩ := run
  cases comma with
  | none => simp at run
  | some site =>
    obtain ⟨_, rfl⟩ := pure_ok_iff.mp run
    have taken := (eat_some_iff.mp eaten).1.length_lt (by simp)
    have first := (eat_forward _ _ _ _ marked).length_le
    have second := (expectIdentifier_forward _ _ _ named).length_le
    have third := (expect_forward _ _ _ _ colon).length_le
    have fourth := (expectValueType_forward _ _ _ typed).length_le
    omega

end Analysis

end C0
