import C0.Proofs.Bindings.Statement

namespace C0

open Bindings (scanSource)

/-- The place of the head of a function, as far as its parameters are known. -/
def Signature.headScope (signature : Signature) : Scope :=
  ⟨signature, 0, false⟩

/-- In the head of a function the name of a parameter was read. -/
def parameter (before : Signature) (name : String) (isConst : Bool) : Assertion :=
  fun bindings cores reading => ∀ ty, facing
    (Signature.headScope { before with params := before.params ++ [⟨name, isConst, ty⟩] })
    (.head false) bindings cores reading

section

variable {source : String} {scope scope' : Scope} {bindings : Bindings} {cores : List Symbol}
  {reading : Reading} {stance : Stance} {kind : Kind} {isConst : Bool}

theorem facing_congr (rank : scope'.rank = scope.rank)
    (params : scope'.signature.params = scope.signature.params)
    (holds : facing scope stance bindings cores reading) :
    facing scope' stance bindings cores reading :=
  ⟨⟨holds.1.symbols, by rw [rank, holds.1.rank], by rw [params, holds.1.params]⟩, holds.2⟩

/-- The token stands in the head of a function and is neither the name of a parameter nor the word
before one. -/
def Kind.isPlainInHead : Kind → Bool
  | identifier _ | keyword .constWord | mark .openBrace => false
  | _ => true

theorem facing_passHead {reading' : Reading} (plain : kind.isPlainInHead = true)
    (holds : facing scope (.head isConst) bindings cores reading) :
    facing scope (.head false) (bindings.next kind) cores reading' := by
  have same : bindings.next kind = bindings.facing (.head false) := by
    rw [Bindings.next, holds.2]
    cases kind with
    | identifier name => cases plain
    | keyword word =>
      cases word with
      | constWord => cases plain
      | _ => rfl
    | mark mark =>
      cases mark with
      | openBrace => cases plain
      | _ => rfl
    | _ => rfl
  rw [same]
  exact ⟨holds.1.facing _, rfl⟩

theorem Ensures.expect_head (plain : kind.isPlainInHead = true) :
    Ensures source (facing scope (.head false)) (Analysis.expect kind) fun _ =>
      facing scope (.head false) :=
  .expect (facing_calm (by simp)) fun _ _ _ => facing_passHead plain

end

namespace Analysis

variable {source : String}

theorem parameter_calm {before : Signature} {name : String} {isConst : Bool} :
    (parameter before name isConst).Calm :=
  fun bindings cores name holds => facing_calm (by simp) bindings cores name (holds .void)

theorem param_ensures (before : Signature) :
    Ensures source (facing before.headScope (.head false)) (param before)
      (Sum.elim (fun after => facing after.headScope (.head false)) fun after =>
        facing after.headScope (.head false)) := by
  have word : Ensures source (facing before.headScope (.head false))
      (eat (.keyword .constWord)) fun site => facing before.headScope (.head site.isSome) := by
    have eaten : Ensures source (facing before.headScope (.head false))
        (eat (.keyword .constWord)) fun site => site.elim (facing before.headScope (.head false))
          fun _ => facing before.headScope (.head true) := by
      refine .eat (by simp) fun bindings cores _ holds => ?_
      rw [Bindings.next, holds.2]
      exact ⟨holds.1.facing _, rfl⟩
    refine eaten.weaken (fun _ _ _ => id) fun site => ?_
    cases site <;> exact fun _ _ _ => id
  have named (isConst : Bool) : Ensures source (facing before.headScope (.head isConst))
      expectIdentifier fun word => parameter before word.name isConst := by
    refine .expectIdentifier (facing_calm (by simp)) fun word bindings cores _ holds ty => ?_
    rw [Bindings.next, holds.2]
    refine ⟨⟨holds.1.symbols, holds.1.rank, ?_⟩, rfl⟩
    rw [Signature.headScope, List.map_append]
    exact congrArg (· ++ [(word.name, isConst)]) holds.1.params
  have colon (name : String) (isConst : Bool) : Ensures source (parameter before name isConst)
      (expect (.mark .colon)) fun _ => parameter before name isConst :=
    .expect parameter_calm fun _ _ _ holds ty => facing_passHead rfl (holds ty)
  have typed (name : String) (isConst : Bool) : Ensures source (parameter before name isConst)
      expectValueType fun _ => parameter before name isConst :=
    .expectValueType parameter_calm fun _ _ _ _ holds ty => facing_passHead rfl (holds ty)
  have comma (after : Signature) : Ensures source (facing after.headScope (.head false))
      (eat (.mark .comma)) fun site => site.elim (facing after.headScope (.head false)) fun _ =>
        facing after.headScope (.head false) :=
    .eat (by simp) fun _ _ _ => facing_passHead rfl
  refine word.bind fun const => (named const.isSome).bind fun name => (colon _ _).bind fun _ =>
    (typed _ _).bind fun ty => ?_
  unfold Signature.addParam
  split
  · exact fun s seen => seen.exposes (by simp)
  · refine (Ensures.before (comma _) fun _ _ _ holds => holds ty).bind fun more => ?_
    cases more <;> exact .pure fun _ _ _ => id

theorem params_ensures (before : Signature) :
    Ensures source (facing before.headScope (.head false)) (params before) fun after =>
      facing after.headScope (.head false) := by
  refine (Ensures.expect_head rfl).bind fun _ => Ensures.check.bind fun isEmpty => ?_
  have read : Ensures source (fun bindings cores reading =>
      facing before.headScope (.head false) bindings cores reading ∧
        (isEmpty = true → reading = .ok (.mark .closeParen)))
      (if isEmpty then pure before else repeatUntil param before) fun after =>
        facing after.headScope (.head false) := by
    split
    · exact .pure fun _ _ _ => And.left
    · exact (Ensures.repeatUntil param_ensures before).before fun _ _ _ => And.left
  exact read.bind fun after => (Ensures.expect_head rfl).bind fun _ => .pure fun _ _ _ => id

theorem functionHead_ensures :
    Ensures source (past globalScope) functionHead fun signature =>
      facing signature.headScope (.head false) := by
  have word : Ensures source (past globalScope) (expect (.keyword .fnWord)) fun _ =>
      facing globalScope .routine := by
    refine .expect past_calm fun bindings cores _ holds => ?_
    rw [Bindings.next_of_passes holds.2.1]
    exact ⟨holds.1.facing _, rfl⟩
  have name : Ensures source (facing globalScope .routine) expectIdentifier fun _ =>
      facing globalScope (.head false) := by
    refine .expectIdentifier (facing_calm (by simp)) fun _ bindings cores _ holds => ?_
    rw [Bindings.next, holds.2]
    exact ⟨⟨holds.1.symbols, holds.1.rank, rfl⟩, rfl⟩
  have type (signature : Signature) : Ensures source (facing signature.headScope (.head false))
      expectType fun _ => facing signature.headScope (.head false) :=
    .expectType (facing_calm (by simp)) fun _ _ _ _ => facing_passHead rfl
  refine word.bind fun _ => name.bind fun word => Ensures.get.bind fun _ =>
    (Ensures.refuse (by simp)).bind fun _ => Ensures.register.bind fun address => ?_
  have listed : Ensures source (facing globalScope (.head false))
      (params ⟨word.name, address, [], .void⟩) fun signature =>
        facing signature.headScope (.head false) :=
    (params_ensures _).before fun _ _ _ => facing_congr rfl rfl
  exact listed.bind fun signature => (Ensures.expect_head rfl).bind fun _ =>
    (type signature).bind fun _ => .pure fun _ _ _ => facing_congr rfl rfl

theorem function_ensures (limit : Nat) :
    Ensures source (past globalScope) (function limit) fun _ => facing globalScope .other := by
  refine functionHead_ensures.bind fun signature => ?_
  have frame : Ensures source (facing signature.headScope (.head false))
      (modify fun s => { s with frame := ⟨0⟩ }) fun _ => facing signature.headScope (.head false) :=
    .quiet fun _ => ⟨_, _, rfl, rfl, rfl, rfl⟩
  have opens : Ensures source (facing signature.headScope (.head false))
      (expect (.mark .openBrace)) fun _ => facing ⟨signature, 1, false⟩ .operand := by
    refine .expect (facing_calm (by simp)) fun bindings cores _ holds => ?_
    rw [Bindings.next, holds.2]
    exact ⟨holds.1.opened rfl rfl, rfl⟩
  have body : Ensures source (facing signature.headScope (.head false))
      (block (readersBelow limit) ⟨signature, 1, false⟩) fun _ => facing globalScope .other :=
    block_ensures (readersBelow_ensure limit) opens rfl rfl
  refine frame.bind fun _ => body.bind fun result => ?_
  obtain ⟨stmt, closing⟩ := result
  refine Ensures.get.bind fun s => ?_
  cases Definition.ofBody? signature s.frame stmt with
  | none => exact .fail (by simp)
  | some definition => exact .quiet fun _ => ⟨_, _, rfl, rfl, rfl, rfl⟩

theorem globalDeclaration_ensures (limit : Nat) :
    Ensures source (past globalScope) (globalDeclaration limit) fun _ =>
      facing globalScope .other := by
  have read : Ensures source (past globalScope) (declaration (expression limit) globalScope)
      fun _ => facing globalScope .other :=
    declaration_ensures (expression_ensures limit globalScope)
  exact read.bind fun _ => .quiet fun _ => ⟨_, _, rfl, rfl, rfl, rfl⟩

/-- The end of the source comes next, outside all functions. -/
def atEnd : Assertion := fun bindings cores reading =>
  facing globalScope .other bindings cores reading ∧ reading = .ok .eof

theorem itemOrEnd_ensures (limit : Nat) : Ensures source (facing globalScope .other)
    (itemOrEnd limit ()) (Sum.elim (fun _ => facing globalScope .other) fun _ => atEnd) := by
  refine .peek_bind fun kind site => ?_
  have item {m : Analysis Unit} (reads : Ensures source (past globalScope) m fun _ =>
      facing globalScope .other) : Ensures source (fun bindings cores reading =>
        facing globalScope .other bindings cores reading ∧ reading = .ok kind) (Sum.inl <$> m)
        (Sum.elim (fun _ => facing globalScope .other) fun (_ : Unit) => atEnd) :=
    (reads.before fun _ _ _ holds => past_of_facing rfl (by simp) holds.1).bind fun _ =>
      .pure fun _ _ _ => id
  cases kind with
  | eof => exact .pure fun _ _ _ => id
  | keyword word =>
    cases word with
    | fnWord => exact item (function_ensures limit)
    | letWord | constWord => exact item (globalDeclaration_ensures limit)
    | _ => exact .fail (by simp)
  | _ => exact .fail (by simp)

theorem finish_ensures (eof : Nat) {pre : Assertion} :
    Ensures source pre (finish eof) fun _ => pre := by
  refine Ensures.get.bind fun s => ?_
  cases s.definitions.find? (·.signature.name == mainName) with
  | none => exact .fail (by simp)
  | some main => exact .quiet fun _ => ⟨_, _, rfl, rfl, rfl, rfl⟩

end Analysis

/-- Nothing comes behind the end of a source. -/
theorem eq_nil_of_eof_suffix {source : String} {rest : List Reading}
    (suffix : .ok .eof :: rest <:+ (lexemes source).map Lexeme.reading) : rest = [] := by
  obtain ⟨before, split⟩ := suffix
  obtain ⟨listed, _, early⟩ := lexemes_eq_scanResult source
  have length := congrArg List.length split
  simp only [List.length_append, List.length_cons, List.length_map, length_lexemes] at length
  have last : ¬before.length < tokenCount source := by
    intro inside
    have here : ((lexemes source).map Lexeme.reading)[before.length]? = some (.ok .eof) := by
      rw [← split, List.getElem?_append_right (Nat.le_refl _), Nat.sub_self]
      rfl
    rw [listed, List.map_map, List.getElem?_map, List.getElem?_range (by omega), Option.map_some,
      Option.some.injEq] at here
    have more := early _ inside
    rw [Lexeme.isLast, show (scanResult source before.length).reading = .ok .eof from here] at more
    simp at more
  exact List.eq_nil_of_length_eq_zero (by omega)

/-- At the end of a source no assignment to a constant was found. -/
theorem Seen.atEnd {source : String} {s : State} (seen : Seen source Analysis.atEnd s) :
    scanSource source = [] := by
  obtain ⟨ahead, bindings, ⟨_, current⟩, same⟩ := seen
  rw [← same]
  cases readings : s.rest with
  | nil => rfl
  | cons reading rest =>
    have atEnd : reading = .ok .eof := by simpa [State.current, readings] using current
    subst atEnd
    rw [readings] at ahead
    rw [eq_nil_of_eof_suffix ahead]
    rfl

theorem seen_ofSource (source : String) :
    Seen source (facing Analysis.globalScope .other) (.ofSource source) :=
  ⟨List.suffix_refl _, .start, ⟨⟨rfl, rfl, rfl⟩, rfl⟩, rfl⟩

/-- A source that is read to its end has no assignment to a constant, and one that is not fails as
the scan tells. -/
theorem program_exposes (source : String) (limit : Nat) :
    match Analysis.program limit (.ofSource source) with
    | .ok _ _ => scanSource source = []
    | .error fault t => FaultExposes (scanSource source) fault t.position := by
  have items : Ensures source (facing Analysis.globalScope .other)
      (Analysis.repeatUntil (Analysis.itemOrEnd limit) ()) fun _ => Analysis.atEnd :=
    .repeatUntil (fun _ => Analysis.itemOrEnd_ensures limit) ()
  have ends : Ensures source Analysis.atEnd (Analysis.expect .eof >>= Analysis.finish)
      fun _ _ _ _ => scanSource source = [] := by
    intro s seen
    have none := seen.atEnd
    have passed : Ensures source Analysis.atEnd (Analysis.expect .eof) fun _ _ _ _ =>
        scanSource source = [] :=
      .expect (fun _ _ _ holds => by cases holds.2) fun _ _ _ _ => none
    exact passed.bind (fun eof => Analysis.finish_ensures eof) s seen
  have leaves := items.bind (fun _ => ends) _ (seen_ofSource source)
  change Leaves source _ (Analysis.program limit (.ofSource source)) at leaves
  cases run : Analysis.program limit (.ofSource source) with
  | ok checked t =>
    rw [run] at leaves
    obtain ⟨_, _, none, _⟩ := leaves
    exact none
  | error fault t =>
    rw [run] at leaves
    exact leaves

end C0
