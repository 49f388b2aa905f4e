import C0.Proofs.Likeness.Source
import C0.Proofs.Viability.Statement

namespace C0

open Analysis Pattern

section

variable {after p : Pattern}

theorem addParam_error {before : Signature} {param : Param} {site : Nat} {fault : Fault Nat}
    (failed : before.addParam param site = .error fault) : fault.cause ≠ .unexpectedToken := by
  unfold Signature.addParam at failed
  split at failed <;> cases failed
  simp

/-- The name of a parameter and its type, after the word for a constant. -/
theorem paramName_expected (before : Signature) (const : Option Nat) :
    Expects after
      (chain [token .identifier, sign .colon, token .type]
        (seq (many (inOrder [sign .comma, rule .param])) (chain [sign .closeParen] p)))
      (do
        let word ← expectIdentifier
        let _ ← expect (.mark .colon)
        let ty ← expectValueType
        let signature ← orFail (before.addParam ⟨word.name, const.isSome, ty⟩ word.site)
        match ← eat (.mark .comma) with
        | some _ => return Sum.inl signature
        | none => return Sum.inr signature)
      (Sum.elim (fun _ => chain [rule .param, many (inOrder [sign .comma, rule .param])]
        (chain [sign .closeParen] p)) fun _ => chain [sign .closeParen] p) :=
  .expectIdentifier_bind fun word => .expect_bind (by simp) fun _ =>
    expectValueType_expected.bind fun ty => .silent_bind (.orFail fun _ => addParam_error)
      fun signature => .comma_bind rfl

/-- One turn of the parameter reader: a parameter, and a comma if there are more. -/
theorem param_expected (before : Signature) :
    Expects after (chain [rule .param, many (inOrder [sign .comma, rule .param])]
        (chain [sign .closeParen] p))
      (param before)
      (Sum.elim (fun _ => chain [rule .param, many (inOrder [sign .comma, rule .param])]
        (chain [sign .closeParen] p)) fun _ => chain [sign .closeParen] p) := by
  refine fun kind => .congr (fun _ => derives_rule_seq_iff.trans derives_inOrder_seq_iff) ?_
  refine .eat_bind (fun _ site => ?_) fun other => ?_
  · exact .present rfl (.advance_bind rfl (by simp) (paramName_expected before _))
  · refine .skip ?_ (paramName_expected before none kind)
    simp [starts, nullable, word, Terminal.accepts, other]

/-- Parameters stand between parentheses, and there may be none. -/
theorem params_expected (before : Signature) :
    Expects after (chain [sign .openParen, maybe (separated (rule .param)), sign .closeParen] p)
      (params before) fun _ => p := by
  refine .expect_bind (by simp) fun opening kind => .check_bind ?_
  have closed (signature : Signature) : Expects after (chain [sign .closeParen] p)
      (expect (.mark .closeParen) >>= fun _ => pure signature) fun _ => p :=
    .expect_bind (by simp) fun _ => .pure rfl
  have listed : Expects after (chain [rule .param, many (inOrder [sign .comma, rule .param])]
      (chain [sign .closeParen] p)) (repeatUntil param before)
      fun _ => chain [sign .closeParen] p :=
    .repeatUntil param_progresses param_expected before
  by_cases same : kind = .mark .closeParen
  · subst same
    exact .skip rfl (closed before _)
  · have other : (kind == .mark .closeParen) = false := beq_eq_false_iff_ne.mpr same
    rw [other]
    refine .present ?_ (.congr (fun _ => derives_inOrder_seq_iff) ((listed kind).bind closed))
    simp [starts, nullable, chain, sign, Terminal.accepts, same]

/-- Functions are read as the grammar has them. -/
theorem function_spelled (limit : Nat) : Spells after (rule .function) (function limit) := by
  have head : Expects after (Rule.body .function) functionHead fun _ => inOrder [rule .block] :=
    .expect_bind (by simp) fun _ => .expectIdentifier_bind fun word => .silent_bind .get fun s =>
      .silent_bind (.refuse (by simp)) fun _ => .silent_bind (register_silent _) fun address =>
        (params_expected _).bind fun signature => .expect_bind (by simp) fun _ =>
          .expectType_bind fun returned => .pure rfl
  refine .rule (head.bind fun signature =>
    .silent_bind (.modifyGet fun _ => ⟨rfl, rfl⟩) fun _ => ?_)
  refine (block_spelled (readersBelow_spelled limit) (readersBelow_moves limit)).andThen.bind
    fun result => .silent_bind .get fun s => ?_
  cases Definition.ofBody? signature s.frame result.1 with
  | none => exact (Silent.fail (by simp)).expects fun _ => rfl
  | some definition =>
    exact .silent_bind (.modifyGet fun _ => ⟨rfl, rfl⟩) fun _ =>
      (Silent.modifyGet fun _ => ⟨rfl, rfl⟩).expects fun _ => rfl

theorem globalDeclaration_spelled (limit : Nat) :
    Spells after (rule .declaration) (globalDeclaration limit) :=
  (declaration_spelled (expression_spelled limit)).bind fun _ =>
    (Silent.modifyGet fun _ => ⟨rfl, rfl⟩).expects fun _ => rfl

/-- One turn of the program reader: an item, or the end of the source. -/
theorem itemOrEnd_expected (limit : Nat) (before : Unit) :
    Expects after (Rule.body .program) (itemOrEnd limit before)
      (Sum.elim (fun _ => Rule.body .program) fun _ => inOrder [token (.exactly .eof)]) := by
  have goesOn {name : Rule} {m : Analysis Unit} (spells : Spells (seq (Rule.body .program) after)
      (rule name) m) : Expects after (seq (rule name) (Rule.body .program)) (Sum.inl <$> m)
        (Sum.elim (fun _ => Rule.body .program)
          fun (_ : Unit) => inOrder [token (.exactly .eof)]) := by
    rw [map_eq_pure_bind]
    exact spells.andThen.bind fun _ => .pure rfl
  intro kind
  cases kind with
  | keyword word =>
    cases word with
    | fnWord =>
      exact .peek_bind fun site => .again rfl (.congr (fun _ => derives_either_seq_iff)
        (.first rfl (goesOn (function_spelled limit) _)))
    | letWord | constWord =>
      exact .peek_bind fun site => .again rfl (.congr (fun _ => derives_either_seq_iff)
        (.other rfl (goesOn (globalDeclaration_spelled limit) _)))
    | _ => exact .peek_stuck (fun _ => rfl) rfl
  | eof => exact .peek_bind fun site => .stop rfl (.pure rfl)
  | _ => exact .peek_stuck (fun _ => rfl) rfl

end

/-- Items are read up to the end of the source. -/
theorem items_expected (limit : Nat) :
    Expects empty (Rule.body .program) (repeatUntil (itemOrEnd limit) ())
      fun _ => inOrder [token (.exactly .eof)] :=
  .repeatUntil (itemOrEnd_progresses limit) (itemOrEnd_expected limit) ()

theorem finish_silent (eof : Nat) : Silent (finish eof) := by
  refine .bind .get fun s => ?_
  cases s.definitions.find? (·.signature.name == mainName) with
  | none => exact .fail (by simp)
  | some main =>
    exact .bind (register_silent _) fun _ => .bind .get fun _ =>
      .bind (.modifyGet fun _ => ⟨rfl, rfl⟩) fun _ => .pure _

/-- Tokens that make up a program. -/
def Sentence (kinds : List Kind) : Prop :=
  (Pattern.rule .program).Derives kinds

/-- The token at an index is the first one with which tokens do not begin a program. -/
def FirstUnexpected (kinds : List Kind) (index : Nat) : Prop :=
  ∃ before kind after, kinds = before ++ kind :: after ∧ index = before.length ∧
    (∃ more, Sentence (before ++ more)) ∧ ∀ more, ¬ Sentence (before ++ kind :: more)

theorem Ended.eq_nil {kinds : List Kind} (ended : Ended (.eof :: kinds)) : kinds = [] := by
  obtain ⟨before, same, absent⟩ := ended
  cases before with
  | nil => exact (List.cons.inj same).2
  | cons kind before =>
    cases same
    exact absurd (List.mem_cons_self ..) absent

/-- A source without a lexical error is a row of tokens with its end. -/
theorem ended_of_readings {source : String} {kinds : List Kind}
    (clean : (lexemes source).map Lexeme.reading = kinds.map .ok) : Ended kinds := by
  obtain ⟨listed, ends, early⟩ := lexemes_eq_scanResult source
  rw [listed, List.range_succ, List.map_append, List.map_append, eq_comm,
    List.map_eq_append_iff] at clean
  obtain ⟨before, last, rfl, first, final⟩ := clean
  obtain ⟨kind, rfl, reading⟩ := List.map_eq_singleton_iff.mp final
  have atEnd : kind = .eof := by
    rw [Lexeme.isLast, ← reading] at ends
    cases kind <;> simp at ends ⊢
  refine ⟨before, by rw [atEnd], fun member => ?_⟩
  have found : (.ok .eof : Reading) ∈ before.map .ok := List.mem_map_of_mem member
  rw [first, List.map_map, List.mem_map] at found
  obtain ⟨i, inside, reading⟩ := found
  have goesOn := early i (List.mem_range.mp inside)
  rw [Lexeme.isLast, show (scanResult source i).reading = _ from reading] at goesOn
  cases goesOn

/-- What a run over tokens comes to: the tokens make up a program, or the run blames the first token
with which they cannot begin one, or it fails for another cause. -/
theorem program_sentence {s : State} {kinds : List Kind} (limit : Nat) (faces : s.Faces kinds)
    (first : s.position = 0) :
    match observe (program limit) s with
    | .ok _ => Sentence kinds
    | .error fault => fault.cause = .unexpectedToken → FirstUnexpected kinds fault.site := by
  have items := (items_expected limit).meets faces
  rw [program, observe_bind]
  generalize observe (repeatUntil (itemOrEnd limit) ()) s = result at items
  rw [first] at items
  cases items with
  | other elsewhere => exact fun unexpected => absurd unexpected elsewhere
  | @stuck site read kind left split place viable blocked =>
    rintro -
    obtain ⟨more, derived⟩ := viable
    refine ⟨read, kind, left, split, by simpa using place, ⟨more, .rule derived⟩,
      fun more derived => ?_⟩
    exact blocked more (derives_seq_empty_iff.mpr (derives_rule_iff.mp derived))
  | @ok _ t read left split faces place sound complete =>
    -- The items that were read are a program already, so only the end can be missing.
    have whole : Sentence (read ++ [.eof]) := .rule (sound [.eof] (.seq (.token rfl) .empty))
    obtain ⟨kind, more, rfl⟩ := faces.exists_cons
    have last : observe (expect .eof) t = if kind = .eof then .ok (t.position, t.advanced)
        else .error ⟨.unexpectedToken, t.position⟩ := by
      unfold observe
      rw [expect_eq, faces.current]
      by_cases same : kind = .eof <;> simp [same]
    rw [ok_bind, observe_bind, last]
    by_cases same : kind = .eof
    · subst same
      have alone := faces.2.eq_nil
      subst alone
      rw [if_pos rfl, ok_bind]
      have quiet := finish_silent t.position t.advanced
      generalize observe (finish t.position) t.advanced = result at quiet
      cases result with
      | ok r =>
        rw [split]
        exact whole
      | error fault => exact fun unexpected => absurd unexpected quiet
    -- Something else comes, with which the items would have gone on if a program could.
    · rw [if_neg same]
      rintro -
      refine ⟨read, kind, more, split, by simpa using place, ⟨_, whole⟩, fun more derived => ?_⟩
      have left := complete (kind :: more) rfl
        (derives_seq_empty_iff.mpr (derives_rule_iff.mp derived))
      refine not_derives_of_starts ?_ left
      simpa [starts, nullable, inOrder, chain, Terminal.accepts] using same

/-- Only sentences of the grammar are compiled, and a token is called unexpected just where it is
the first one with which the tokens of the source do not begin a sentence. -/
theorem compile_sentence (source : String) (options : Options) (kinds : List Kind)
    (clean : (lexemes source).map Lexeme.reading = kinds.map .ok) :
    (∀ program, compile source options = .ok program → Sentence kinds) ∧
      ∀ span, compile source options = .error ⟨.unexpectedToken, span⟩ →
        ∃ index, FirstUnexpected kinds index ∧ span = (scanResult source index).span := by
  have faces : (State.ofSource source).Faces kinds := ⟨clean, ended_of_readings clean⟩
  have outcome := program_sentence options.maxNestingDepth faces rfl
  rw [compile, analyze_eq]
  cases ran : program options.maxNestingDepth (.ofSource source) with
  | ok checked t =>
    rw [observe_ok_iff.mpr ran] at outcome
    exact ⟨fun _ _ => outcome, fun span failed => by simp [Except.map] at failed⟩
  | error fault t =>
    rw [observe_error_iff.mpr ⟨t, ran⟩] at outcome
    refine ⟨fun program compiled => by simp [Except.map] at compiled, fun span failed => ?_⟩
    have same : fault.mapSite (spanAt (lexemes source)) = ⟨.unexpectedToken, span⟩ :=
      Except.error.inj failed
    refine ⟨fault.site, outcome (congrArg Fault.cause same), ?_⟩
    rw [← spanAt_lexemes (program_fault_site ran).1]
    exact (congrArg Fault.site same).symm

/-- An expression cannot begin with a semicolon. -/
theorem compile_sentence_missing :
    let source := "let x: int = ; fn main"
    let kinds : List Kind := [.keyword .letWord, .identifier "x", .mark .colon, .type .int,
      .mark .assign, .mark .semicolon, .keyword .fnWord, .identifier "main", .eof]
    (lexemes source).map Lexeme.reading = kinds.map .ok ∧
    compile source {} = .error ⟨.unexpectedToken, ⟨13, 14⟩⟩ ∧
    ∃ index, FirstUnexpected kinds index ∧ ⟨13, 14⟩ = (scanResult source index).span := by
  intro source kinds
  have clean : (lexemes source).map Lexeme.reading = kinds.map .ok := by decide +kernel
  have computed : (match compile source {} with
      | .error fault => fault == ⟨.unexpectedToken, ⟨13, 14⟩⟩
      | .ok _ => false) = true := by decide +kernel
  have failed : compile source {} = .error ⟨.unexpectedToken, ⟨13, 14⟩⟩ := by
    cases compiled : compile source {} with
    | ok program => simp [compiled] at computed
    | error fault =>
      rw [compiled] at computed
      rw [eq_of_beq computed]
  exact ⟨clean, failed, (compile_sentence source {} kinds clean).2 _ failed⟩

end C0
