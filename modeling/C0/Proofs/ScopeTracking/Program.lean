import C0.Proofs.Mentions

namespace C0

/-- What a statement says about its names. -/
def Stmt.names (stmt : Stmt) : BodyNames :=
  ⟨stmt.declarations.map Symbol.name, stmt.places⟩

/-- What names mean in the head of a function, up to some of its parameters. -/
structure State.Heads (s : State) (signature : Signature) (lexicon : Lexicon) : Prop
    extends s.Stands lexicon where
  inHead : lexicon.inHead = true
  top : lexicon.blocks = []
  params : signature.params.map Param.name = lexicon.params
  body : lexicon.body = ⟨[], []⟩
  finished : lexicon.finished = s.definitions.map (·.body.names)
  proper : signature.name ≠ entryName
  callable : ∀ name, (s.callee? ⟨signature, 1, false⟩ name).isSome = lexicon.functions.contains name

/-- What names mean between functions and declarations of globals. -/
structure State.Between (s : State) (lexicon : Lexicon) : Prop
    extends s.Matches Analysis.globalScope lexicon where
  finished : lexicon.finished = s.definitions.map (·.body.names)

namespace State

variable {s t : State} {lexicon : Lexicon} {signature : Signature}

/-- The head of a function is read token by token. -/
theorem Heads.take {kind : Kind} (heads : s.Heads signature lexicon) (takes : s.Takes kind t) :
    t.Heads signature lexicon := by
  have stands := heads.toStands.take takes
  obtain ⟨_, rfl⟩ := takes
  exact ⟨stands, heads.inHead, heads.top, heads.params, heads.body, heads.finished, heads.proper,
    heads.callable⟩

/-- No function finds the locals of the one before. -/
theorem Heads.withoutLocals (heads : s.Heads signature lexicon) :
    s.withoutLocals.Heads signature lexicon :=
  ⟨⟨heads.entries, heads.distinct, heads.named, heads.lexical⟩, heads.inHead, heads.top,
    heads.params, heads.body, heads.finished, heads.proper, heads.callable⟩

/-- Tokens of a head that are about no name are passed by both. -/
theorem Heads.calm {kind : Kind} (heads : s.Heads signature lexicon) (takes : s.Takes kind t)
    (calm : kind.Calm) : ∃ next, t.Heads signature next ∧
      lexicon.scan s.position s.rest = next.scan t.position t.rest :=
  ⟨lexicon, heads.take takes, takes.scan_go calm.1 (calm.2 _ _ _)⟩

/-- A function can be called in its own body and after it. -/
theorem isSome_callee? (s : State) (scope : Scope) (name : String) :
    (s.callee? scope name).isSome = (decide (scope.signature.name = name ∧ name ≠ entryName) ||
      s.definitions.any (·.signature.name == name)) := by
  unfold callee?
  by_cases itself : scope.signature.name = name ∧ name ≠ entryName
  · simp [itself]
  · rw [if_neg itself, Option.isSome_map, List.isSome_find?, decide_eq_false itself, Bool.false_or]

/-- A parameter is one more name of the head. -/
theorem Heads.withParam (heads : s.Heads signature lexicon) (param : Param) :
    s.Heads (signature.withParam param)
      { lexicon with params := lexicon.params ++ [param.name] } :=
  ⟨⟨heads.entries, heads.distinct, heads.named, heads.lexical⟩, heads.inHead, heads.top,
    by simp [Signature.withParam, heads.params], heads.body, heads.finished, heads.proper,
    fun name => by
      have known := heads.callable name
      rw [isSome_callee?] at known ⊢
      exact known⟩

/-- The type that a function returns tells where its parameters begin. -/
theorem Heads.returning (heads : s.Heads signature lexicon) (ty : Ty) :
    s.Heads { signature with returnType := ty } { lexicon with returnSlots := ty.slots } :=
  ⟨⟨heads.entries, heads.distinct, heads.named, heads.lexical⟩, heads.inHead, heads.top,
    heads.params, heads.body, heads.finished, heads.proper, fun name => by
      have known := heads.callable name
      rw [isSome_callee?] at known ⊢
      exact known⟩

theorem isSome_callee?_global (s : State) (name : String) :
    (s.callee? Analysis.globalScope name).isSome =
      s.definitions.any (·.signature.name == name) := by
  have never : ¬(Analysis.globalScope.signature.name = name ∧ name ≠ entryName) :=
    fun both => both.2 both.1.symm
  rw [isSome_callee?, decide_eq_false never, Bool.false_or]

theorem Between.take {kind : Kind} (between : s.Between lexicon) (takes : s.Takes kind t) :
    t.Between lexicon := by
  have matched := between.toMatches.take takes
  obtain ⟨_, rfl⟩ := takes
  exact ⟨matched, between.finished⟩

/-- A function can call itself from its head on, and its name is no longer free. -/
theorem Between.enter {name : String} {address : Nat} (between : s.Between lexicon)
    (proper : name ≠ entryName) (registered : s.register (.routine name) = (address, t)) :
    t.Heads ⟨name, address, [], .void⟩ (lexicon.enter name) := by
  have here : t = s.registered (.routine name) := by rw [State.registered, registered]
  subst here
  have top : lexicon.blocks = [] := by
    rw [← List.length_eq_zero_iff]
    exact between.rank.symm
  refine ⟨⟨between.entries, between.distinct, fun other => ?_, between.lexical⟩, rfl, top, rfl, rfl,
    between.finished, proper, fun other => ?_⟩
  · rw [containsName_registered, between.named]
    simp only [Lexicon.isNamed, Lexicon.enter, Entry.isNamed, List.contains_append,
      List.contains_cons, List.contains_nil, Bool.or_false, Bool.beq_comm]
    exact Bool.or_right_comm _ _ _
  · have known := between.callable other
    rw [isSome_callee?_global] at known
    have same : decide (name = other ∧ other ≠ entryName) = (other == name) := by
      rw [Bool.eq_iff_iff, decide_eq_true_iff, beq_iff_eq]
      exact ⟨fun both => both.1.symm, by rintro rfl; exact ⟨rfl, proper⟩⟩
    rw [isSome_callee?, same]
    simp only [Lexicon.enter, List.contains_append, List.contains_cons, List.contains_nil,
      Bool.or_false, ← known]
    exact Bool.or_comm _ _

/-- The state at the beginning of the body of a function. -/
theorem Heads.opened (heads : s.Heads signature lexicon)
    (slots : signature.returnSlots = lexicon.returnSlots) (empty : s.frame.locals = 0) :
    s.Matches ⟨signature, 1, false⟩ lexicon.opened := by
  refine ⟨⟨?_, heads.distinct, heads.named, heads.lexical⟩, rfl, ?_, heads.params, slots, fun _ => ?_,
    heads.callable⟩
  · rw [heads.entries, heads.top]
    simp [Lexicon.opened, heads.top, blockEntries]
  · simp [Lexicon.opened, heads.top]
  · simp [Lexicon.opened, heads.body, empty]

/-- With its last block a function ends, and its body has said what it declares and mentions. -/
theorem Matches.ended {definition : Definition} (matched : s.Matches definition.scope lexicon)
    (proper : definition.signature.name ≠ entryName)
    (before : lexicon.finished = s.definitions.map (·.body.names))
    (said : lexicon.body = definition.body.names) :
    ((s.closed 1).defined definition).Between lexicon.closed := by
  have rank : lexicon.blocks.length = 1 := matched.rank.symm
  obtain ⟨block, blocks⟩ := List.length_eq_one_iff.mp rank
  have entries := matched.entries
  rw [blocks] at entries
  unfold Lexicon.closed
  rw [blocks]
  refine ⟨⟨⟨State.entries_closed entries, matched.distinct, matched.named, matched.lexical⟩,
    matched.outside, rfl, rfl, rfl, by simp, fun name => ?_⟩, ?_⟩
  · have known := matched.callable name
    have same : decide (definition.scope.signature.name = name ∧ name ≠ entryName) =
        (definition.signature.name == name) := by
      rw [Bool.eq_iff_iff, decide_eq_true_iff, beq_iff_eq]
      exact ⟨And.left, by rintro rfl; exact ⟨rfl, proper⟩⟩
    rw [isSome_callee?, same] at known
    rw [isSome_callee?_global, ← known]
    simp only [State.defined, State.closed, List.any_append, List.any_cons, List.any_nil,
      Bool.or_false]
    exact Bool.or_comm _ _
  · simp [State.defined, State.closed, before, said]

end State

namespace Analysis

variable {α : Type} {s t : State} {lexicon : Lexicon} {before : Signature}

/-- The name and the type of a parameter. -/
theorem namedParam_follows {post : α → State → Lexicon → Prop} {f : Signature → Analysis α}
    (isConst : Bool) (heads : s.Heads before lexicon)
    (rest : ∀ after t next, t.Heads after next → Follows post next t (f after t)) :
    Follows post lexicon s ((do
      let word ← expectIdentifier
      let _ ← expect (.mark .colon)
      let ty ← expectValueType
      let signature ← orFail (before.addParam ⟨word.name, isConst, ty⟩ word.site)
      f signature : Analysis α) s) := by
  rw [bind_eq]
  cases found : expectIdentifier s with
  | error fault t => exact expectIdentifier_agrees heads.toStands found
  | ok word t =>
    obtain ⟨named, site⟩ := expectIdentifier_ok_iff.mp found
    have moves : lexicon.move s.position (.identifier word.name) t.rest =
        lexicon.paramMove word.name s.position t.rest := by
      simp only [Lexicon.move, heads.inHead, if_true]
    dsimp only
    have heads := heads.take named
    generalize ran : (expect (.mark .colon) >>= _) t = result
    rcases annotation_cases heads.toStands ran with
      ⟨ty, u, v, colon, typed, proper, run⟩ | ⟨fault, u, failed, plain, untyped⟩
    · have heads := (heads.take colon).take typed
      have taken := isSome_param? before word.name
      rw [heads.params] at taken
      rw [colon.rest (by simp), typed.rest (by simp)] at moves
      simp only [Lexicon.paramMove, proper, if_false, ← taken] at moves
      have readings : t.rest = .ok (.mark .colon) :: .ok (.type ty) :: v.rest := by
        rw [colon.rest (by simp), typed.rest (by simp)]
      rw [← readings] at moves
      rw [← run, bind_eq, Signature.addParam]
      cases known : before.param? word.name with
      | some _ =>
        simp only [known, Option.isSome_some, if_true] at moves
        refine .inl ?_
        rw [named.scan (by simp), Lexicon.scan_cons_refuse moves, ← site]
      | none =>
        simp only [known, Option.isSome_none, Bool.false_eq_true, if_false] at moves
        refine .after (t := v) ?_ (rest _ v _ (heads.withParam ⟨word.name, isConst, ty⟩))
        rw [named.scan (by simp), Lexicon.scan_cons_go moves, readings, typed.position,
          colon.position, named.position]
        rfl
    · subst failed
      refine .inr ⟨plain, ?_⟩
      rw [named.scan (by simp), Lexicon.scan_cons_stop (moves.trans (Lexicon.paramMove_stop untyped))]
      simp

theorem param_follows (heads : s.Heads before lexicon) :
    Follows (Sum.elim (fun after t next => t.Heads after next) fun after t next =>
      t.Heads after next) lexicon s (param before s) := by
  have eaten : Follows (fun _ t next => t.Heads before next) lexicon s (eat (.keyword .constWord) s) :=
    .eat heads.toStands heads fun t takes =>
      ⟨lexicon, heads.take takes, takes.scan_go (by simp) (by simp [Lexicon.move, heads.inHead])⟩
  refine eaten.bind fun const t next heads => namedParam_follows const.isSome heads ?_
  intro after u next heads
  have comma : Follows (fun _ t next => t.Heads after next) next u (eat (.mark .comma) u) :=
    .eat heads.toStands heads fun t takes => heads.calm takes ⟨by simp, fun _ _ _ => rfl⟩
  refine comma.bind fun more v next heads => ?_
  cases more <;> exact ⟨next, heads, rfl⟩

theorem params_follows (heads : s.Heads before lexicon) :
    Follows (fun after t next => t.Heads after next) lexicon s (params before s) := by
  have opening : Follows (fun _ t next => t.Heads before next) lexicon s
      (expect (.mark .openParen) s) :=
    .expect heads.toStands fun t takes => heads.calm takes ⟨by simp, fun _ _ _ => rfl⟩
  refine opening.bind fun _ t next heads => ?_
  have empty : Follows (fun _ t next => t.Heads before next) next t (check (.mark .closeParen) t) :=
    .check heads.toStands heads _
  refine empty.bind fun isEmpty u next heads => ?_
  have read : Follows (fun after t next => t.Heads after next) next u
      ((if isEmpty then pure before else repeatUntil param before : Analysis Signature) u) := by
    split
    · exact ⟨next, heads, rfl⟩
    · exact .repeatUntil (fun _ _ _ (heads : State.Heads _ _ _) => heads.toStands)
        (fun _ _ _ heads => param_follows heads) heads
  refine read.bind fun after v next heads => ?_
  have closing : Follows (fun _ t next => t.Heads after next) next v
      (expect (.mark .closeParen) v) :=
    .expect heads.toStands fun t takes => heads.calm takes ⟨by simp, fun _ _ _ => rfl⟩
  exact closing.bind fun _ w next heads => ⟨next, heads, rfl⟩

/-- The type behind an arrow tells how many slots come before the parameters. -/
theorem returned_follows {signature : Signature} (heads : s.Heads signature lexicon) :
    Follows (fun after t next => t.Heads after next ∧ after.returnSlots = next.returnSlots) lexicon s
      ((do
        let _ ← expect (.mark .arrow)
        let returned ← expectType
        return { signature with returnType := returned.ty } : Analysis Signature) s) := by
  rw [bind_eq]
  cases arrow : expect (.mark .arrow) s with
  | error fault t => exact expect_agrees heads.toStands arrow
  | ok site t =>
    have takes := (expect_ok_iff.mp arrow).1
    have heads := heads.take takes
    dsimp only
    rw [bind_eq]
    cases typed : expectType t with
    | error fault u =>
      obtain ⟨blames, other⟩ := expectType_failed typed
      refine .inr ⟨heads.plain blames, ?_⟩
      have moves : lexicon.move s.position (.mark .arrow) t.rest = .stop := by
        simp only [Lexicon.move]
        split
        · rename_i readings
          exact absurd (State.current_of_rest readings) (other _)
        · rfl
      rw [takes.scan (by simp), Lexicon.scan_cons_stop moves]
      simp
    | ok returned u =>
      have type := (expectType_ok_iff.mp typed).1
      have readings := type.rest (by simp)
      have moves : lexicon.move s.position (.mark .arrow) t.rest =
          .go { lexicon with returnSlots := returned.ty.slots } 1 := by
        rw [readings]
        rfl
      refine ⟨_, ⟨(heads.take type).returning returned.ty, rfl⟩, ?_⟩
      rw [takes.scan (by simp), Lexicon.scan_cons_go moves, readings, type.position, takes.position]
      rfl

/-- The name of a function is in scope from its head on. -/
theorem functionHead_follows (between : s.Between lexicon) :
    Follows (fun signature t next => t.Heads signature next ∧
      signature.returnSlots = next.returnSlots) lexicon s (functionHead s) := by
  rw [functionHead, bind_eq]
  cases begins : expect (.keyword .fnWord) s with
  | error fault t => exact expect_agrees between.toStands begins
  | ok site t =>
    have word := (expect_ok_iff.mp begins).1
    have moves : lexicon.move s.position (.keyword .fnWord) t.rest =
        lexicon.functionMove s.position t.rest := rfl
    dsimp only
    rw [bind_eq]
    cases found : expectIdentifier t with
    | error fault u =>
      obtain ⟨blames, other⟩ := expectIdentifier_failed found
      refine .inr ⟨(between.toStands.take word).plain blames, ?_⟩
      have ends : lexicon.functionMove s.position t.rest = .stop := by
        unfold Lexicon.functionMove
        split
        · rename_i readings
          exact absurd (State.current_of_rest readings) (other _)
        · rfl
      rw [word.scan (by simp), Lexicon.scan_cons_stop (moves.trans ends)]
      simp
    | ok name u =>
      obtain ⟨named, site⟩ := expectIdentifier_ok_iff.mp found
      have readings := named.rest (by simp)
      have between := (between.take word).take named
      have taken : isTakenForFunction u.directory name.name =
          (name.name == entryName || (Library.ofName? name.name).isSome ||
            lexicon.isNamed name.name) := by
        rw [isTakenForFunction, between.named]
      rw [readings] at moves
      simp only [Lexicon.functionMove, ← taken] at moves
      rw [← readings] at moves
      change Follows _ _ _ ((refuse (isTakenForFunction u.directory name.name) _ _ >>= _) u)
      rw [bind_eq]
      -- The reader and the scan ask for the same names here.
      by_cases bad : isTakenForFunction u.directory name.name = true
      · rw [if_pos bad] at moves
        rw [refuse, if_pos bad]
        refine .inl ?_
        rw [word.scan (by simp), Lexicon.scan_cons_refuse moves, site, word.position]
      · rw [if_neg bad] at moves
        rw [refuse, if_neg bad]
        have proper : name.name ≠ entryName := by
          intro same
          simp [isTakenForFunction, same] at bad
        have heads := between.enter proper rfl
        have same : lexicon.scan s.position s.rest =
            (lexicon.enter name.name).scan u.position u.rest := by
          rw [word.scan (by simp), Lexicon.scan_cons_go moves, readings, named.position,
            word.position]
          rfl
        exact .after (t := (u.register (.routine name.name)).2) same
          ((params_follows heads).bind fun after v next heads => returned_follows heads)

/-- Between the head of a function and its end, the scan is inside it. -/
theorem function_follows (limit : Nat) (between : s.Between lexicon) :
    Follows (fun _ t next => t.Between next) lexicon s (function limit s) := by
  refine (functionHead_follows between).bind fun signature t next ⟨heads, slots⟩ => ?_
  change Follows _ next t ((block (readersBelow limit) ⟨signature, 1, false⟩ >>= _) t.withoutLocals)
  have heads := heads.withoutLocals
  have opened (u : State) (opening : t.withoutLocals.Takes (.mark .openBrace) u) :
      u.Matches ⟨signature, 1, false⟩ next.opened :=
    (heads.take opening).opened slots (congrArg Frame.locals opening.frame)
  rw [bind_eq]
  cases run : block (readersBelow limit) ⟨signature, 1, false⟩ t.withoutLocals with
  | error fault u =>
    have agrees : FaultAgrees (next.scan t.withoutLocals.position t.withoutLocals.rest).2 fault
        u.position :=
      block_failed (fun _ => readersBelow_track) Nat.one_ne_zero heads.toStands opened run
    exact agrees
  | ok result u =>
    obtain ⟨v, w, x, opening, reads, closing, _, rfl⟩ := body_reads run
    obtain ⟨last, matched, scan, finished, said⟩ := reads.passes (by simp) _ (opened v opening)
    have same : next.scan t.position t.rest = last.closed.scan x.position x.rest := by
      refine Eq.trans (opening.scan_go (by simp) rfl) (scan.trans ?_)
      exact closing.scan_go (by simp) rfl
    obtain ⟨body, closer⟩ := result
    refine .after (t := x.closed 1) same ?_
    dsimp only
    rw [get_bind_eq]
    cases made : Definition.ofBody? signature (x.closed 1).frame body with
    | none => exact faultAgrees_here _ _ rfl
    | some definition =>
      obtain ⟨rfl, _, written⟩ := ofBody?_eq_some made
      refine ⟨last.closed, (matched.take closing).ended heads.proper ?_ ?_, rfl⟩
      · have items := State.StmtStep.same_items (opening.stmtSteps (by simp)
          (reads.steps.trans (closing.stmtSteps (by simp) .refl)))
        rw [(Prod.mk.inj items).1, finished]
        exact heads.finished
      · rw [said Nat.one_ne_zero, written]
        simp [Lexicon.opened, heads.body, Stmt.names]

theorem globalDeclaration_follows (limit : Nat) (between : s.Between lexicon) :
    Follows (fun _ t next => t.Between next) lexicon s (globalDeclaration limit s) := by
  rw [globalDeclaration, bind_eq]
  have tracked := declaration_tracks (expression_tracks limit) s lexicon between.toMatches
  cases run : declaration (expression limit) globalScope s with
  | error fault t => rwa [run] at tracked
  | ok initializer t =>
    obtain ⟨symbol, value, rfl, reads⟩ := declaration_reads (fun _ _ _ _ => expression_reads) run
    obtain ⟨next, matched, scan, finished, _⟩ := reads.passes lexicon between.toMatches
    refine ⟨next, ⟨?_, ?_⟩, scan⟩
    · exact ⟨⟨matched.entries, matched.distinct, matched.named, matched.lexical⟩, matched.outside,
        matched.rank, matched.params, matched.returnSlots, matched.locals, matched.callable⟩
    · rw [finished, between.finished]
      exact congrArg _ reads.items.1.symm

theorem itemOrEnd_follows (limit : Nat) (between : s.Between lexicon) :
    Follows (Sum.elim (fun _ t next => t.Between next) fun _ t next => t.Between next) lexicon s
      (itemOrEnd limit () s) := by
  rw [itemOrEnd, bind_eq, peek_eq]
  cases current : s.current with
  | error cause => exact faultAgrees_here s lexicon (between.lexical_current current)
  | ok kind =>
    have item {m : Analysis Unit} (follows : Follows (fun _ t next => t.Between next) lexicon s (m s)) :
        Follows (Sum.elim (fun _ t next => t.Between next) fun _ t next => t.Between next) lexicon s
          ((Sum.inl <$> m : Analysis (Unit ⊕ Unit)) s) :=
      follows.bind fun _ t next between => ⟨next, between, rfl⟩
    cases kind with
    | eof => exact ⟨lexicon, between, rfl⟩
    | keyword word =>
      cases word with
      | fnWord => exact item (function_follows limit between)
      | letWord | constWord => exact item (globalDeclaration_follows limit between)
      | _ => exact faultAgrees_here s lexicon rfl
    | _ => exact faultAgrees_here s lexicon rfl

theorem scan_atEnd (current : s.current = .ok .eof) :
    lexicon.scan s.position s.rest = match lexicon.endMove s.position with
      | .refuse fault => (lexicon, some fault)
      | _ => (lexicon, none) := by
  cases readings : s.rest with
  | nil => cases ended : lexicon.endMove s.position <;> simp only [Lexicon.scan, ended]
  | cons reading rest =>
    have atEnd : reading = .ok .eof := by simpa [State.current, readings] using current
    subst atEnd
    have moves : lexicon.move s.position .eof rest = lexicon.endMove s.position := rfl
    cases known : lexicon.endMove s.position with
    | stop => exact Lexicon.scan_cons_stop (moves.trans known)
    | refuse fault => exact Lexicon.scan_cons_refuse (moves.trans known)
    | go next more =>
      unfold Lexicon.endMove at known
      split at known <;> cases known

/-- At its end a program must have a function to start with. -/
theorem scan_eof (between : s.Between lexicon) (current : s.current = .ok .eof) :
    lexicon.scan s.position s.rest = (lexicon,
      if s.definitions.any (·.signature.name == mainName) then none
      else some ⟨.notDeclared, s.position⟩) := by
  have top : lexicon.blocks = [] := by
    rw [← List.length_eq_zero_iff]
    exact between.rank.symm
  have callable := between.callable mainName
  rw [State.isSome_callee?_global] at callable
  have ends : lexicon.endMove s.position =
      if s.definitions.any (·.signature.name == mainName) then .stop
      else .refuse ⟨.notDeclared, s.position⟩ := by
    rw [Lexicon.endMove, top, between.outside, ← callable]
    cases s.definitions.any (·.signature.name == mainName) <;> rfl
  rw [scan_atEnd current, ends]
  cases s.definitions.any (·.signature.name == mainName) <;> rfl

/-- Items are followed one after another. The induction is on the turns of the loop. -/
theorem items_follow (limit : Nat) (between : s.Between lexicon) :
    Follows (fun _ t next => t.Between next) lexicon s (repeatUntil (itemOrEnd limit) () s) :=
  .repeatUntil (fun _ _ _ (between : State.Between _ _) => between.toStands)
    (fun _ _ _ between => itemOrEnd_follows limit between) between

/-- A program that is read ends without a fault of its names. What its functions say about their
names is what the scan has found. -/
theorem program_scan {limit : Nat} {checked : CheckedProgram} (between : s.Between lexicon)
    (run : program limit s = .ok checked t) : ∃ next,
      lexicon.scan s.position s.rest = (next, none) ∧
      next.finished = checked.definitions.map (·.body.names) := by
  have items := items_follow limit between
  simp only [program, finish, bind_ok_iff, expect_ok_iff, get_ok_iff] at run
  obtain ⟨_, u, read, _, v, ⟨⟨current, rfl⟩, _⟩, _, _, ⟨rfl, rfl⟩, run⟩ := run
  rw [read] at items
  obtain ⟨next, between, same⟩ := items
  cases found : u.advanced.definitions.find? (·.signature.name == mainName) with
  | none => simp [found] at run
  | some main =>
    have started : u.definitions.any (·.signature.name == mainName) = true := by
      rw [← List.isSome_find?]
      exact Option.isSome_of_eq_some found
    refine ⟨next, ?_, ?_⟩
    · rw [same, scan_eof between current, if_pos started]
    · simp only [found, bind_ok_iff, register_ok_iff, get_ok_iff, report, modify_ok_iff,
        pure_ok_iff] at run
      obtain ⟨_, w, registered, _, _, ⟨rfl, rfl⟩, _, _, _, rfl, _⟩ := run
      rw [between.finished]
      simp only [State.register, Prod.mk.injEq] at registered
      obtain ⟨_, rfl⟩ := registered
      rfl

/-- A program that is refused fails as the scan of its names says. -/
theorem program_agrees {limit : Nat} {fault : Fault Nat} (between : s.Between lexicon)
    (run : program limit s = .error fault t) :
    FaultAgrees (lexicon.scan s.position s.rest).2 fault t.position := by
  have items := items_follow limit between
  rcases bind_error_iff.mp run with failed | ⟨_, u, read, run⟩
  · rwa [failed] at items
  rw [read] at items
  obtain ⟨next, between, same⟩ := items
  rw [same]
  rcases bind_error_iff.mp run with failed | ⟨_, v, ends, run⟩
  · exact expect_agrees between.toStands failed
  obtain ⟨⟨current, rfl⟩, rfl⟩ := expect_ok_iff.mp ends
  rcases bind_error_iff.mp run with impossible | ⟨_, _, got, run⟩
  · cases impossible
  obtain ⟨rfl, rfl⟩ := get_ok_iff.mp got
  cases found : u.advanced.definitions.find? (·.signature.name == mainName) with
  | some main =>
    rw [found] at run
    cases run
  | none =>
    have missing : u.definitions.any (·.signature.name == mainName) = false := by
      rw [← List.isSome_find?]
      exact congrArg Option.isSome found
    rw [found] at run
    cases run
    exact .inl (by simp [scan_eof between current, missing])

end Analysis

end C0
