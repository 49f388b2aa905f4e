import C0.Proofs.Addresses
import C0.Proofs.ScopeTracking.Statement

namespace C0

/-- What is read between two states of a scope declares some names and takes some addresses, and a
scan of the names finds the same. -/
def Passes (scope : Scope) (names : List String) (places : List Place) (s t : State) : Prop :=
  ∀ lexicon, s.Matches scope lexicon → ∃ next, t.Matches scope next ∧
    lexicon.scan s.position s.rest = next.scan t.position t.rest ∧
    next.finished = lexicon.finished ∧
    (scope.rank ≠ 0 →
      next.body = ⟨lexicon.body.declared ++ names, lexicon.body.mentions ++ places⟩)

namespace Passes

variable {scope : Scope} {names more : List String} {places others : List Place} {s t u : State}

theorem refl : Passes scope [] [] s s :=
  fun lexicon matched => ⟨lexicon, matched, rfl, rfl, fun _ => by simp⟩

theorem trans (first : Passes scope names places s t) (second : Passes scope more others t u) :
    Passes scope (names ++ more) (places ++ others) s u := by
  intro lexicon matched
  obtain ⟨middle, matched, scan, finished, body⟩ := first lexicon matched
  obtain ⟨next, matched, scan', finished', body'⟩ := second middle matched
  refine ⟨next, matched, scan.trans scan', finished'.trans finished, fun inside => ?_⟩
  rw [body' inside, body inside, List.append_assoc, List.append_assoc]

/-- A token that says nothing of names is passed. -/
theorem take {kind : Kind} (takes : s.Takes kind t) (calm : kind.Calm) : Passes scope [] [] s t := by
  intro lexicon matched
  obtain ⟨matched, scan⟩ := calm.take takes matched
  exact ⟨lexicon, matched, scan, rfl, fun _ => by simp⟩

theorem after {kind : Kind} (takes : s.Takes kind t) (calm : kind.Calm)
    (rest : Passes scope names places t u) : Passes scope names places s u :=
  (take takes calm).trans rest

theorem before {kind : Kind} (first : Passes scope names places s t) (takes : t.Takes kind u)
    (calm : kind.Calm) : Passes scope names places s u := by
  have both := first.trans (take takes calm)
  rwa [List.append_nil, List.append_nil] at both

/-- The meaning of names does not change when nothing is read and nothing is declared. -/
theorem of_matches (same : t.position = s.position ∧ t.rest = s.rest)
    (matches' : ∀ lexicon, s.Matches scope lexicon → t.Matches scope lexicon) :
    Passes scope [] [] s t :=
  fun lexicon matched => ⟨lexicon, matches' lexicon matched, by rw [same.1, same.2], rfl,
    fun _ => by simp⟩

theorem initialized (v : Variable) : Passes scope [] [] s (s.initialized v) := by
  refine of_matches ?_ fun _ matched => matched.initialized v
  unfold State.initialized
  cases v.rank <;> exact ⟨rfl, rfl⟩

theorem register {entry : Entry} {address : Nat} (nameless : ∀ name, entry.isNamed name = false)
    (same : s.register entry = (address, t)) : Passes scope [] [] s t := by
  refine of_matches ?_ fun _ matched => matched.register nameless same
  simp only [State.register, Prod.mk.injEq] at same
  obtain ⟨_, rfl⟩ := same
  exact ⟨rfl, rfl⟩

/-- A name that is used as a variable is an address. -/
theorem address {name : String} {v : Variable} {kind : Kind} (takes : s.Takes (.identifier name) t)
    (current : t.current = .ok kind) (notCall : kind ≠ .mark .openParen)
    (found : t.variable? scope name = some v) : Passes scope [] [v.place] s t := by
  intro lexicon matched
  have place := (matched.take takes).place name
  rw [found] at place
  have next : t.rest.head?.getD (.ok .eof) = .ok kind := current
  have moves : lexicon.move s.position (.identifier name) t.rest =
      .go (lexicon.mention v.place) 0 := by
    simp only [Lexicon.move, matched.outside, Bool.false_eq_true, if_false, Lexicon.nameMove, next,
      notCall, ← place, Option.map_some]
  exact ⟨_, (matched.take takes).mention v.place, takes.scan_go (by simp) moves, rfl,
    fun _ => by simp [Lexicon.mention]⟩

/-- The name of a function that is called is no address. -/
theorem function {name : String} (takes : s.Takes (.identifier name) t)
    (current : t.current = .ok (.mark .openParen))
    (known : (Library.ofName? name).isSome ∨ (t.callee? scope name).isSome) :
    Passes scope [] [] s t := by
  intro lexicon matched
  have next : t.rest.head?.getD (.ok .eof) = .ok (.mark .openParen) := current
  have callable : ((Library.ofName? name).isSome || lexicon.functions.contains name) = true := by
    rw [← (matched.take takes).callable name, Bool.or_eq_true]
    exact known
  have moves : lexicon.move s.position (.identifier name) t.rest = .go lexicon 0 := by
    simp only [Lexicon.move, matched.outside, Bool.false_eq_true, if_false, Lexicon.nameMove, next,
      if_true, callable]
  exact ⟨lexicon, matched.take takes, takes.scan_go (by simp) moves, rfl, fun _ => by simp⟩

/-- The name of a library function is passed up to the parenthesis behind it. -/
theorem library {name : String} {function : Library} {address : Nat} {v : State}
    (takes : s.Takes (.identifier name) t) (known : Library.ofName? name = some function)
    (placed : t.register (.library function) = (address, u))
    (opening : u.Takes (.mark .openParen) v) : Passes scope [] [] s v := by
  have current : t.current = .ok (.mark .openParen) := by
    rw [← opening.1]
    simp only [State.register, Prod.mk.injEq] at placed
    obtain ⟨_, rfl⟩ := placed
    rfl
  have entry : Passes scope [] [] t u := .register (fun _ => rfl) placed
  exact (Passes.function takes current (.inl (by simp [known]))).trans
    (entry.before opening ⟨by simp, fun _ _ _ => rfl⟩)

end Passes

/-- The slots that a phrase takes the address of, in their order. -/
def Phrase.places : Phrase → List Place
  | expression e => e.places
  | arguments values => Expr.placesAll values

/-- Expressions take the addresses that a scan of their names finds. -/
theorem Reads.passes {scope : Scope} {s t : State} {phrase : Phrase}
    (reads : Reads scope s phrase t) : Passes scope [] phrase.places s t := by
  induction reads with
  | int takes => exact .take takes ⟨by simp, fun _ _ _ => rfl⟩
  | double takes => exact .take takes ⟨by simp, fun _ _ _ => rfl⟩
  | char takes => exact .take takes ⟨by simp, fun _ _ _ => rfl⟩
  | load takes current _ notCall found => exact .address takes current notCall found
  | @assign _ _ u v _ target value takes found _ sign _ _ ih =>
    have target' := Passes.address takes sign.1 (by simp) found
    have marked : Passes scope [] value.places u (v.initialized target) := by
      simpa [Phrase.places] using ih.trans (.initialized target)
    exact target'.trans (.after sign ⟨by simp, fun _ _ _ => rfl⟩ marked)
  | call takes _ found opening _ closing _ ih =>
    have name := Passes.function takes opening.1 (.inr (Option.isSome_of_eq_some found))
    exact name.trans (.after opening ⟨by simp, fun _ _ _ => rfl⟩
      (ih.before closing ⟨by simp, fun _ _ _ => rfl⟩))
  | libraryNothing takes known placed opening _ closing =>
    exact (Passes.library takes known placed opening).before closing ⟨by simp, fun _ _ _ => rfl⟩
  | libraryValue takes known placed opening _ _ closing ih =>
    have value := ih.before closing ⟨by simp, fun _ _ _ => rfl⟩
    simpa [Phrase.places, Expr.places, Expr.placesAll] using
      (Passes.library takes known placed opening).trans value
  | libraryText takes known placed opening _ literal stored closing =>
    have entry : Passes scope [] [] _ _ := .register (fun _ => rfl) stored
    exact (Passes.library takes known placed opening).trans (.after literal
      ⟨by simp, fun _ _ _ => rfl⟩ (entry.before closing ⟨by simp, fun _ _ _ => rfl⟩))
  | group opening _ closing ih =>
    exact .after opening ⟨by simp, fun _ _ _ => rfl⟩
      (ih.before closing ⟨by simp, fun _ _ _ => rfl⟩)
  | cast _ word typed _ _ ih =>
    exact (ih.before word ⟨by simp, fun _ _ _ => rfl⟩).before typed ⟨by simp, fun _ _ _ => rfl⟩
  | negate sign _ _ ih => exact .after sign ⟨by simp, fun _ _ _ => rfl⟩ ih
  | binary _ sign operator _ _ _ ihLeft ihRight =>
    exact ihLeft.trans (.after sign (Analysis.binary?_calm operator) ihRight)
  | noArguments => exact .refl
  | lastArgument _ ih => simpa [Phrase.places, Expr.placesAll] using ih
  | nextArgument _ comma _ _ ih ihRest =>
    exact ih.trans (.after comma ⟨by simp, fun _ _ _ => rfl⟩ ihRest)

/-- A declaration declares its name up to the type. A sign behind it takes the address. -/
theorem Declares.passes {scope : Scope} {symbol : Symbol} {s t : State}
    (declares : Declares scope symbol s t) :
    Passes scope [symbol.name] (if t.current = .ok (.mark .assign) then [symbol.place] else []) s
      t := by
  intro lexicon matched
  obtain ⟨after, place⟩ := matched.declare declares
  have finished : (lexicon.declare symbol.name).finished = lexicon.finished := by
    unfold Lexicon.declare
    cases lexicon.blocks <;> rfl
  have body (inside : scope.rank ≠ 0) : (lexicon.declare symbol.name).body =
      ⟨lexicon.body.declared ++ [symbol.name], lexicon.body.mentions⟩ := by
    have rank := matched.rank
    unfold Lexicon.declare
    cases blocks : lexicon.blocks with
    | nil => simp [blocks, inside] at rank
    | cons block outer => rfl
  refine ⟨_, ?_, declares.scan matched, ?_, fun inside => ?_⟩
  · split
    · exact after.mention _
    · exact after
  · split
    · exact finished
    · exact finished
  · split
    · rw [← place, Lexicon.mention, body inside]
    · rw [body inside, List.append_nil]

/-- A declaration declares its name, and takes the address of its slot before its first value. -/
theorem ReadsDeclaration.passes {scope : Scope} {symbol : Symbol} {value : Option Expr} {s t : State}
    (reads : ReadsDeclaration scope symbol s value t) :
    Passes scope [symbol.name] (Stmt.declare symbol value).places s t := by
  cases reads with
  | bare declares _ ends =>
    have head := declares.passes
    rw [if_neg (by simp [ends.1])] at head
    exact head.before ends ⟨by simp, fun _ _ _ => rfl⟩
  | @given _ u v _ value declares sign reads _ ends =>
    have head := declares.passes
    rw [if_pos sign.1] at head
    have marked : Passes scope [] value.places u (v.initialized symbol.toVariable) := by
      simpa [Phrase.places] using reads.passes.trans (.initialized symbol.toVariable)
    exact head.trans (.after sign ⟨by simp, fun _ _ _ => rfl⟩
      (marked.before ends ⟨by simp, fun _ _ _ => rfl⟩))

namespace Passes

variable {scope inner : Scope} {names : List String} {places : List Place} {s t u v : State}

/-- A block is passed with what its statements declare and take the address of. -/
theorem block (opening : s.Takes (.mark .openBrace) t) (body : Passes inner names places t u)
    (closing : u.Takes (.mark .closeBrace) v) (same : inner.signature = scope.signature)
    (deeper : inner.rank = scope.rank + 1) (inside : scope.rank ≠ 0) :
    Passes scope names places s (v.closed inner.rank) := by
  intro lexicon matched
  obtain ⟨next, matched, scan, finished, said⟩ :=
    body lexicon.opened ((matched.take opening).opened same deeper inside)
  obtain ⟨closed, sameBody, sameFinished⟩ := (matched.take closing).closed same deeper inside
  refine ⟨next.closed, closed, ?_, sameFinished.trans finished, fun _ => ?_⟩
  · rw [opening.scan_go (by simp) rfl, scan]
    exact closing.scan_go (by simp) rfl
  · rw [sameBody, said (by omega)]
    rfl

/-- A return takes the address of the first argument slot. -/
theorem giveBack (word : s.Takes (.keyword .returnWord) t) : Passes scope [] [.argument 0] s t :=
  fun lexicon matched => ⟨lexicon.mention (.argument 0), (matched.take word).mention _,
    word.scan_go (by simp) rfl, rfl, fun _ => by simp [Lexicon.mention]⟩

end Passes

/-- Statements declare the names and take the addresses that a scan of them finds. -/
theorem ReadsStmt.passes {scope : Scope} {s t : State} {stmt : Stmt}
    (reads : ReadsStmt scope s stmt t) (inside : scope.rank ≠ 0) :
    Passes scope (stmt.declarations.map Symbol.name) stmt.places s t := by
  induction reads with
  | skip => exact .refl
  | seq _ _ ihFirst ihRest =>
    rw [Stmt.declarations, List.map_append]
    exact (ihFirst inside).trans (ihRest inside)
  | empty ends => exact .take ends ⟨by simp, fun _ _ _ => rfl⟩
  | declare reads => exact reads.passes
  | evaluate reads ends => exact reads.passes.before ends ⟨by simp, fun _ _ _ => rfl⟩
  | block opening _ closing ih =>
    exact .block opening (ih (by simp [Scope.inner])) closing rfl rfl inside
  | conditional word test _ _ _ _ ih =>
    have both := test.passes.trans (ih inside)
    simpa [Stmt.declarations, Stmt.places, Phrase.places] using
      Passes.after word ⟨by simp, fun _ _ _ => rfl⟩ both
  | alternative word test _ _ other _ ihYes ihNo =>
    rw [Stmt.declarations, List.map_append, Stmt.places, List.append_assoc]
    exact .after word ⟨by simp, fun _ _ _ => rfl⟩ (test.passes.trans
      ((ihYes inside).trans (.after other ⟨by simp, fun _ _ _ => rfl⟩ (ihNo inside))))
  | @iteration scope _ _ _ _ _ _ _ _ word test _ opening _ closing ih =>
    have deep : scope.innerLoop.rank ≠ 0 := by simp [Scope.innerLoop, Scope.inner]
    exact .after word ⟨by simp, fun _ _ _ => rfl⟩
      (test.passes.trans (.block opening (ih deep) closing rfl rfl inside))
  | leave _ word ends | again _ word ends =>
    exact .after word ⟨by simp, fun _ _ _ => rfl⟩ (.take ends ⟨by simp, fun _ _ _ => rfl⟩)
  | giveBackNothing word ends _ =>
    exact (Passes.giveBack word).before ends ⟨by simp, fun _ _ _ => rfl⟩
  | giveBack word value _ _ ends =>
    exact (Passes.giveBack word).trans (value.passes.before ends ⟨by simp, fun _ _ _ => rfl⟩)

end C0
