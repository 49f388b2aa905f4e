import C0.Proofs.Reading.Items

namespace C0

open Relation (ReflTransGen)

/-- How many braces and parentheses are open behind a token. -/
def Kind.depthAfter (kind : Kind) (depth : Nat) : Nat :=
  match kind with
  | .mark .openParen | .mark .openBrace => depth + 1
  | .mark .closeParen | .mark .closeBrace => depth - 1
  | _ => depth

/-- What a token names that needs an address, by the reading behind it: a function that is defined,
a global that is declared outside all braces and parentheses, a library function that is called, or
a text. -/
def Kind.entities (kind : Kind) (depth : Nat) (next : Option Reading) : List Entry :=
  match kind, next with
  | .keyword .fnWord, some (.ok (.identifier name)) => [.routine name]
  | .keyword .letWord, some (.ok (.identifier name)) => if depth = 0 then [.global name] else []
  | .keyword .constWord, some (.ok (.identifier name)) => if depth = 0 then [.global name] else []
  | .identifier name, some (.ok (.mark .openParen)) =>
    (Library.ofName? name).toList.map .library
  | .string value, _ => [.text value]
  | _, _ => []

/-- What the tokens of some readings up to the end of the source name that needs an address, in
their order. -/
def entities (depth : Nat) : List Reading → List Entry
  | [] => []
  | .error _ :: _ => []
  | .ok .eof :: _ => []
  | .ok kind :: rest => kind.entities depth rest.head? ++ entities (kind.depthAfter depth) rest

/-- A kind of token that names nothing, whatever is behind it, and opens and closes nothing. -/
def Kind.Silent (kind : Kind) : Prop :=
  kind ≠ .eof ∧ ∀ depth next, kind.entities depth next = [] ∧ kind.depthAfter depth = depth

/-- Entries that have no name of the program. -/
def Nameless (entries : List Entry) : Prop :=
  ∀ entry ∈ entries, ∀ name, entry.isNamed name = false

/-- The readings between two states name some entries, and these have got addresses. The depth is
that of the first state and that of the second. -/
structure Registers (before after : Nat) (found : List Entry) (s t : State) : Prop where
  named : entities before s.rest = found ++ entities after t.rest
  added : ∀ seen, s.directory.entries = seen.eraseDups →
    t.directory.entries = (seen ++ found).eraseDups

theorem State.Takes.globals {s t : State} {kind : Kind} (takes : s.Takes kind t) :
    t.globals = s.globals := by
  obtain ⟨_, rfl⟩ := takes
  rfl

theorem State.entities_of_takes {s t : State} {kind : Kind} (takes : s.Takes kind t)
    (more : kind ≠ .eof) (depth : Nat) :
    entities depth s.rest =
      kind.entities depth t.rest.head? ++ entities (kind.depthAfter depth) t.rest := by
  obtain ⟨current, rfl⟩ := takes
  unfold State.current at current
  cases rest : s.rest with
  | nil => simp_all
  | cons reading later =>
    rw [rest, List.head?_cons, Option.getD_some] at current
    subst current
    cases kind with
    | eof => exact absurd rfl more
    | _ => simp only [State.advanced, rest, List.tail_cons, entities]

namespace Registers

variable {before middle after depth : Nat} {found more : List Entry} {s t u : State}

theorem refl : Registers depth depth [] s s :=
  ⟨rfl, fun seen same => by simpa using same⟩

theorem trans (first : Registers before middle found s t) (second : Registers middle after more t u) :
    Registers before after (found ++ more) s u := by
  refine ⟨?_, fun seen same => ?_⟩
  · rw [first.named, second.named, List.append_assoc]
  · rw [second.added _ (first.added seen same), List.append_assoc]

/-- A token that names nothing is passed. -/
theorem take {kind : Kind} (takes : s.Takes kind t) (more : kind ≠ .eof)
    (silent : kind.entities before t.rest.head? = []) :
    Registers before (kind.depthAfter before) [] s t := by
  refine ⟨?_, fun seen same => ?_⟩
  · rw [State.entities_of_takes takes more, silent]
  · obtain ⟨_, rfl⟩ := takes
    rwa [List.append_nil]

/-- A name names nothing if it is not that of a library function or no parenthesis follows. -/
theorem name {name : String} (takes : s.Takes (.identifier name) t)
    (plain : Library.ofName? name = none ∨ t.rest.head? ≠ some (.ok (.mark .openParen))) :
    Registers depth depth [] s t := by
  refine take takes (by simp) ?_
  unfold Kind.entities
  split
  case h_4 name' same next =>
    cases Kind.identifier.inj same
    rcases plain with unknown | other
    · simp [unknown]
    · exact absurd next other
  all_goals simp_all

/-- Nothing is named where nothing is read and nothing gets an address. -/
theorem still (rest : t.rest = s.rest) (directory : t.directory = s.directory) :
    Registers depth depth [] s t :=
  ⟨by rw [rest, List.nil_append], fun seen same => by rw [directory, List.append_nil, same]⟩

end Registers

/-- An entry that gets an address is added if it is not there. -/
theorem State.entries_eraseDups_registered {s : State} {seen : List Entry} (entry : Entry)
    (same : s.directory.entries = seen.eraseDups) :
    (s.registered entry).directory.entries = (seen ++ [entry]).eraseDups := by
  rw [List.eraseDups_append]
  simp only [registered, register, Directory.register, Directory.address?]
  by_cases known : entry ∈ seen
  · have there : entry ∈ s.directory.entries := by
      rw [same]
      exact List.mem_eraseDups.mpr known
    have old : ([entry].removeAll seen).eraseDups = [] := by
      simp [List.removeAll, known]
    cases found : s.directory.entries.idxOf? entry with
    | none => exact absurd there (List.idxOf?_eq_none_iff.mp found)
    | some address => rw [old, List.append_nil, same]
  · have absent : entry ∉ s.directory.entries := by
      rw [same]
      exact fun there => known (List.mem_eraseDups.mp there)
    have new : ([entry].removeAll seen).eraseDups = [entry] := by
      simp [List.removeAll, known, List.eraseDups_cons]
    rw [List.idxOf?_eq_none_iff.mpr absent, new, same]

namespace Registers

variable {before after depth : Nat} {s t u : State}

/-- A token that names an entry is passed, and the entry gets an address. -/
theorem takeNamed {kind : Kind} {entry : Entry} {address : Nat} (takes : s.Takes kind t)
    (more : kind ≠ .eof) (named : kind.entities before t.rest.head? = [entry])
    (placed : t.register entry = (address, u)) :
    Registers before (kind.depthAfter before) [entry] s u := by
  have last : u = t.registered entry := by rw [State.registered, placed]
  have rest : u.rest = t.rest := by rw [last]; rfl
  refine ⟨?_, fun seen same => ?_⟩
  · rw [State.entities_of_takes takes more, named, rest]
  · rw [last]
    obtain ⟨_, rfl⟩ := takes
    exact State.entries_eraseDups_registered entry same

end Registers

/-- What is read between two states at some depth or deeper declares no globals, and gives addresses
to library functions and texts alone. -/
structure AddsNameless (least : Nat) (s t : State) : Prop where
  globals : t.globals = s.globals
  entries : ∃ found, Nameless found ∧ ∀ depth ≥ least, Registers depth depth found s t

theorem nameless_nil : Nameless [] := by
  simp [Nameless]

theorem nameless_append {first second : List Entry} (left : Nameless first)
    (right : Nameless second) : Nameless (first ++ second) := by
  intro entry member
  rcases List.mem_append.mp member with early | late
  · exact left entry early
  · exact right entry late

namespace AddsNameless

variable {least : Nat} {s t u v : State}

theorem refl : AddsNameless least s s :=
  ⟨rfl, [], nameless_nil, fun _ _ => .refl⟩

theorem trans (first : AddsNameless least s t) (second : AddsNameless least t u) :
    AddsNameless least s u := by
  obtain ⟨same, found, nameless, registers⟩ := first
  obtain ⟨same', more, nameless', registers'⟩ := second
  exact ⟨same'.trans same, found ++ more, nameless_append nameless nameless',
    fun depth deep => (registers depth deep).trans (registers' depth deep)⟩

theorem mono {deeper : Nat} (adds : AddsNameless least s t) (below : least ≤ deeper) :
    AddsNameless deeper s t := by
  obtain ⟨same, found, nameless, registers⟩ := adds
  exact ⟨same, found, nameless, fun depth deep => registers depth (Nat.le_trans below deep)⟩

theorem take {kind : Kind} (takes : s.Takes kind t) (silent : kind.Silent) :
    AddsNameless least s t := by
  refine ⟨takes.globals, [], nameless_nil, fun depth _ => ?_⟩
  obtain ⟨nothing, level⟩ := silent.2 depth t.rest.head?
  have passed := Registers.take takes silent.1 nothing
  rwa [level] at passed

theorem after {kind : Kind} (takes : s.Takes kind t) (silent : kind.Silent)
    (rest : AddsNameless least t u) : AddsNameless least s u :=
  (take takes silent).trans rest

theorem before {kind : Kind} (first : AddsNameless least s t) (takes : t.Takes kind u)
    (silent : kind.Silent) : AddsNameless least s u :=
  first.trans (take takes silent)

/-- What stands between parentheses or braces is one deeper. -/
theorem enclosed {inner : Nat} {opening closing : Kind} (opens : s.Takes opening t)
    (adds : AddsNameless inner t u) (closes : u.Takes closing v) (deeper : inner ≤ least + 1)
    (opened : opening = .mark .openParen ∨ opening = .mark .openBrace)
    (closed : closing = .mark .closeParen ∨ closing = .mark .closeBrace) :
    AddsNameless least s v := by
  obtain ⟨same, found, nameless, registers⟩ := adds
  refine ⟨closes.globals.trans (same.trans opens.globals), found, nameless, fun depth deep => ?_⟩
  have first : Registers depth (depth + 1) [] s t := by
    rcases opened with rfl | rfl <;> exact .take opens (by simp) rfl
  have last : Registers (depth + 1) depth [] u v := by
    rcases closed with rfl | rfl <;> exact .take closes (by simp) rfl
  have all := first.trans ((registers (depth + 1) (by omega)).trans last)
  rwa [List.nil_append, List.append_nil] at all

theorem initialized (v : Variable) : AddsNameless least s (s.initialized v) := by
  unfold State.initialized
  cases v.rank <;> exact ⟨rfl, [], nameless_nil, fun _ _ => .still rfl rfl⟩

theorem name {name : String} (takes : s.Takes (.identifier name) t)
    (plain : Library.ofName? name = none ∨ t.rest.head? ≠ some (.ok (.mark .openParen))) :
    AddsNameless least s t :=
  ⟨takes.globals, [], nameless_nil, fun _ _ => .name takes plain⟩

end AddsNameless

theorem State.head?_of_current {s : State} {kind : Kind} (current : s.current = .ok kind)
    (more : kind ≠ .eof) : s.rest.head? = some (.ok kind) := by
  unfold State.current at current
  cases rest : s.rest.head? with
  | none => simp_all
  | some reading => simpa [rest] using current

/-- A token that names an entry without a name of the program gives it an address. -/
theorem AddsNameless.register {s t u : State} {kind : Kind} {entry : Entry} {address : Nat}
    (takes : s.Takes kind t) (more : kind ≠ .eof)
    (named : ∀ depth, kind.entities depth t.rest.head? = [entry] ∧ kind.depthAfter depth = depth)
    (nameless : ∀ name, entry.isNamed name = false) (placed : t.register entry = (address, u)) :
    AddsNameless 0 s u := by
  refine ⟨?_, [entry], by simpa [Nameless] using nameless, fun depth _ => ?_⟩
  · rw [← takes.globals, ← (Prod.mk.inj placed).2]
  · have passed := Registers.takeNamed takes more (named depth).1 placed
    rwa [(named depth).2] at passed

/-- The name of a library function before a parenthesis gives it an address. -/
theorem AddsNameless.library {s t u v : State} {name : String} {function : Library} {address : Nat}
    (takes : s.Takes (.identifier name) t) (known : Library.ofName? name = some function)
    (placed : t.register (.library function) = (address, u))
    (opening : u.Takes (.mark .openParen) v) : AddsNameless 0 s u := by
  have rest : u.rest = t.rest := by
    rw [← (Prod.mk.inj placed).2]
  have next := State.head?_of_current opening.1 (by simp)
  rw [rest] at next
  exact .register takes (by simp) (fun depth => ⟨by simp [Kind.entities, next, known], rfl⟩)
    (fun _ => rfl) placed

theorem Operator.binary?_silent {kind : Kind} {op : Operator}
    (known : Operator.binary? kind = some op) : kind.Silent := by
  unfold Operator.binary? at known
  split at known <;> first
    | exact ⟨by simp, fun _ _ => ⟨rfl, rfl⟩⟩
    | simp at known

/-- Expressions give addresses to the library functions that they call and to texts. -/
theorem Reads.addsNameless {scope : Scope} {s t : State} {phrase : Phrase}
    (reads : Reads scope s phrase t) : AddsNameless 0 s t := by
  induction reads with
  | int takes | double takes | char takes =>
    exact .take takes ⟨by simp, fun _ _ => ⟨rfl, rfl⟩⟩
  | load takes current _ notCall _ =>
    refine .name takes (.inr fun next => notCall ?_)
    rw [State.current, next] at current
    exact (Except.ok.inj current).symm
  | assign takes _ _ sign _ _ ih =>
    have next := State.head?_of_current sign.1 (by simp)
    exact (AddsNameless.name takes (.inr (by simp [next]))).trans
      (.after sign ⟨by simp, fun _ _ => ⟨rfl, rfl⟩⟩ (ih.trans (.initialized _)))
  | call takes unknown _ opening _ closing _ ih =>
    exact (AddsNameless.name takes (.inl unknown)).trans
      (.enclosed opening ih closing (by omega) (.inl rfl) (.inl rfl))
  | libraryNothing takes known placed opening _ closing =>
    exact (AddsNameless.library takes known placed opening).trans
      (.enclosed opening (.refl : AddsNameless 0 _ _) closing (by omega) (.inl rfl) (.inl rfl))
  | libraryValue takes known placed opening _ _ closing ih =>
    exact (AddsNameless.library takes known placed opening).trans
      (.enclosed opening ih closing (by omega) (.inl rfl) (.inl rfl))
  | libraryText takes known placed opening _ literal stored closing =>
    have text := AddsNameless.register literal (by simp) (fun _ => ⟨rfl, rfl⟩) (fun _ => rfl) stored
    exact (AddsNameless.library takes known placed opening).trans
      (.enclosed opening text closing (by omega) (.inl rfl) (.inl rfl))
  | group opening _ closing ih => exact .enclosed opening ih closing (by omega) (.inl rfl) (.inl rfl)
  | cast _ word typed _ _ ih =>
    exact (ih.before word ⟨by simp, fun _ _ => ⟨rfl, rfl⟩⟩).before typed
      ⟨by simp, fun _ _ => ⟨rfl, rfl⟩⟩
  | negate sign _ _ ih => exact .after sign ⟨by simp, fun _ _ => ⟨rfl, rfl⟩⟩ ih
  | binary _ sign operator _ _ _ ihLeft ihRight =>
    exact ihLeft.trans (.after sign (Operator.binary?_silent operator) ihRight)
  | noArguments => exact .refl
  | lastArgument _ ih => exact ih
  | nextArgument _ comma _ _ ih ihRest =>
    exact ih.trans (.after comma ⟨by simp, fun _ _ => ⟨rfl, rfl⟩⟩ ihRest)

/-- The first word of a declaration names a global outside all braces and parentheses. -/
theorem State.entities_of_declaration {word : Keyword} {name : String} {s t u : State}
    (begins : s.Takes (.keyword word) t) (declares : word = .letWord ∨ word = .constWord)
    (named : t.Takes (.identifier name) u) (depth : Nat) :
    entities depth s.rest =
      (if depth = 0 then [.global name] else []) ++ entities depth t.rest := by
  rw [State.entities_of_takes begins (by simp), State.head?_of_current named.1 (by simp)]
  rcases declares with rfl | rfl <;> rfl

theorem Symbol.word_cases (symbol : Symbol) :
    ∃ word, symbol.word = .keyword word ∧ (word = .letWord ∨ word = .constWord) := by
  unfold Symbol.word
  cases symbol.isConst <;> simp

/-- The first word of a declaration in braces or parentheses names nothing. -/
theorem AddsNameless.word {word : Keyword} {name : String} {s t u : State}
    (begins : s.Takes (.keyword word) t) (declares : word = .letWord ∨ word = .constWord)
    (named : t.Takes (.identifier name) u) : AddsNameless 1 s t := by
  refine ⟨begins.globals, [], nameless_nil, fun depth deep => ⟨?_, fun seen same => ?_⟩⟩
  · rw [State.entities_of_declaration begins declares named, if_neg (by omega)]
  · rw [List.append_nil, begins.2]
    exact same

/-- A name and its type name nothing. -/
theorem Registers.typedName {name : String} {ty : Ty} {depth : Nat} {s t u v : State}
    (named : s.Takes (.identifier name) t) (colon : t.Takes (.mark .colon) u)
    (typed : u.Takes (.type ty) v) : Registers depth depth [] s v := by
  have next := State.head?_of_current colon.1 (by simp)
  have ofName : Registers depth depth [] s t := .name named (.inr (by simp [next]))
  have ofColon : Registers depth depth [] t u := .take colon (by simp) rfl
  have ofType : Registers depth depth [] u v := .take typed (by simp) rfl
  exact ofName.trans (ofColon.trans ofType)

theorem AddsNameless.typedName {least : Nat} {name : String} {ty : Ty} {s t u v : State}
    (named : s.Takes (.identifier name) t) (colon : t.Takes (.mark .colon) u)
    (typed : u.Takes (.type ty) v) : AddsNameless least s v :=
  ⟨typed.globals.trans (colon.globals.trans named.globals), [], nameless_nil,
    fun _ _ => .typedName named colon typed⟩

/-- A declaration in a function gives no addresses up to its type. -/
theorem Declares.addsNameless {scope : Scope} {symbol : Symbol} {s t : State}
    (declares : Declares scope symbol s t) (inside : scope.rank ≠ 0) : AddsNameless 1 s t := by
  cases declares with
  | @head t u v w x word named _ colon typed _ allocated ranked =>
    obtain ⟨first, isWord, declares⟩ := symbol.word_cases
    have begins := AddsNameless.word (isWord ▸ word) declares named
    have last : AddsNameless 1 w ((x.declared symbol).published symbol) := by
      rw [State.published, if_neg (ranked ▸ inside)]
      rw [State.allocate, if_neg inside] at allocated
      obtain ⟨_, rfl⟩ := Prod.mk.inj allocated
      exact ⟨rfl, [], nameless_nil, fun _ _ => .still rfl rfl⟩
    exact begins.trans ((AddsNameless.typedName named colon typed).trans last)

theorem ReadsDeclaration.addsNameless {scope : Scope} {symbol : Symbol} {value : Option Expr}
    {s t : State} (reads : ReadsDeclaration scope symbol s value t) (inside : scope.rank ≠ 0) :
    AddsNameless 1 s t := by
  cases reads with
  | bare declares _ ends =>
    exact (declares.addsNameless inside).before ends ⟨by simp, fun _ _ => ⟨rfl, rfl⟩⟩
  | given declares sign value _ ends =>
    have given := (value.addsNameless.trans (.initialized _)).before ends
      ⟨by simp, fun _ _ => ⟨rfl, rfl⟩⟩
    exact (declares.addsNameless inside).trans
      (.after sign ⟨by simp, fun _ _ => ⟨rfl, rfl⟩⟩ (given.mono (by omega)))

theorem AddsNameless.closed {least rank : Nat} {s t : State} (adds : AddsNameless least s t) :
    AddsNameless least s (t.closed rank) :=
  adds.trans ⟨rfl, [], nameless_nil, fun _ _ => .still rfl rfl⟩

/-- Statements in a function give addresses to library functions and texts alone. -/
theorem ReadsStmt.addsNameless {scope : Scope} {s t : State} {stmt : Stmt}
    (reads : ReadsStmt scope s stmt t) (inside : scope.rank ≠ 0) : AddsNameless 1 s t := by
  induction reads with
  | skip => exact .refl
  | seq _ _ ihFirst ihRest => exact (ihFirst inside).trans (ihRest inside)
  | empty ends => exact .take ends ⟨by simp, fun _ _ => ⟨rfl, rfl⟩⟩
  | declare reads => exact reads.addsNameless inside
  | evaluate reads ends =>
    exact (reads.addsNameless.mono (by omega)).before ends ⟨by simp, fun _ _ => ⟨rfl, rfl⟩⟩
  | block opening _ closing ih =>
    have body := ih (by simp [Scope.inner])
    exact (AddsNameless.enclosed opening body closing (by omega) (.inr rfl) (.inr rfl)).closed
  | conditional word test _ _ _ _ ih =>
    exact .after word ⟨by simp, fun _ _ => ⟨rfl, rfl⟩⟩
      ((test.addsNameless.mono (by omega)).trans (ih inside))
  | alternative word test _ _ other _ ihYes ihNo =>
    have both := (ihYes inside).trans
      (.after other ⟨by simp, fun _ _ => ⟨rfl, rfl⟩⟩ (ihNo inside))
    exact .after word ⟨by simp, fun _ _ => ⟨rfl, rfl⟩⟩
      ((test.addsNameless.mono (by omega)).trans both)
  | iteration word test _ opening _ closing ih =>
    have body := ih (by simp [Scope.innerLoop, Scope.inner])
    exact .after word ⟨by simp, fun _ _ => ⟨rfl, rfl⟩⟩ ((test.addsNameless.mono (by omega)).trans
      (AddsNameless.enclosed opening body closing (by omega) (.inr rfl) (.inr rfl)).closed)
  | leave _ word ends | again _ word ends | giveBackNothing word ends _ =>
    exact .after word ⟨by simp, fun _ _ => ⟨rfl, rfl⟩⟩ (.take ends ⟨by simp, fun _ _ => ⟨rfl, rfl⟩⟩)
  | giveBack word value _ _ ends =>
    exact .after word ⟨by simp, fun _ _ => ⟨rfl, rfl⟩⟩
      ((value.addsNameless.mono (by omega)).before ends ⟨by simp, fun _ _ => ⟨rfl, rfl⟩⟩)

theorem ReadsParam.addsNameless {before : Signature} {param : Param} {s t : State}
    (reads : ReadsParam before param s t) : AddsNameless 1 s t := by
  cases reads with
  | const _ word named colon typed =>
    exact (AddsNameless.word word (.inr rfl) named).trans (.typedName named colon typed)
  | plain _ named colon typed => exact .typedName named colon typed

theorem ReadsParams.addsNameless {before after : Signature} {s t : State}
    (reads : ReadsParams before s after t) : AddsNameless 1 s t := by
  induction reads with
  | last reads => exact reads.addsNameless
  | next reads comma _ ih =>
    exact reads.addsNameless.trans (.after comma ⟨by simp, fun _ _ => ⟨rfl, rfl⟩⟩ ih)

/-- The name of a function that is defined gets an address. -/
theorem Registers.functionName {name : String} {address : Nat} {s t u v : State}
    (word : s.Takes (.keyword .fnWord) t) (named : t.Takes (.identifier name) u)
    (free : Analysis.isTakenForFunction u.directory name = false)
    (placed : u.register (.routine name) = (address, v)) :
    Registers 0 0 [.routine name] s v := by
  have unknown : Library.ofName? name = none := by
    simp only [Analysis.isTakenForFunction, Bool.or_eq_false_iff] at free
    simpa using free.1.2
  have last : v = u.registered (.routine name) := by rw [State.registered, placed]
  have first : entities 0 s.rest = [.routine name] ++ entities 0 t.rest := by
    rw [State.entities_of_takes word (by simp), State.head?_of_current named.1 (by simp)]
    rfl
  have second := (Registers.name named (.inl unknown) : Registers 0 0 [] t u).named
  refine ⟨?_, fun seen same => ?_⟩
  · rw [first, second, last]
    rfl
  · rw [last]
    obtain ⟨⟨_, rfl⟩, ⟨_, rfl⟩⟩ := And.intro word named
    exact State.entries_eraseDups_registered _ same

/-- What is read outside all functions gives an address to one entry, and then to library functions
and texts alone. -/
def Introduces (entry : Entry) (s t : State) : Prop :=
  ∃ more, Nameless more ∧ Registers 0 0 (entry :: more) s t

theorem Registers.introduces {entry : Entry} {s t u : State} (registers : Registers 0 0 [entry] s t)
    (adds : AddsNameless 0 t u) : Introduces entry s u := by
  obtain ⟨_, more, nameless, rest⟩ := adds
  exact ⟨more, nameless, registers.trans (rest 0 (Nat.le_refl 0))⟩

theorem Introduces.trans {entry : Entry} {s t u : State} (introduces : Introduces entry s t)
    (adds : AddsNameless 0 t u) : Introduces entry s u := by
  obtain ⟨found, nameless, registers⟩ := introduces
  obtain ⟨_, more, nameless', rest⟩ := adds
  exact ⟨found ++ more, nameless_append nameless nameless',
    registers.trans (rest 0 (Nat.le_refl 0))⟩

theorem ReadsHead.introduces {s t : State} {signature : Signature}
    (reads : ReadsHead s signature t) : Introduces (.routine signature.name) s t := by
  cases reads with
  | bare word named free placed opening closing arrow typed =>
    have params : AddsNameless 0 _ _ :=
      .enclosed opening (.refl : AddsNameless 0 _ _) closing (by omega) (.inl rfl) (.inl rfl)
    exact (Registers.functionName word named free placed).introduces
      ((params.before arrow ⟨by simp, fun _ _ => ⟨rfl, rfl⟩⟩).before typed
        ⟨by simp, fun _ _ => ⟨rfl, rfl⟩⟩)
  | params word named free placed opening params closing arrow typed =>
    obtain ⟨_, name, _⟩ := params.signature
    have params : AddsNameless 0 _ _ :=
      .enclosed opening params.addsNameless closing (by omega) (.inl rfl) (.inl rfl)
    rw [name]
    exact (Registers.functionName word named free placed).introduces
      ((params.before arrow ⟨by simp, fun _ _ => ⟨rfl, rfl⟩⟩).before typed
        ⟨by simp, fun _ _ => ⟨rfl, rfl⟩⟩)

theorem ReadsFunction.introduces {definition : Definition} {s t : State}
    (reads : ReadsFunction definition s t) :
    Introduces (.routine definition.signature.name) s t := by
  cases reads with
  | @function t u v w head opening body closing =>
    have start : AddsNameless 0 t t.withoutLocals :=
      ⟨rfl, [], nameless_nil, fun _ _ => .still rfl rfl⟩
    have inside : AddsNameless 0 _ _ := .enclosed opening
      (body.addsNameless (by simp [Definition.scope])) closing (by omega) (.inr rfl) (.inr rfl)
    have last : AddsNameless 0 w ((w.closed 1).defined definition) :=
      ⟨rfl, [], nameless_nil, fun _ _ => .still rfl rfl⟩
    exact head.introduces.trans (start.trans (inside.trans last))

/-- A declaration outside functions gives an address to its global before its first value is read. -/
theorem Declares.registers {symbol : Symbol} {s t : State}
    (declares : Declares Analysis.globalScope symbol s t) :
    Registers 0 0 [.global symbol.name] s t := by
  cases declares with
  | @head t u v w x word named _ colon typed _ allocated ranked =>
    obtain ⟨first, isWord, declares⟩ := symbol.word_cases
    rw [isWord] at word
    obtain ⟨_, rfl⟩ := Prod.mk.inj allocated
    have published : (w.declared symbol).published symbol =
        { (w.declared symbol).registered (.global symbol.name) with
          globals := w.globals ++ [⟨symbol.name, symbol.isConst⟩] } := if_pos ranked
    have typedName : Registers 0 0 [] t w := .typedName named colon typed
    rw [published]
    refine ⟨?_, fun seen same => ?_⟩
    · rw [State.entities_of_declaration word declares named, typedName.named]
      rfl
    · have start : t.directory.entries = seen.eraseDups := by rwa [word.2]
      have before := typedName.added seen start
      rw [List.append_nil] at before
      exact State.entries_eraseDups_registered _ before

theorem ReadsDeclaration.introduces {symbol : Symbol} {value : Option Expr} {s t : State}
    (reads : ReadsDeclaration Analysis.globalScope symbol s value t) :
    Introduces (.global symbol.name) s t := by
  cases reads with
  | bare declares _ ends =>
    exact declares.registers.introduces (.take ends ⟨by simp, fun _ _ => ⟨rfl, rfl⟩⟩)
  | given declares sign value _ ends =>
    exact declares.registers.introduces (.after sign ⟨by simp, fun _ _ => ⟨rfl, rfl⟩⟩
      ((value.addsNameless.trans (.initialized _)).before ends
        ⟨by simp, fun _ _ => ⟨rfl, rfl⟩⟩))

/-- The name of a function is free before it. -/
theorem ReadsFunction.free {definition : Definition} {s t : State}
    (reads : ReadsFunction definition s t) :
    Analysis.isTakenForFunction s.directory definition.signature.name = false := by
  cases reads with
  | function head =>
    generalize definition.signature = signature at head
    cases head with
    | bare word named free =>
      obtain ⟨⟨_, rfl⟩, ⟨_, rfl⟩⟩ := And.intro word named
      exact free
    | params word named free _ _ params =>
      obtain ⟨⟨_, rfl⟩, ⟨_, rfl⟩⟩ := And.intro word named
      rw [params.signature.2.1]
      exact free

/-- The items of a program give addresses to what its tokens name. No function has the name of the
entry function. -/
theorem ReadsItems.registers {origin s : State} (items : ReadsItems origin s) :
    ∃ found, Registers 0 0 found origin s ∧ .routine entryName ∉ found := by
  have routine_nameless {more : List Entry} (nameless : Nameless more) :
      .routine entryName ∉ more := by
    intro member
    simpa [Entry.isNamed] using nameless _ member entryName
  induction items with
  | start => exact ⟨[], .refl, by simp⟩
  | @function t u definition _ reads ih =>
    obtain ⟨found, before, absent⟩ := ih
    obtain ⟨more, nameless, registers⟩ := reads.introduces
    have other : definition.signature.name ≠ entryName := by
      have free := reads.free
      simp only [Analysis.isTakenForFunction, Bool.or_eq_false_iff] at free
      simpa using free.1.1
    refine ⟨_, before.trans registers, ?_⟩
    simp [absent, routine_nameless nameless, other.symm]
  | @global t u symbol value _ reads ih =>
    obtain ⟨found, before, absent⟩ := ih
    obtain ⟨more, nameless, registers⟩ := reads.introduces
    have last : Registers 0 0 [] u (u.withInitializer (.declare symbol value)) := .still rfl rfl
    refine ⟨_, (before.trans registers).trans last, ?_⟩
    simp [absent, routine_nameless nameless]

end C0
