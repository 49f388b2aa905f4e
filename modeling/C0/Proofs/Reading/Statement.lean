import C0.Proofs.Reading.Expression

namespace C0

namespace State

/-- The state after a symbol was declared. -/
def declared (s : State) (symbol : Symbol) : State :=
  { s with symbols := ⟨symbol :: s.symbols.symbols⟩ }

/-- The state after a symbol was added to the program, if it is a global. -/
def published (s : State) (symbol : Symbol) : State :=
  if symbol.rank = 0 then
    { s.registered (.global symbol.name) with
      globals := s.globals ++ [⟨symbol.name, symbol.isConst⟩] }
  else s

/-- The state after a block of a rank was closed. -/
def closed (s : State) (rank : Nat) : State :=
  { s with symbols := s.symbols.dropRank rank }

end State

/-- The word that a declaration begins with. -/
def Symbol.word (symbol : Symbol) : Kind :=
  .keyword (if symbol.isConst then .constWord else .letWord)

/-- How a declaration is read up to the type, from where on its symbol is declared. -/
inductive Declares (scope : Scope) (symbol : Symbol) : State → State → Prop
  | head {s t u v w x} : s.Takes symbol.word t → t.Takes (.identifier symbol.name) u →
      u.isTaken scope symbol.name = false → u.Takes (.mark .colon) v →
      v.Takes (.type symbol.ty) w → symbol.ty ≠ .void → w.allocate scope = (symbol.slot, x) →
      symbol.rank = scope.rank → symbol.isInitialized = false →
      x.symbols.isDeclaredAt symbol.name symbol.rank = false →
      Declares scope symbol s ((x.declared symbol).published symbol)

/-- How a declaration is read as a whole. A constant must have a first value. -/
inductive ReadsDeclaration (scope : Scope) (symbol : Symbol) : State → Option Expr → State → Prop
  | bare {s t u} : Declares scope symbol s t → symbol.isConst = false →
      t.Takes (.mark .semicolon) u → ReadsDeclaration scope symbol s none u
  | given {s t u v w value} : Declares scope symbol s t → t.Takes (.mark .assign) u →
      Reads scope u (.expression value) v → value.ty = symbol.ty →
      (v.initialized symbol.toVariable).Takes (.mark .semicolon) w →
      ReadsDeclaration scope symbol s (some value) w

/-- How statements are read in a scope. -/
inductive ReadsStmt : Scope → State → Stmt → State → Prop
  | skip {scope s} : ReadsStmt scope s .skip s
  | seq {scope s t u first rest} : ReadsStmt scope s first t → ReadsStmt scope t rest u →
      ReadsStmt scope s (.seq first rest) u
  | empty {scope s t} : s.Takes (.mark .semicolon) t → ReadsStmt scope s .empty t
  | declare {scope s t symbol value} : ReadsDeclaration scope symbol s value t →
      ReadsStmt scope s (.declare symbol value) t
  | evaluate {scope s t u e} : Reads scope s (.expression e) t → t.Takes (.mark .semicolon) u →
      ReadsStmt scope s (.evaluate e) u
  | block {scope s t u v body} : s.Takes (.mark .openBrace) t → ReadsStmt scope.inner t body u →
      u.Takes (.mark .closeBrace) v → ReadsStmt scope s (.block body) (v.closed scope.inner.rank)
  | conditional {scope s t u v w test yes} : s.Takes (.keyword .ifWord) t →
      Reads scope t (.expression test) u → test.ty ≠ .void → ReadsStmt scope u (.block yes) v →
      v.current = .ok w → w ≠ .keyword .elseWord →
      ReadsStmt scope s (.conditional test (.block yes) .skip) v
  | alternative {scope s t u v w x test yes no} : s.Takes (.keyword .ifWord) t →
      Reads scope t (.expression test) u → test.ty ≠ .void → ReadsStmt scope u (.block yes) v →
      v.Takes (.keyword .elseWord) w → ReadsStmt scope w no x →
      ReadsStmt scope s (.conditional test (.block yes) no) x
  | iteration {scope s t u v w x test body} : s.Takes (.keyword .whileWord) t →
      Reads scope t (.expression test) u → test.ty ≠ .void → u.Takes (.mark .openBrace) v →
      ReadsStmt scope.innerLoop v body w → w.Takes (.mark .closeBrace) x →
      ReadsStmt scope s (.iteration test (.block body)) (x.closed scope.innerLoop.rank)
  | leave {scope s t u} : scope.inLoop = true → s.Takes (.keyword .breakWord) t →
      t.Takes (.mark .semicolon) u → ReadsStmt scope s .leave u
  | again {scope s t u} : scope.inLoop = true → s.Takes (.keyword .continueWord) t →
      t.Takes (.mark .semicolon) u → ReadsStmt scope s .again u
  | giveBackNothing {scope s t u} : s.Takes (.keyword .returnWord) t →
      t.Takes (.mark .semicolon) u → scope.signature.returnType = .void →
      ReadsStmt scope s (.giveBack none) u
  | giveBack {scope s t u v value} : s.Takes (.keyword .returnWord) t →
      Reads scope t (.expression value) u → value.ty ≠ .void →
      value.ty = scope.signature.returnType → u.Takes (.mark .semicolon) v →
      ReadsStmt scope s (.giveBack (some value)) v

namespace Analysis

variable {scope : Scope} {s t : State}

@[simp] theorem declare_ok_iff {symbol : Symbol} {site : Nat} {x : Unit} :
    declare symbol site s = .ok x t ↔
      s.symbols.isDeclaredAt symbol.name symbol.rank = false ∧ s.declared symbol = t := by
  simp only [declare, SymbolTable.declare, bind_ok_iff, get_ok_iff, orFail_ok_iff, modify_ok_iff]
  constructor
  · rintro ⟨_, _, ⟨rfl, rfl⟩, symbols, _, ⟨free, rfl⟩, rfl⟩
    split at free
    · simp at free
    · rename_i free'
      cases Except.ok.inj free
      exact ⟨by simpa using free', rfl⟩
  · rintro ⟨free, rfl⟩
    exact ⟨s, s, ⟨rfl, rfl⟩, _, s, ⟨by simp [free], rfl⟩, rfl⟩

@[simp] theorem publish_ok_iff {symbol : Symbol} {x : Unit} :
    publish symbol s = .ok x t ↔ s.published symbol = t := by
  unfold publish State.published
  split
  · simp only [bind_ok_iff, register_ok_iff, modify_ok_iff, State.registered]
    constructor
    · rintro ⟨address, u, same, rfl⟩
      simp only [same]
      simp only [State.register, Prod.mk.injEq] at same
      obtain ⟨_, rfl⟩ := same
      rfl
    · rintro rfl
      exact ⟨(s.register (.global symbol.name)).1, (s.register (.global symbol.name)).2, rfl, rfl⟩
  · simp

@[simp] theorem declarationWord_ok_iff {isConst : Bool} :
    declarationWord s = .ok isConst t ↔
      s.Takes (.keyword (if isConst then .constWord else .letWord)) t := by
  simp only [declarationWord, bind_ok_iff, next_ok_iff]
  constructor
  · rintro ⟨⟨kind, site⟩, u, ⟨takes, _⟩, run⟩
    cases kind with
    | keyword word =>
      cases word with
      | letWord | constWord =>
        obtain ⟨rfl, rfl⟩ := pure_ok_iff.mp run
        exact takes
      | _ => simp at run
    | _ => simp at run
  · intro takes
    refine ⟨⟨_, s.position⟩, t, ⟨takes, rfl⟩, ?_⟩
    cases isConst <;> simp

theorem declaredSymbol_declares {isConst : Bool} {symbol : Symbol} {u : State}
    (begins : s.Takes (.keyword (if isConst then .constWord else .letWord)) t)
    (run : declaredSymbol scope isConst t = .ok symbol u) :
    Declares scope symbol s u ∧ symbol.isConst = isConst := by
  simp only [declaredSymbol, bind_ok_iff, expectIdentifier_ok_iff, get_ok_iff, refuse_ok_iff,
    expect_ok_iff, expectValueType_ok_iff, modifyGet_ok_iff, declare_ok_iff, publish_ok_iff,
    pure_ok_iff, Bool.not_eq_true] at run
  obtain ⟨word, v, ⟨named, _⟩, _, _, ⟨rfl, rfl⟩, _, _, ⟨free, rfl⟩, _, w, ⟨colon, _⟩,
    ty, x, ⟨typed, proper⟩, slot, y, allocated, _, z, ⟨new, rfl⟩, _, _, rfl, rfl, rfl⟩ := run
  exact ⟨.head begins named free colon typed proper allocated rfl rfl new, rfl⟩

section

variable {f : Scope → Analysis Expr} {stmt : Stmt}
  (reads : ∀ scope s e t, f scope s = .ok e t → Reads scope s (.expression e) t)

include reads

theorem declaration_reads (run : declaration f scope s = .ok stmt t) :
    ∃ symbol value, stmt = .declare symbol value ∧ ReadsDeclaration scope symbol s value t := by
  simp only [declaration, initializer, initializerSign, bind_ok_iff, declarationWord_ok_iff,
    expect_ok_iff, pure_ok_iff] at run
  obtain ⟨isConst, u, begins, symbol, v, run, value, w, ⟨sign, x, signed, given⟩, _, y,
    ⟨ends, _⟩, rfl, rfl⟩ := run
  obtain ⟨declares, rfl⟩ := declaredSymbol_declares begins run
  refine ⟨symbol, value, rfl, ?_⟩
  cases sign with
  | none =>
    obtain ⟨rfl, rfl⟩ := pure_ok_iff.mp given
    cases constant : symbol.isConst with
    | true => simp [constant] at signed
    | false =>
      simp only [constant, Bool.false_eq_true, if_false, eat_none_iff] at signed
      obtain ⟨rfl, _⟩ := signed
      exact .bare declares constant ends
  | some sign =>
    have assign : v.Takes (.mark .assign) x := by
      cases constant : symbol.isConst with
      | true =>
        simp only [constant, if_true, map_ok_iff, expect_ok_iff] at signed
        obtain ⟨_, ⟨takes, _⟩, _⟩ := signed
        exact takes
      | false =>
        simp only [constant, Bool.false_eq_true, if_false, eat_some_iff] at signed
        exact signed.1
    simp only [bind_ok_iff, refuse_ok_iff, markInitialized_ok_iff, pure_ok_iff, not_not] at given
    obtain ⟨e, z, read, _, _, ⟨fits, rfl⟩, _, _, rfl, rfl, rfl⟩ := given
    exact .given declares assign (reads _ _ _ _ read) fits ends

theorem giveBack_reads (run : giveBack f scope s = .ok stmt t) : ReadsStmt scope s stmt t := by
  simp only [giveBack, returnedValue, bind_ok_iff, expect_ok_iff, check_ok_iff, pure_ok_iff] at run
  obtain ⟨_, u, ⟨begins, _⟩, value, v, ⟨isBare, _, ⟨_, rfl⟩, run⟩, _, w, ⟨ends, _⟩, rfl, rfl⟩ := run
  split at run
  · simp only [bind_ok_iff, refuse_ok_iff, pure_ok_iff, not_not] at run
    obtain ⟨_, _, ⟨nothing, rfl⟩, rfl, rfl⟩ := run
    exact .giveBackNothing begins ends nothing
  · simp only [bind_ok_iff, refuse_ok_iff, pure_ok_iff, not_or, not_not] at run
    obtain ⟨e, x, read, _, _, ⟨⟨valued, fits⟩, rfl⟩, rfl, rfl⟩ := run
    exact .giveBack begins (reads _ _ _ _ read) valued fits ends

theorem evaluation_reads (run : evaluation f scope s = .ok stmt t) : ReadsStmt scope s stmt t := by
  simp only [evaluation, bind_ok_iff, expect_ok_iff, pure_ok_iff] at run
  obtain ⟨e, u, read, _, v, ⟨ends, _⟩, rfl, rfl⟩ := run
  exact .evaluate (reads _ _ _ _ read) ends

end

theorem loopJump_reads {jump stmt : Stmt} {kind : Kind} (current : s.current = .ok kind)
    (run : loopJump scope jump s = .ok stmt t) :
    stmt = jump ∧ scope.inLoop = true ∧ ∃ u, s.Takes kind u ∧ u.Takes (.mark .semicolon) t := by
  simp only [loopJump, bind_ok_iff, next_ok_iff, refuse_ok_iff, expect_ok_iff, pure_ok_iff] at run
  obtain ⟨word, u, ⟨takes, _⟩, _, _, ⟨inside, rfl⟩, _, v, ⟨ends, _⟩, rfl, rfl⟩ := run
  exact ⟨rfl, by simpa using inside, u, ⟨current, takes.2⟩, ends⟩

/-- What a construct is read as. A block is read in its own scope. -/
def ReadsConstruct (scope : Scope) (s : State) (stmt : Stmt) (t : State) : Construct → Prop
  | .block => ∃ body u v w, stmt = .block body ∧ s.Takes (.mark .openBrace) u ∧
      ReadsStmt scope u body v ∧ v.Takes (.mark .closeBrace) w ∧ t = w.closed scope.rank
  | .conditional => ReadsStmt scope s stmt t
  | .iteration => ReadsStmt scope s stmt t

section

variable {inner : Readers} {stmt : Stmt}
  (expressions : ∀ scope s e t, inner.expression scope s = .ok e t →
    Reads scope s (.expression e) t)
  (constructs : ∀ construct scope s stmt t, inner.nested construct scope s = .ok stmt t →
    ReadsConstruct scope s stmt t construct)

include constructs in
theorem nestedBlock_reads (run : inner.nested .block scope.inner s = .ok stmt t) :
    ∃ body, stmt = .block body ∧ ReadsStmt scope s (.block body) t := by
  obtain ⟨body, u, v, w, rfl, opening, reads, closing, rfl⟩ := constructs _ _ _ _ _ run
  exact ⟨body, rfl, .block opening reads closing⟩

include expressions constructs

theorem statement_reads (run : statement inner scope s = .ok stmt t) :
    ReadsStmt scope s stmt t := by
  simp only [statement, bind_ok_iff, peek_ok_iff] at run
  obtain ⟨⟨kind, _⟩, _, ⟨current, _, rfl⟩, run⟩ := run
  cases kind with
  | keyword word =>
    cases word with
    | letWord | constWord =>
      obtain ⟨symbol, value, rfl, reads⟩ := declaration_reads expressions run
      exact .declare reads
    | ifWord => exact constructs .conditional _ _ _ _ run
    | whileWord => exact constructs .iteration _ _ _ _ run
    | returnWord => exact giveBack_reads expressions run
    | breakWord =>
      obtain ⟨rfl, inside, u, begins, ends⟩ := loopJump_reads current run
      exact .leave inside begins ends
    | continueWord =>
      obtain ⟨rfl, inside, u, begins, ends⟩ := loopJump_reads current run
      exact .again inside begins ends
    | _ => exact evaluation_reads expressions run
  | mark mark =>
    cases mark with
    | openBrace =>
      obtain ⟨body, rfl, reads⟩ := nestedBlock_reads constructs run
      exact reads
    | semicolon =>
      simp only [bind_ok_iff, advance_ok_iff, pure_ok_iff] at run
      obtain ⟨_, _, rfl, rfl, rfl⟩ := run
      exact .empty ⟨current, rfl⟩
    | _ => exact evaluation_reads expressions run
  | _ => exact evaluation_reads expressions run

/-- Statements collected the last one first are read as a sequence. -/
theorem statements_read {before : List Stmt} {body : Stmt}
    (walk : Iterates (statementOrEnd inner scope) before s body t) :
    ∃ more, body = Stmt.ofList (before.reverse ++ more) ∧ ReadsStmt scope s (Stmt.ofList more) t := by
  induction walk with
  | @done before s body t last =>
    simp only [statementOrEnd, bind_ok_iff, check_ok_iff] at last
    obtain ⟨ends, _, ⟨_, rfl⟩, last⟩ := last
    split at last
    · simp only [pure_ok_iff, Sum.inr.injEq] at last
      obtain ⟨rfl, rfl⟩ := last
      exact ⟨[], by simp, .skip⟩
    · simp at last
  | @next before s before' u body t first _ ih =>
    simp only [statementOrEnd, bind_ok_iff, check_ok_iff] at first
    obtain ⟨ends, _, ⟨_, rfl⟩, first⟩ := first
    split at first
    · simp at first
    · simp only [bind_ok_iff, pure_ok_iff, Sum.inl.injEq] at first
      obtain ⟨stmt, v, read, rfl, rfl⟩ := first
      obtain ⟨more, rfl, rest⟩ := ih
      exact ⟨stmt :: more, by simp, .seq (statement_reads expressions constructs read) rest⟩

end

section

variable {inner : Option Readers} {stmt : Stmt}
  (expressions : ∀ readers, inner = some readers → ∀ scope s e t,
    readers.expression scope s = .ok e t → Reads scope s (.expression e) t)
  (constructs : ∀ readers, inner = some readers → ∀ construct scope s stmt t,
    readers.nested construct scope s = .ok stmt t → ReadsConstruct scope s stmt t construct)

include expressions constructs

theorem block_reads {result : Stmt × Nat} (run : block inner scope s = .ok result t) :
    ∃ u v w, s.Takes (.mark .openBrace) u ∧ ReadsStmt scope u result.1 v ∧
      v.Takes (.mark .closeBrace) w ∧ result.2 = v.position ∧ t = w.closed scope.rank := by
  simp only [block, bind_ok_iff, expect_ok_iff, enter_ok_iff, modify_ok_iff, pure_ok_iff] at run
  obtain ⟨_, u, ⟨opening, _⟩, readers, _, ⟨allowed, rfl⟩, body, v, statements, closingSite, w,
    ⟨closing, rfl⟩, _, _, rfl, rfl, rfl⟩ := run
  obtain ⟨more, rfl, reads⟩ := statements_read (expressions readers allowed)
    (constructs readers allowed) (repeatUntil_iterates statements)
  exact ⟨u, v, w, opening, reads, closing, rfl, rfl⟩

theorem conditional_reads (run : conditional inner scope s = .ok stmt t) :
    ReadsStmt scope s stmt t := by
  simp only [conditional, test, alternative, bind_ok_iff, expect_ok_iff, enter_ok_iff,
    refuse_ok_iff, pure_ok_iff] at run
  obtain ⟨_, u, ⟨begins, _⟩, readers, _, ⟨allowed, rfl⟩, test, _, ⟨_, v, read, _, _, ⟨valued, rfl⟩,
    rfl, rfl⟩, yes, w, branch, no, x, ⟨site, y, eaten, run⟩, rfl, rfl⟩ := run
  have tests := expressions readers allowed _ _ _ _ read
  obtain ⟨body, rfl, holds⟩ := nestedBlock_reads (constructs readers allowed) branch
  cases site with
  | none =>
    obtain ⟨rfl, kind, current, other⟩ := eat_none_iff.mp eaten
    obtain ⟨rfl, rfl⟩ := pure_ok_iff.mp run
    exact .conditional begins tests valued holds current other
  | some site =>
    obtain ⟨otherwise, _⟩ := eat_some_iff.mp eaten
    simp only [bind_ok_iff, check_ok_iff] at run
    obtain ⟨isIf, _, ⟨_, rfl⟩, run⟩ := run
    split at run
    · exact .alternative begins tests valued holds otherwise
        (constructs readers allowed .conditional _ _ _ _ run)
    · obtain ⟨body, rfl, last⟩ := nestedBlock_reads (constructs readers allowed) run
      exact .alternative begins tests valued holds otherwise last

theorem iteration_reads (run : iteration inner scope s = .ok stmt t) :
    ReadsStmt scope s stmt t := by
  simp only [iteration, test, bind_ok_iff, expect_ok_iff, enter_ok_iff, refuse_ok_iff,
    pure_ok_iff] at run
  obtain ⟨_, u, ⟨begins, _⟩, readers, _, ⟨allowed, rfl⟩, test, _, ⟨_, v, read, _, _, ⟨valued, rfl⟩,
    rfl, rfl⟩, body, w, repeated, rfl, rfl⟩ := run
  have tests := expressions readers allowed _ _ _ _ read
  obtain ⟨body, _, _, _, rfl, opening, reads, closing, rfl⟩ :=
    constructs readers allowed _ _ _ _ _ repeated
  exact .iteration begins tests valued opening reads closing

theorem constructWith_reads {construct : Construct}
    (run : constructWith inner construct scope s = .ok stmt t) :
    ReadsConstruct scope s stmt t construct := by
  cases construct with
  | block =>
    simp only [constructWith, bind_ok_iff, pure_ok_iff] at run
    obtain ⟨result, u, run, rfl, rfl⟩ := run
    obtain ⟨u, v, w, opening, reads, closing, _, rfl⟩ := block_reads expressions constructs run
    exact ⟨result.1, u, v, w, rfl, opening, reads, closing, rfl⟩
  | conditional => exact conditional_reads expressions constructs run
  | iteration => exact iteration_reads expressions constructs run

end

/-- A construct that is read by the analysis is read so. -/
theorem nested_reads {limit : Nat} {construct : Construct} {scope : Scope} {s t : State}
    {stmt : Stmt} (run : nested limit construct scope s = .ok stmt t) :
    ReadsConstruct scope s stmt t construct := by
  induction limit generalizing construct scope s t stmt with
  | zero => exact constructWith_reads (by simp) (by simp) run
  | succ limit ih =>
    refine constructWith_reads ?_ ?_ run
    · rintro _ ⟨rfl⟩ scope s e t inside
      exact expression_reads inside
    · rintro _ ⟨rfl⟩ construct scope s stmt t inside
      exact ih inside

/-- The body of a function that is read by the analysis is read so. -/
theorem body_reads {limit : Nat} {scope : Scope} {s t : State} {result : Stmt × Nat}
    (run : block (readersBelow limit) scope s = .ok result t) :
    ∃ u v w, s.Takes (.mark .openBrace) u ∧ ReadsStmt scope u result.1 v ∧
      v.Takes (.mark .closeBrace) w ∧ result.2 = v.position ∧ t = w.closed scope.rank := by
  refine block_reads ?_ ?_ run
  · cases limit with
    | zero => simp [readersBelow]
    | succ limit =>
      rintro _ ⟨rfl⟩ scope s e t inside
      exact expression_reads inside
  · cases limit with
    | zero => simp [readersBelow]
    | succ limit =>
      rintro _ ⟨rfl⟩ construct scope s stmt t inside
      exact nested_reads inside

end Analysis

end C0
