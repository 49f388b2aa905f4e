import C0.Proofs.Assembly
import C0.Proofs.Reading.Steps
import C0.Proofs.Scanning

namespace C0

/-- At most one entry is added at a time. -/
theorem Directory.size_register (directory : Directory) (entry : Entry) :
    (directory.register entry).2.size ≤ directory.size + 1 := by
  unfold Directory.register
  cases directory.address? entry with
  | some address => exact Nat.le_succ _
  | none => simp [Directory.size]

namespace State

/-- The weight of the tokens that lie before the state. -/
def ahead (s : State) : Nat :=
  (s.rest.map weightOf).sum

/-- What was made so far, together with the weight before the state. It bounds the addresses and
the slots that are still to be given. -/
def budget (s : State) : Nat :=
  s.directory.size + s.frame.locals + s.initializers.length + s.ahead

variable {s t : State}

theorem Takes.ahead {kind : Kind} (takes : s.Takes kind t) : s.ahead = kind.weight + t.ahead := by
  obtain ⟨current, rfl⟩ := takes
  unfold State.current at current
  cases rest : s.rest with
  | nil =>
    rw [rest] at current
    cases Except.ok.inj current
    simp [State.ahead, State.advanced, rest, Kind.weight]
  | cons reading later =>
    rw [rest] at current
    simp only [List.head?_cons, Option.getD_some] at current
    simp [State.ahead, State.advanced, rest, current, weightOf]

/-- Each token takes something from the weight before the state. -/
theorem Takes.spends {kind : Kind} (takes : s.Takes kind t) (more : kind ≠ .eof) :
    t.ahead < s.ahead ∧ t.budget < s.budget := by
  have positive := Kind.weight_pos more
  have weight := takes.ahead
  obtain ⟨_, rfl⟩ := takes
  simp only [budget, advanced] at weight ⊢
  omega

theorem budget_registered (s : State) (entry : Entry) :
    (s.registered entry).budget ≤ s.budget + 1 := by
  have size := s.directory.size_register entry
  show (s.directory.register entry).2.size + s.frame.locals + s.initializers.length + s.ahead ≤ _
  unfold budget
  omega

/-- A new entry takes an address from the budget. -/
theorem spends_of_register {entry : Entry} {address : Nat}
    (same : s.register entry = (address, t)) :
    t.ahead = s.ahead ∧ t.budget ≤ s.budget + 1 := by
  obtain ⟨_, rfl⟩ := Prod.mk.inj same
  exact ⟨rfl, budget_registered s entry⟩

theorem spends_initialized (s : State) (v : Variable) :
    (s.initialized v).ahead = s.ahead ∧ (s.initialized v).budget = s.budget := by
  unfold initialized
  cases v.rank <;> exact ⟨rfl, rfl⟩

theorem spends_of_allocate {scope : Scope} {slot : Nat} (same : s.allocate scope = (slot, t)) :
    t.ahead = s.ahead ∧ t.budget ≤ s.budget + 1 := by
  unfold allocate at same
  split at same
  · cases same
    exact ⟨rfl, Nat.le_succ _⟩
  · cases same
    refine ⟨rfl, ?_⟩
    simp only [budget, State.ahead]
    omega

theorem spends_published (s : State) (symbol : Symbol) :
    (s.published symbol).ahead = s.ahead ∧ (s.published symbol).budget ≤ s.budget + 1 := by
  unfold published
  split
  · exact ⟨rfl, budget_registered s (.global symbol.name)⟩
  · exact ⟨rfl, Nat.le_succ _⟩

end State

/-- How many instructions a phrase has. -/
def Phrase.size : Phrase → Nat
  | .expression e => e.code.length
  | .arguments values => (Expr.codeAll values).length

theorem castCode_length (source target : Ty) : (castCode source target).length ≤ 1 := by
  cases source <;> cases target <;> decide

/-- An operator between two operands has at most two instructions for each of its characters. -/
theorem Operator.instructions?_length {kind : Kind} {op : Operator}
    (known : Operator.binary? kind = some op) (ty : Ty) :
    ((op.instructions? ty).getD []).length ≤ 2 * kind.weight := by
  cases kind with
  | mark mark => cases mark <;> cases known <;> cases ty <;> decide
  | _ => simp [Operator.binary?] at known

/-- A phrase has at most two instructions for each unit of weight, and each address that it takes
is paid for by a token. -/
theorem Reads.spends {scope : Scope} {s t : State} {phrase : Phrase}
    (reads : Reads scope s phrase t) :
    phrase.size + 2 * t.ahead ≤ 2 * s.ahead ∧ t.budget ≤ s.budget := by
  induction reads with
  | int takes | double takes | char takes | load takes =>
    have one := takes.spends (by simp)
    simp only [Phrase.size, Expr.code, List.length_cons, List.length_nil]
    omega
  | @assign _ _ _ v _ target value takes _ _ sign _ _ ih =>
    have one := takes.spends (by simp)
    have two := sign.spends (by simp)
    have same := v.spends_initialized target
    simp only [Phrase.size, Expr.code, storeCode, List.cons_append, List.length_cons,
      List.length_append, List.length_nil] at ih ⊢
    omega
  | call takes _ _ opening _ closing _ ih =>
    have one := takes.spends (by simp)
    have two := opening.spends (by simp)
    have three := closing.spends (by simp)
    simp only [Phrase.size, Expr.code, List.cons_append, List.length_cons, List.length_append,
      List.length_nil] at ih ⊢
    omega
  | libraryNothing takes _ known opening _ closing =>
    have one := takes.spends (by simp)
    have entry := State.spends_of_register known
    have two := opening.spends (by simp)
    have three := closing.spends (by simp)
    simp only [Phrase.size, Expr.code, Expr.codeAll, List.cons_append, List.length_cons,
      List.length_append, List.length_nil]
    omega
  | libraryValue takes _ known opening _ _ closing ih =>
    have one := takes.spends (by simp)
    have entry := State.spends_of_register known
    have two := opening.spends (by simp)
    have three := closing.spends (by simp)
    simp only [Phrase.size, Expr.code, Expr.codeAll, List.cons_append, List.length_cons,
      List.length_append, List.length_nil] at ih ⊢
    omega
  | libraryText takes _ known opening _ literal placed closing =>
    have one := takes.spends (by simp)
    have entry := State.spends_of_register known
    have two := opening.spends (by simp)
    have three := literal.spends (by simp)
    have entry' := State.spends_of_register placed
    have four := closing.spends (by simp)
    simp only [Phrase.size, Expr.code, Expr.codeAll, List.cons_append, List.length_cons,
      List.length_append, List.length_nil]
    omega
  | group opening _ closing ih =>
    have one := opening.spends (by simp)
    have two := closing.spends (by simp)
    simp only [Phrase.size, Expr.code] at ih ⊢
    omega
  | @cast _ _ _ _ operand target _ word typed _ _ ih =>
    have one := word.spends (by simp)
    have two := typed.spends (by simp)
    have short := castCode_length operand.ty target
    simp only [Phrase.size, Expr.code, List.length_append] at ih ⊢
    omega
  | @negate _ _ _ operand sign _ _ ih =>
    have one := sign.spends (by simp)
    have short : ((Operator.negate.instructions? operand.ty).getD []).length ≤ 1 := by
      cases operand.ty <;> decide
    simp only [Phrase.size, Expr.code, List.length_append] at ih ⊢
    omega
  | @binary _ _ _ _ kind op left right _ sign known _ _ _ ihLeft ihRight =>
    have one := sign.spends (by rintro rfl; simp [Operator.binary?] at known)
    have weight := sign.ahead
    have short := Operator.instructions?_length known left.ty
    simp only [Phrase.size, Expr.code, List.length_append] at ihLeft ihRight ⊢
    omega
  | noArguments => simp [Phrase.size, Expr.codeAll]
  | lastArgument _ ih => simpa [Phrase.size, Expr.codeAll] using ih
  | nextArgument _ comma _ _ ih ihRest =>
    have one := comma.spends (by simp)
    simp only [Phrase.size, Expr.codeAll, List.length_append] at ih ihRest ⊢
    omega

theorem Declares.spends {scope : Scope} {symbol : Symbol} {s t : State}
    (declares : Declares scope symbol s t) : t.ahead + 4 ≤ s.ahead ∧ t.budget + 2 ≤ s.budget := by
  cases declares with
  | @head t u v w x word named _ colon typed _ allocated =>
    have one := word.spends (by simp [Symbol.word])
    have two := named.spends (by simp)
    have three := colon.spends (by simp)
    have four := typed.spends (by simp)
    have slot := State.spends_of_allocate allocated
    have entry := (x.declared symbol).spends_published symbol
    have same : (x.declared symbol).ahead = x.ahead ∧ (x.declared symbol).budget = x.budget :=
      ⟨rfl, rfl⟩
    omega

theorem ReadsDeclaration.spends {scope : Scope} {symbol : Symbol} {s t : State}
    {value : Option Expr} (reads : ReadsDeclaration scope symbol s value t) :
    (declareCode symbol value).length + 2 * t.ahead ≤ 2 * s.ahead ∧ t.budget + 2 ≤ s.budget := by
  cases reads with
  | bare declares _ ends =>
    have head := declares.spends
    have last := ends.spends (by simp)
    simp only [declareCode, List.length_nil]
    omega
  | @given t u v w value declares sign reads _ ends =>
    have head := declares.spends
    have one := sign.spends (by simp)
    have ofValue := reads.spends
    have same := v.spends_initialized symbol.toVariable
    have last := ends.spends (by simp)
    simp only [Phrase.size] at ofValue
    simp only [declareCode, storeCode, List.cons_append, List.length_cons, List.length_append,
      List.length_nil]
    omega

theorem returnCode_length (value : Expr) :
    (returnCode (some value)).length = value.code.length + 3 := by
  simp [returnCode]

theorem evaluateCode_length (expr : Expr) :
    (evaluateCode expr).length ≤ expr.code.length + 1 := by
  rw [evaluateCode, List.length_append]
  split <;> simp

/-- A statement has at most two instructions for each unit of weight, and each address and slot
that it takes is paid for by a token. -/
theorem ReadsStmt.spends {scope : Scope} {s t : State} {stmt : Stmt}
    (reads : ReadsStmt scope s stmt t) :
    stmt.size + 2 * t.ahead ≤ 2 * s.ahead ∧ t.budget ≤ s.budget := by
  induction reads with
  | skip => simp [Stmt.size]
  | seq _ _ ihFirst ihRest =>
    simp only [Stmt.size]
    omega
  | empty ends =>
    have last := ends.spends (by simp)
    simp only [Stmt.size]
    omega
  | declare reads =>
    have head := reads.spends
    simp only [Stmt.size]
    omega
  | @evaluate _ _ _ _ e reads ends =>
    have ofValue := reads.spends
    have last := ends.spends (by simp)
    have short := evaluateCode_length e
    simp only [Phrase.size] at ofValue
    simp only [Stmt.size]
    omega
  | @block scope _ _ _ v body opening _ closing ih =>
    have one := opening.spends (by simp)
    have two := closing.spends (by simp)
    have same : (v.closed scope.inner.rank).ahead = v.ahead ∧
        (v.closed scope.inner.rank).budget = v.budget := ⟨rfl, rfl⟩
    simp only [Stmt.size]
    omega
  | conditional word test _ _ _ _ ih =>
    have one := word.spends (by simp)
    have weight : _ = 2 + _ := word.ahead
    have ofTest := test.spends
    simp only [Phrase.size] at ofTest
    simp only [Stmt.size] at ih ⊢
    omega
  | alternative word test _ _ other _ ihYes ihNo =>
    have one := word.spends (by simp)
    have weight : _ = 2 + _ := word.ahead
    have ofTest := test.spends
    have two := other.spends (by simp)
    simp only [Phrase.size] at ofTest
    simp only [Stmt.size] at ihYes ⊢
    omega
  | @iteration scope _ _ _ _ _ x _ _ word test _ opening _ closing ih =>
    have one := word.spends (by simp)
    have weight : _ = 5 + _ := word.ahead
    have ofTest := test.spends
    have two := opening.spends (by simp)
    have three := closing.spends (by simp)
    have same : (x.closed scope.innerLoop.rank).ahead = x.ahead ∧
        (x.closed scope.innerLoop.rank).budget = x.budget := ⟨rfl, rfl⟩
    simp only [Phrase.size] at ofTest
    simp only [Stmt.size]
    omega
  | leave _ word ends | again _ word ends =>
    have one := word.spends (by simp)
    have two := ends.spends (by simp)
    simp only [Stmt.size]
    omega
  | giveBackNothing word ends _ =>
    have one := word.spends (by simp)
    have two := ends.spends (by simp)
    simp only [Stmt.size, returnCode, List.length_cons, List.length_nil]
    omega
  | giveBack word reads _ _ ends =>
    have one := word.spends (by simp)
    have ofValue := reads.spends
    have two := ends.spends (by simp)
    simp only [Phrase.size] at ofValue
    simp only [Stmt.size, returnCode_length]
    omega

theorem ReadsParam.spends {before : Signature} {param : Param} {s t : State}
    (reads : ReadsParam before param s t) : t.ahead + 3 ≤ s.ahead ∧ t.budget + 3 ≤ s.budget := by
  cases reads with
  | const _ word named colon typed =>
    have one := word.spends (by simp)
    have two := named.spends (by simp)
    have three := colon.spends (by simp)
    have four := typed.spends (by simp)
    omega
  | plain _ named colon typed =>
    have one := named.spends (by simp)
    have two := colon.spends (by simp)
    have three := typed.spends (by simp)
    omega

theorem ReadsParams.spends {before after : Signature} {s t : State}
    (reads : ReadsParams before s after t) :
    after.params.length + t.ahead ≤ before.params.length + s.ahead ∧ t.budget ≤ s.budget := by
  induction reads with
  | last reads =>
    have one := reads.spends
    simp only [Signature.withParam, List.length_append, List.length_singleton]
    omega
  | next reads comma _ ih =>
    have one := reads.spends
    have two := comma.spends (by simp)
    simp only [Signature.withParam, List.length_append, List.length_singleton] at ih
    omega

theorem ReadsHead.spends {s t : State} {signature : Signature} (reads : ReadsHead s signature t) :
    signature.params.length + t.ahead < s.ahead ∧ t.budget ≤ s.budget := by
  cases reads with
  | bare word named _ known opening closing arrow typed =>
    have one := word.spends (by simp)
    have two := named.spends (by simp)
    have entry := State.spends_of_register known
    have three := opening.spends (by simp)
    have four := closing.spends (by simp)
    have five := arrow.spends (by simp)
    have six := typed.spends (by simp)
    simp only [List.length_nil]
    omega
  | params word named _ known opening params closing arrow typed =>
    have one := word.spends (by simp)
    have two := named.spends (by simp)
    have entry := State.spends_of_register known
    have three := opening.spends (by simp)
    have inside := params.spends
    have four := closing.spends (by simp)
    have five := arrow.spends (by simp)
    have six := typed.spends (by simp)
    simp only [List.length_nil] at inside ⊢
    omega

/-- A function has at most two instructions for each unit of weight, the return at its end and a
call of it included, and its parameters and slots are paid for. -/
theorem ReadsFunction.spends {definition : Definition} {s t : State}
    (reads : ReadsFunction definition s t) :
    definition.routine.code.size + 2 + 2 * t.ahead ≤ 2 * s.ahead ∧ t.budget ≤ s.budget ∧
      definition.signature.params.length < s.ahead ∧ definition.frame.locals ≤ s.budget := by
  cases reads with
  | @function t u v w head opening body closing frame =>
    have ofHead := head.spends
    have start : t.withoutLocals.ahead = t.ahead ∧ t.withoutLocals.budget ≤ t.budget := by
      refine ⟨rfl, ?_⟩
      simp only [State.budget, State.withoutLocals, State.ahead]
      omega
    have one := opening.spends (by simp)
    have ofBody := body.spends
    have two := closing.spends (by simp)
    have slots : definition.frame.locals ≤ w.budget := by
      rw [frame, State.budget]
      omega
    have last : ((w.closed 1).defined definition).ahead = w.ahead ∧
        ((w.closed 1).defined definition).budget = w.budget := ⟨rfl, rfl⟩
    have size : definition.routine.code.size ≤ definition.body.size + 1 := by
      rw [← Array.length_toList]
      rcases Routine.ofBody?_code definition.laidOut with ⟨_, code⟩ | ⟨_, code⟩ <;> simp [code]
    omega

theorem ReadsItems.budget_le {origin s : State} (items : ReadsItems origin s) :
    s.budget ≤ origin.budget := by
  induction items with
  | start => exact Nat.le_refl _
  | function _ reads ih => exact Nat.le_trans reads.spends.2.1 ih
  | @global t u symbol value _ reads ih =>
    have paid := reads.spends
    have more : (u.withInitializer (.declare symbol value)).budget = u.budget + 1 := by
      simp only [State.budget, State.withInitializer, State.ahead, List.length_append,
        List.length_singleton]
      omega
    omega

/-- Before the first token, the budget is at most the number of bytes of the source. -/
theorem State.budget_ofSource (source : String) :
    (State.ofSource source).budget ≤ source.utf8ByteSize := by
  have weighed := lexemes_weight source
  simpa [State.budget, State.ofSource, State.initial, State.ahead, Directory.size, Directory.empty]
    using weighed

end C0
