import C0.Compile
import C0.Proofs.Reading.Statement

namespace C0

/-- Adds a parameter to a signature. -/
def Signature.withParam (signature : Signature) (param : Param) : Signature :=
  { signature with params := signature.params ++ [param] }

/-- How one parameter is read. Its name must be free. -/
inductive ReadsParam (before : Signature) (param : Param) : State → State → Prop
  | const {s t u v w} : param.isConst = true → s.Takes (.keyword .constWord) t →
      t.Takes (.identifier param.name) u → u.Takes (.mark .colon) v → v.Takes (.type param.ty) w →
      param.ty ≠ .void → before.param? param.name = none → ReadsParam before param s w
  | plain {s t u v} : param.isConst = false → s.Takes (.identifier param.name) t →
      t.Takes (.mark .colon) u → u.Takes (.type param.ty) v → param.ty ≠ .void →
      before.param? param.name = none → ReadsParam before param s v

/-- How at least one parameter is read, with commas between them. -/
inductive ReadsParams : Signature → State → Signature → State → Prop
  | last {before s param t} : ReadsParam before param s t →
      ReadsParams before s (before.withParam param) t
  | next {before s param t u after v} : ReadsParam before param s t → t.Takes (.mark .comma) u →
      ReadsParams (before.withParam param) u after v → ReadsParams before s after v

/-- How the head of a function is read. Its name gets an address before its parameters are read. -/
inductive ReadsHead : State → Signature → State → Prop
  | bare {s t u v w x y z name address ty} : s.Takes (.keyword .fnWord) t →
      t.Takes (.identifier name) u → Analysis.isTakenForFunction u.directory name = false →
      u.register (.routine name) = (address, v) → v.Takes (.mark .openParen) w →
      w.Takes (.mark .closeParen) x → x.Takes (.mark .arrow) y → y.Takes (.type ty) z →
      ReadsHead s ⟨name, address, [], ty⟩ z
  | params {s t u v w x y z a name address signature ty} : s.Takes (.keyword .fnWord) t →
      t.Takes (.identifier name) u → Analysis.isTakenForFunction u.directory name = false →
      u.register (.routine name) = (address, v) → v.Takes (.mark .openParen) w →
      ReadsParams ⟨name, address, [], .void⟩ w signature x → x.Takes (.mark .closeParen) y →
      y.Takes (.mark .arrow) z → z.Takes (.type ty) a →
      ReadsHead s { signature with returnType := ty } a

/-- The state at the start of the body of a function, which has no local slots yet. -/
def State.withoutLocals (s : State) : State :=
  { s with frame := ⟨0⟩ }

/-- The state after a function was added to the program. -/
def State.defined (s : State) (definition : Definition) : State :=
  { s with
    log := s.log ++ [.compiled definition.routine]
    definitions := s.definitions ++ [definition] }

/-- The scope of the body of a function. -/
def Definition.scope (definition : Definition) : Scope :=
  ⟨definition.signature, 1, false⟩

/-- How a function is read. What its body declares ends with it. -/
inductive ReadsFunction (definition : Definition) : State → State → Prop
  | function {s t u v w} : ReadsHead s definition.signature t →
      t.withoutLocals.Takes (.mark .openBrace) u → ReadsStmt definition.scope u definition.body v →
      v.Takes (.mark .closeBrace) w → definition.frame = w.frame →
      ReadsFunction definition s ((w.closed 1).defined definition)

/-- The state after the declaration of a global. -/
def State.withInitializer (s : State) (initializer : Stmt) : State :=
  { s with initializers := s.initializers ++ [initializer] }

/-- The states that are reached from one at the ends of functions and declarations. -/
inductive ReadsItems (s : State) : State → Prop
  | start : ReadsItems s s
  | function {t u definition} : ReadsItems s t → ReadsFunction definition t u → ReadsItems s u
  | global {t u symbol value} : ReadsItems s t →
      ReadsDeclaration Analysis.globalScope symbol t value u →
      ReadsItems s (u.withInitializer (.declare symbol value))

namespace Analysis

variable {s t : State}

theorem addParam_ok {before after : Signature} {param : Param} {site : Nat}
    (run : before.addParam param site = .ok after) :
    before.param? param.name = none ∧ after = before.withParam param := by
  unfold Signature.addParam at run
  cases found : before.param? param.name with
  | some _ => simp [found] at run
  | none =>
    simp only [found] at run
    exact ⟨rfl, (Except.ok.inj run).symm⟩

theorem param_reads {before : Signature} {result : Signature ⊕ Signature}
    (run : param before s = .ok result t) :
    ∃ param u, ReadsParam before param s u ∧
      (result = .inl (before.withParam param) ∧ u.Takes (.mark .comma) t ∨
        result = .inr (before.withParam param) ∧ u = t) := by
  simp only [param, bind_ok_iff, expectIdentifier_ok_iff, expect_ok_iff, expectValueType_ok_iff,
    orFail_ok_iff] at run
  obtain ⟨const, u, marked, word, v, ⟨named, _⟩, _, w, ⟨colon, _⟩, ty, x, ⟨typed, proper⟩,
    after, _, ⟨added, rfl⟩, comma, y, eaten, run⟩ := run
  obtain ⟨free, rfl⟩ := addParam_ok added
  refine ⟨⟨word.name, const.isSome, ty⟩, x, ?_, ?_⟩
  · cases const with
    | some site => exact .const rfl (eat_some_iff.mp marked).1 named colon typed proper free
    | none =>
      obtain ⟨rfl, _⟩ := eat_none_iff.mp marked
      exact .plain rfl named colon typed proper free
  · cases comma with
    | some site =>
      obtain ⟨rfl, rfl⟩ := pure_ok_iff.mp run
      exact .inl ⟨rfl, (eat_some_iff.mp eaten).1⟩
    | none =>
      obtain ⟨rfl, rfl⟩ := pure_ok_iff.mp run
      exact .inr ⟨rfl, (eat_none_iff.mp eaten).1⟩

theorem params_loop_reads {before after : Signature} (walk : Iterates param before s after t) :
    ReadsParams before s after t := by
  induction walk with
  | done last =>
    obtain ⟨param, u, reads, ⟨same, _⟩ | ⟨same, rfl⟩⟩ := param_reads last
    · simp at same
    · cases Sum.inr.inj same
      exact .last reads
  | next first _ ih =>
    obtain ⟨param, u, reads, ⟨same, comma⟩ | ⟨same, _⟩⟩ := param_reads first
    · cases Sum.inl.inj same
      exact .next reads comma ih
    · simp at same

theorem functionHead_reads {signature : Signature} (run : functionHead s = .ok signature t) :
    ReadsHead s signature t := by
  simp only [functionHead, params, bind_ok_iff, expect_ok_iff, expectIdentifier_ok_iff, get_ok_iff,
    refuse_ok_iff, register_ok_iff, check_ok_iff, expectType_ok_iff, pure_ok_iff,
    Bool.not_eq_true] at run
  obtain ⟨_, u, ⟨begins, _⟩, word, v, ⟨named, _⟩, _, _, ⟨rfl, rfl⟩, _, _, ⟨free, rfl⟩, address, w,
    registered, signature', x, ⟨_, y, ⟨opening, _⟩, isEmpty, _, ⟨_, rfl⟩, found, z, run, _, a,
    ⟨closing, _⟩, rfl, rfl⟩, _, b, ⟨arrow, _⟩, returned, c, ⟨typed, _⟩, rfl, rfl⟩ := run
  split at run
  · obtain ⟨rfl, rfl⟩ := pure_ok_iff.mp run
    exact .bare begins named free registered opening closing arrow typed
  · exact .params begins named free registered opening
      (params_loop_reads (repeatUntil_iterates run)) closing arrow typed

theorem ofBody?_eq_some {signature : Signature} {frame : Frame} {body : Stmt}
    {definition : Definition} (made : Definition.ofBody? signature frame body = some definition) :
    definition.signature = signature ∧ definition.frame = frame ∧ definition.body = body := by
  unfold Definition.ofBody? at made
  split at made
  · cases Option.some.inj made
    exact ⟨rfl, rfl, rfl⟩
  · simp at made

theorem function_reads {limit : Nat} {x : Unit} (run : function limit s = .ok x t) :
    ∃ definition, ReadsFunction definition s t := by
  simp only [function, bind_ok_iff, modify_ok_iff, get_ok_iff] at run
  obtain ⟨signature, u, head, _, _, rfl, ⟨body, closing⟩, v, run, _, _, ⟨rfl, rfl⟩, laid⟩ := run
  obtain ⟨w, x, y, opening, reads, ends, _, rfl⟩ := body_reads run
  cases made : Definition.ofBody? signature y.frame body with
  | none => simp [State.closed, made] at laid
  | some definition =>
    obtain ⟨rfl, sameFrame, rfl⟩ := ofBody?_eq_some made
    simp only [State.closed, made, report, addDefinition, bind_ok_iff, modify_ok_iff] at laid
    obtain ⟨_, _, rfl, rfl⟩ := laid
    exact ⟨definition, .function (functionHead_reads head) opening reads ends sameFrame⟩

theorem globalDeclaration_reads {limit : Nat} {x : Unit}
    (run : globalDeclaration limit s = .ok x t) :
    ∃ symbol value u, ReadsDeclaration globalScope symbol s value u ∧
      t = u.withInitializer (.declare symbol value) := by
  simp only [globalDeclaration, bind_ok_iff, modify_ok_iff] at run
  obtain ⟨initializer, u, run, rfl⟩ := run
  obtain ⟨symbol, value, rfl, reads⟩ := declaration_reads (fun _ _ _ _ => expression_reads) run
  exact ⟨symbol, value, u, reads, rfl⟩

/-- A function or a declaration that is read leads to the next item. -/
theorem itemOrEnd_reads {limit : Nat} {before after : Unit} {origin : State}
    (run : itemOrEnd limit before s = .ok (.inl after) t) (reached : ReadsItems origin s) :
    ReadsItems origin t := by
  simp only [itemOrEnd, bind_ok_iff, peek_ok_iff] at run
  obtain ⟨⟨kind, _⟩, _, ⟨_, _, rfl⟩, run⟩ := run
  cases kind with
  | keyword word =>
    cases word with
    | fnWord =>
      obtain ⟨_, run, _⟩ := map_ok_iff.mp run
      obtain ⟨definition, reads⟩ := function_reads run
      exact .function reached reads
    | letWord | constWord =>
      obtain ⟨_, run, _⟩ := map_ok_iff.mp run
      obtain ⟨symbol, value, u, reads, rfl⟩ := globalDeclaration_reads run
      exact .global reached reads
    | _ => simp at run
  | _ => simp at run

/-- The items that the analysis reads lead from the start of the program to its end. -/
theorem items_read {limit : Nat} {before after : Unit} {origin : State}
    (walk : Iterates (itemOrEnd limit) before s after t) (reached : ReadsItems origin s) :
    ReadsItems origin t := by
  induction walk with
  | done last =>
    simp only [itemOrEnd, bind_ok_iff, peek_ok_iff] at last
    obtain ⟨⟨kind, _⟩, _, ⟨_, _, rfl⟩, last⟩ := last
    cases kind with
    | eof =>
      obtain ⟨_, rfl⟩ := pure_ok_iff.mp last
      exact reached
    | keyword word => cases word <;> simp at last
    | _ => simp at last
  | next first _ ih => exact ih (itemOrEnd_reads first reached)

/-- The checked program that is made of a state at the end of a program. -/
def checkedAt (s : State) (main : Signature) : CheckedProgram :=
  ⟨(s.registered (.routine entryName)).directory, s.globals, s.definitions, s.initializers, main,
    (s.register (.routine entryName)).1⟩

theorem program_reads {limit : Nat} {checked : CheckedProgram}
    (run : program limit s = .ok checked t) :
    ∃ u v main, ReadsItems s u ∧ u.Takes .eof v ∧
      v.definitions.find? (·.signature.name == mainName) = some main ∧
      checked = checkedAt v main.signature := by
  simp only [program, finish, bind_ok_iff, expect_ok_iff, get_ok_iff] at run
  obtain ⟨_, u, items, _, v, ⟨ends, _⟩, _, _, ⟨rfl, rfl⟩, run⟩ := run
  cases found : v.definitions.find? (·.signature.name == mainName) with
  | none => simp [found] at run
  | some main =>
    simp only [found, bind_ok_iff, register_ok_iff, get_ok_iff, report, modify_ok_iff,
      pure_ok_iff] at run
    obtain ⟨address, w, registered, _, _, ⟨rfl, rfl⟩, _, _, _, rfl, _⟩ := run
    refine ⟨u, v, main, items_read (repeatUntil_iterates items) .start, ends, found, ?_⟩
    simp only [checkedAt, State.registered, registered]
    simp only [State.register, Prod.mk.injEq] at registered
    obtain ⟨_, rfl⟩ := registered
    rfl

end Analysis

/-- The state before the first reading of a source. -/
def State.ofSource (source : String) : State :=
  .initial ((lexemes source).map Lexeme.reading)

/-- The run of an accepted source, with the log that it leaves. -/
theorem analyze_run {source : String} {options : Options} {checked : CheckedProgram}
    (accepted : analyze source options = .ok checked) :
    ∃ t, Analysis.program options.maxNestingDepth (.ofSource source) = .ok checked t ∧
      compilationLog source options = t.log := by
  unfold analyze analyzeLogged at accepted
  unfold compilationLog analyzeLogged
  cases run : (Analysis.program options.maxNestingDepth).run
      (.initial ((lexemes source).map Lexeme.reading)) with
  | error fault t => simp [run] at accepted
  | ok result t =>
    simp only [run, Except.ok.injEq] at accepted
    subst accepted
    exact ⟨t, run, by simp [run]⟩

/-- A compiled program is that of a source that passes all checks. -/
theorem exists_checked_of_compile {source : String} {options : Options} {program : Program}
    (compiled : compile source options = .ok program) :
    ∃ checked, analyze source options = .ok checked ∧ checked.program = program := by
  unfold compile at compiled
  cases accepted : analyze source options with
  | error fault => simp [accepted, Except.map] at compiled
  | ok checked =>
    simp only [accepted, Except.map, Except.ok.injEq] at compiled
    exact ⟨checked, rfl, compiled⟩

/-- An accepted source is read item by item up to its end, and has a function to start with. -/
theorem analyze_reads {source : String} {options : Options} {checked : CheckedProgram}
    (accepted : analyze source options = .ok checked) :
    ∃ s t main, ReadsItems (.ofSource source) s ∧ s.Takes .eof t ∧
      t.definitions.find? (·.signature.name == mainName) = some main ∧
      checked = Analysis.checkedAt t main.signature := by
  obtain ⟨_, run, _⟩ := analyze_run accepted
  exact Analysis.program_reads run

end C0
