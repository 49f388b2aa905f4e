import C0.Proofs.Progress
import C0.Proofs.Reader
import C0.Proofs.SinglePass

namespace C0

/-- The two ways to read a source stand at the same place and have made the same of what lies
behind. -/
structure Serves (source : String) (s : State) (b : Bench) : Prop where
  source_eq : b.source = source
  rest : s.rest = ((lexemes source).map Lexeme.reading).drop s.position
  passed : ∀ i < s.position, ∃ kind, (scanResult source i).reading = .ok kind
  cursor : b.cursor.Before source s.position
  taken : b.taken = (List.range s.position).map (scanResult source)
  directory : b.directory = s.directory
  globals : b.globals = s.globals
  symbols : b.symbols = s.symbols
  frame : b.frame = s.frame
  routines : b.routines = s.definitions.map Definition.routine

/-- Both readers begin before the first token. -/
theorem serves_ofSource (source : String) :
    Serves source (.initial ((lexemes source).map Lexeme.reading)) (.ofSource source) where
  source_eq := rfl
  rest := rfl
  passed := by simp [State.initial]
  cursor := .free
  taken := rfl
  directory := rfl
  globals := rfl
  symbols := rfl
  frame := rfl
  routines := rfl

namespace Serves

variable {source : String} {s : State} {b : Bench}

/-- The next reading is what the next scan finds. Behind the end both find the end again. -/
theorem current (serves : Serves source s b) :
    s.current = (scanResult source s.position).reading := by
  obtain ⟨listed, ends, -⟩ := lexemes_eq_scanResult source
  rw [State.current, serves.rest, List.head?_drop, List.getElem?_map, listed, List.getElem?_map]
  by_cases inside : s.position < tokenCount source + 1
  · rw [List.getElem?_range inside]
    rfl
  · rw [List.getElem?_eq_none (by simpa using inside)]
    obtain ⟨kind, found⟩ := serves.passed (tokenCount source) (by omega)
    have last : ((Cursor.ofSource source).result (tokenCount source)).reading = .ok .eof := by
      rw [result_ofSource]
      rw [Lexeme.isLast, found] at ends
      cases kind <;> simp at ends
      exact found
    rw [← result_ofSource, result_eof source last (by omega)]
    rfl

/-- As many lexemes are left as readings. -/
theorem unread (serves : Serves source s b) : b.unread = s.rest.length := by
  rw [Bench.unread, serves.source_eq, serves.taken, serves.rest, List.length_map,
    List.length_range, List.length_drop, List.length_map]

/-- Both pass the same token. -/
theorem advanced {kind : Kind} (serves : Serves source s b) (current : s.current = .ok kind) :
    Serves source s.advanced { b with
      cursor := (Cursor.ofSource source).after (s.position + 1)
      taken := b.taken ++ [scanResult source s.position] } where
  source_eq := serves.source_eq
  rest := by
    simp only [State.advanced, serves.rest, List.tail_drop]
  passed i less := by
    rcases Nat.lt_succ_iff_lt_or_eq.mp less with before | rfl
    · exact serves.passed i before
    · exact ⟨kind, serves.current ▸ current⟩
  cursor := .free
  taken := by
    simp only [State.advanced, serves.taken, List.range_succ, List.map_append, List.map_cons,
      List.map_nil]
  directory := serves.directory
  globals := serves.globals
  symbols := serves.symbols
  frame := serves.frame
  routines := serves.routines

end Serves

/-- The same loops are around the place at hand. -/
def Desk.SameLoops (before after : Desk) : Prop :=
  after.loops.map OpenLoop.recheck = before.loops.map OpenLoop.recheck

namespace SinglePass

variable {α β γ δ : Type} {source : String}

/-- A step of a single pass comes to what a step of the analysis comes to: to the same fault, or to
a value and a desk that are as told. It raises no alarm. The loops around the place at hand are the
same afterwards. -/
def Mirrors (source : String) (pre : State → Desk → Prop) (m : Analysis α) (c : SinglePass β)
    (post : α → β → State → Desk → Prop) : Prop :=
  ∀ s b, Serves source s b → pre s b.desk →
    match m s with
    | .ok a t => ∃ x b', c b = .ok x b' ∧ Serves source t b' ∧ b.desk.SameLoops b'.desk ∧
        post a x t b'.desk
    | .error fault _ => ∃ b', c b = .error (.fault (fault.mapSite (locate source))) b' ∧
        b.desk.SameLoops b'.desk

/-- The desk is a given one. -/
abbrev At (desk : Desk) (_ : State) (other : Desk) : Prop :=
  other = desk

/-- Something holds, and the next token is known. -/
structure Facing (kind : Kind) (site : Nat) (pre : State → Desk → Prop) (s : State) (desk : Desk) :
    Prop where
  current : s.current = .ok kind
  position : s.position = site
  holds : pre s desk

/-- What is allowed one level further in is told by the limit. -/
inductive Allowed {R : Type} (P : R → Prop) (limit depth : Nat) : Option R → Prop
  | none : depth = limit → Allowed P limit depth none
  | some {reader} : depth < limit → P reader → Allowed P limit depth (some reader)

/-- The value of the analysis is a good one, and tells that of the single pass and the desk. -/
structure YieldsIf (good : α → Prop) (out : α → β) (effect : α → Desk) (a : α) (x : β) (_ : State)
    (desk : Desk) : Prop where
  good : good a
  value : x = out a
  desk : desk = effect a

/-- The value of the analysis tells that of the single pass and the desk. -/
abbrev Yields (out : α → β) (effect : α → Desk) : α → β → State → Desk → Prop :=
  YieldsIf (fun _ => True) out effect

namespace Mirrors

variable {pre pre' : State → Desk → Prop} {m : Analysis α} {c : SinglePass β}
  {f : α → Analysis γ} {g : β → SinglePass δ} {mid post : α → β → State → Desk → Prop}
  {post' : γ → δ → State → Desk → Prop} {desk : Desk}

theorem bind (first : Mirrors source pre m c mid)
    (rest : ∀ a x, Mirrors source (mid a x) (f a) (g x) post') :
    Mirrors source pre (m >>= f) (c >>= g) post' := by
  intro s b serves starts
  have before := first s b serves starts
  rw [Analysis.bind_eq, bind_eq]
  cases ran : m s with
  | error fault t =>
    rw [ran] at before
    obtain ⟨b', failed, loops⟩ := before
    rw [failed]
    exact ⟨b', rfl, loops⟩
  | ok a t =>
    rw [ran] at before
    obtain ⟨x, b', done, serves', loops, holds⟩ := before
    have after := rest a x t b' serves' holds
    rw [done]
    dsimp only
    cases ran' : f a t with
    | error fault u =>
      rw [ran'] at after
      obtain ⟨b'', failed, loops'⟩ := after
      exact ⟨b'', failed, loops'.trans loops⟩
    | ok a' u =>
      rw [ran'] at after
      obtain ⟨y, b'', done', serves'', loops', holds'⟩ := after
      exact ⟨y, b'', done', serves'', loops'.trans loops, holds'⟩

theorem weaken (mirrors : Mirrors source pre m c post) (fewer : ∀ s d, pre' s d → pre s d)
    {post'' : α → β → State → Desk → Prop} (more : ∀ a x s d, post a x s d → post'' a x s d) :
    Mirrors source pre' m c post'' := by
  intro s b serves starts
  have before := mirrors s b serves (fewer _ _ starts)
  cases ran : m s with
  | error fault t => rwa [ran] at before
  | ok a t =>
    rw [ran] at before
    obtain ⟨x, b', done, serves', loops, holds⟩ := before
    exact ⟨x, b', done, serves', loops, more _ _ _ _ holds⟩

theorem before (mirrors : Mirrors source pre m c post) (fewer : ∀ s d, pre' s d → pre s d) :
    Mirrors source pre' m c post :=
  mirrors.weaken fewer fun _ _ _ _ => id

/-- What the analysis alone shows about its states can be added. -/
theorem adding {known : State → Prop} {told : α → State → Prop}
    (mirrors : Mirrors source pre m c post)
    (run : ∀ s a t, known s → m s = .ok a t → told a t) :
    Mirrors source (fun s d => known s ∧ pre s d) m c
      (fun a x s d => told a s ∧ post a x s d) := by
  intro s b serves starts
  have both := mirrors s b serves starts.2
  cases ran : m s with
  | error fault t => rwa [ran] at both
  | ok a t =>
    rw [ran] at both
    obtain ⟨x, b', done, serves', loops, holds⟩ := both
    exact ⟨x, b', done, serves', loops, run s a t starts.1 ran, holds⟩

theorem facing {kind : Kind} {site : Nat} (mirrors : Mirrors source pre m c post) :
    Mirrors source (Facing kind site pre) m c post :=
  mirrors.before fun _ _ facing => facing.holds

/-- The next step may count on what the result is good for. -/
theorem bindIf {good : α → Prop} {out : α → β} {effect : α → Desk}
    (first : Mirrors source pre m c (YieldsIf good out effect))
    (rest : ∀ a, good a → Mirrors source (At (effect a)) (f a) (g (out a)) post') :
    Mirrors source pre (m >>= f) (c >>= g) post' := by
  refine first.bind fun a x s b serves holds => ?_
  obtain ⟨proper, rfl, same⟩ := holds
  exact rest a proper s b serves same

/-- What is on the desk after a step depends on its result only. -/
theorem seq {out : α → β} {effect : α → Desk}
    (first : Mirrors source pre m c (Yields out effect))
    (rest : ∀ a, Mirrors source (At (effect a)) (f a) (g (out a)) post') :
    Mirrors source pre (m >>= f) (c >>= g) post' :=
  first.bindIf fun a _ => rest a

theorem pure {a : α} {x : β} (holds : ∀ s d, pre s d → post a x s d) :
    Mirrors source pre (pure a) (pure x) post :=
  fun s b serves starts => ⟨x, b, rfl, serves, rfl, holds s b.desk starts⟩

theorem fail {cause : Cause} {site : Nat} :
    Mirrors source pre (Analysis.fail cause site) (fail cause (locate source site)) post :=
  fun _ b _ _ => ⟨b, rfl, rfl⟩

/-- Both refuse the same, at the same token. -/
theorem refuse_bind {bad bad' : Prop} [Decidable bad] [Decidable bad'] {cause : Cause} {site : Nat}
    {m : Unit → Analysis α} {c : Unit → SinglePass β} (same : bad' ↔ bad)
    (rest : ¬ bad → Mirrors source pre (m ()) (c ()) post) :
    Mirrors source pre (Analysis.refuse bad cause site >>= m)
      (refuse bad' cause (locate source site) >>= c) post := by
  by_cases failed : bad
  · simp only [Analysis.refuse, refuse, failed, same.mpr failed, if_true]
    exact fun _ b _ _ => ⟨b, rfl, rfl⟩
  · simp only [Analysis.refuse, refuse, failed, mt same.mp failed, if_false]
    exact rest failed

/-- A check of both fails at the same token. -/
theorem orFail {checked : Except (Fault Nat) α} {checked' : Except Diagnostic β} {out : α → β}
    (same : checked' = (checked.map out).mapError (Fault.mapSite (locate source))) :
    Mirrors source (At desk) (Analysis.orFail checked) (orFail checked')
      (Yields out fun _ => desk) := by
  subst same
  cases checked with
  | ok a => exact pure fun _ _ starts => ⟨trivial, rfl, starts⟩
  | error fault => exact fun _ b _ _ => ⟨b, rfl, rfl⟩

/-- Both sides change what they have made so far, apart from the code. -/
theorem modifyGet {f : State → γ × State} {g : Bench → γ × Bench}
    (step : ∀ s b, Serves source s b → (g b).1 = (f s).1 ∧ Serves source (f s).2 (g b).2)
    (same : ∀ b, (g b).2.desk = b.desk) :
    Mirrors source (At desk) (modifyGet f) (modifyGet g) (Yields id fun _ => desk) := by
  intro s b serves starts
  obtain ⟨value, serves'⟩ := step s b serves
  have loops : b.desk.SameLoops (g b).2.desk := by rw [same, Desk.SameLoops]
  exact ⟨(g b).1, (g b).2, rfl, serves', loops, trivial, value, (same b).trans starts⟩

theorem modify {f : State → State} {g : Bench → Bench}
    (step : ∀ s b, Serves source s b → Serves source (f s) (g b))
    (same : ∀ b, (g b).desk = b.desk) :
    Mirrors source (At desk) (modify f) (modify g) (Yields id fun _ => desk) :=
  modifyGet (fun s b serves => ⟨rfl, step s b serves⟩) same

/-- Both sides look at what they have made so far. -/
theorem get_bind {f : State → Analysis α} {g : Bench → SinglePass β}
    (rest : ∀ s b, Serves source s b → pre s b.desk → Mirrors source pre (f s) (g b) post) :
    Mirrors source pre (get >>= f) (get >>= g) post :=
  fun s b serves starts => rest s b serves starts s b serves starts

/-- Only the single pass looks at what it has made so far. -/
theorem get_left {g : Bench → SinglePass β}
    (rest : ∀ b, b.source = source → b.desk = desk → Mirrors source (At desk) m (g b) post) :
    Mirrors source (At desk) m (get >>= g) post :=
  fun s b serves starts => rest b serves.source_eq starts s b serves starts

/-- Only the single pass works on its desk. -/
theorem onDesk_bind {step : Desk → Except Alarm (δ × Desk)} {g : δ → SinglePass β} {x : δ}
    {after : Desk} (done : step desk = .ok (x, after)) (loops : desk.SameLoops after)
    (rest : Mirrors source (At after) m (g x) post) :
    Mirrors source (At desk) m (onDesk step >>= g) post := by
  intro s b serves starts
  have serves' : Serves source s { b with desk := after } := { serves with }
  have later := rest s { b with desk := after } serves' rfl
  have stepped : (onDesk step >>= g) b = g x { b with desk := after } := by
    rw [bind_eq, onDesk, starts, done]
  rw [stepped, starts]
  cases ran : m s with
  | error fault t =>
    rw [ran] at later
    obtain ⟨b', failed, same⟩ := later
    exact ⟨b', failed, same.trans loops⟩
  | ok a t =>
    rw [ran] at later
    obtain ⟨y, b', finished, further, same, holds⟩ := later
    exact ⟨y, b', finished, further, same.trans loops, holds⟩

/-- Code that is put down is nothing to the reader of trees. -/
theorem write_bind {code : List Instruction} {g : Unit → SinglePass β}
    (rest : Mirrors source (At (desk.write code)) m (g ()) post) :
    Mirrors source (At desk) m (write code >>= g) post :=
  onDesk_bind rfl rfl rest

/-- Numbers are kept as they are. -/
theorem keep_bind {number : Nat} {g : Nat → SinglePass β}
    (rest : Mirrors source pre m (g number) post) :
    Mirrors source pre m (keep .exact number >>= g) post := by
  rwa [keep_exact, pure_bind]

/-- Levels are counted on the desk only: the reader of trees has them in its limit. -/
theorem leave_bind {d : Desk} {g : Unit → SinglePass β}
    (rest : Mirrors source (At d) m (g ()) post) :
    Mirrors source (At d.deeper) m (leave >>= g) post :=
  onDesk_bind rfl rfl rest

/-- Both look at the same token. -/
theorem peek_bind {f : Word → Analysis α} {g : SourceToken → SinglePass β}
    (rest : ∀ kind site, Mirrors source (Facing kind site pre) (f ⟨kind, site⟩)
      (g ⟨kind, locate source site⟩) post) :
    Mirrors source pre (Analysis.peek >>= f) (peek >>= g) post := by
  intro s b serves starts
  rw [Analysis.bind_eq, Analysis.peek_eq, bind_eq]
  have here := serves.current
  cases current : s.current with
  | error cause =>
    rw [current] at here
    have seen := serves.cursor.peek_error here.symm
    refine ⟨{ b with cursor := b.cursor.peek.2 }, ?_, rfl⟩
    simp only [peek, seen, ← here]
    rfl
  | ok kind =>
    rw [current] at here
    obtain ⟨held, seen, stands⟩ := serves.cursor.peek here.symm
    have looked : peek b = .ok ⟨kind, locate source s.position⟩ { b with cursor := held } := by
      simp only [peek, seen, ← here]
      rfl
    rw [looked]
    have serves' : Serves source s { b with cursor := held } := { serves with cursor := stands }
    exact rest kind s.position s _ serves' ⟨current, rfl, starts⟩

theorem next_of_serves {s : State} {b : Bench} {kind : Kind} (serves : Serves source s b)
    (current : s.current = .ok kind) :
    next b = .ok ⟨kind, locate source s.position⟩ { b with
      cursor := (Cursor.ofSource source).after (s.position + 1)
      taken := b.taken ++ [scanResult source s.position] } := by
  have here : (scanResult source s.position).reading = .ok kind := serves.current ▸ current
  simp only [next, serves.cursor.next, here]
  rfl

/-- A token that was looked at is taken. -/
theorem advance_bind {kind : Kind} {site : Nat} {f : Unit → Analysis α}
    {g : SourceToken → SinglePass β}
    (rest : Mirrors source (At desk) (f ()) (g ⟨kind, locate source site⟩) post) :
    Mirrors source (Facing kind site (At desk)) (Analysis.advance >>= f) (next >>= g) post := by
  rintro s b serves ⟨current, rfl, starts⟩
  have passes : (Analysis.advance >>= f) s = f () s.advanced := rfl
  rw [passes, bind_eq, next_of_serves serves current]
  exact rest s.advanced _ (serves.advanced current) starts

theorem next_bind {f : Word → Analysis α} {g : SourceToken → SinglePass β}
    (rest : ∀ kind site, (scanResult source site).reading = .ok kind →
      Mirrors source (At desk) (f ⟨kind, site⟩) (g ⟨kind, locate source site⟩) post) :
    Mirrors source (At desk) (Analysis.next >>= f) (next >>= g) post := by
  intro s b serves starts
  rw [Analysis.bind_eq, Analysis.next_eq, bind_eq]
  cases current : s.current with
  | error cause =>
    have here : (scanResult source s.position).reading = .error cause := serves.current ▸ current
    refine ⟨{ b with cursor := (Cursor.ofSource source).after (s.position + 1) }, ?_, rfl⟩
    simp only [next, serves.cursor.next, here]
    rfl
  | ok kind =>
    rw [next_of_serves serves current]
    exact rest kind s.position (serves.current ▸ current) s.advanced _ (serves.advanced current)
      starts

theorem expect_bind {kind : Kind} {f : Nat → Analysis α} {g : Span → SinglePass β}
    (rest : ∀ site, Mirrors source (At desk) (f site) (g (locate source site)) post) :
    Mirrors source (At desk) (Analysis.expect kind >>= f) (expect kind >>= g) post := by
  simp only [Analysis.expect, expect, bind_assoc, pure_bind]
  exact next_bind fun found site _ => refuse_bind .rfl fun _ => rest site

theorem expect {kind : Kind} :
    Mirrors source (At desk) (Analysis.expect kind) (expect kind)
      (Yields (locate source) fun _ => desk) := by
  rw [← bind_pure (Analysis.expect kind), ← bind_pure (SinglePass.expect kind)]
  exact expect_bind fun site => pure fun _ _ same => ⟨trivial, rfl, same⟩

theorem check_bind {kind : Kind} {f : Bool → Analysis α} {g : Bool → SinglePass β}
    (rest : ∀ found, Mirrors source (At desk) (f found) (g found) post) :
    Mirrors source (At desk) (Analysis.check kind >>= f) (check kind >>= g) post := by
  simp only [Analysis.check, check, bind_assoc, pure_bind]
  exact peek_bind fun found site => (rest _).facing

theorem eat_bind {kind : Kind} {f : Option Nat → Analysis α} {g : Option Span → SinglePass β}
    (rest : ∀ site, Mirrors source (At desk) (f site) (g (site.map (locate source))) post) :
    Mirrors source (At desk) (Analysis.eat kind >>= f) (eat kind >>= g) post := by
  simp only [Analysis.eat, eat, check, bind_assoc, pure_bind]
  refine peek_bind fun found site => ?_
  by_cases same : found = kind
  · simp only [same, beq_self_eq_true, if_true, bind_assoc, pure_bind]
    exact advance_bind (rest (some site))
  · simp only [same, beq_eq_false_iff_ne.mpr same, Bool.false_eq_true, if_false, pure_bind]
    exact (rest none).facing

/-- The text of a token is cut out of the source. -/
theorem slice_bind {site : Nat} {name : String} {g : String → SinglePass β}
    (text : (locate source site).text source = name)
    (rest : Mirrors source (At desk) m (g name) post) :
    Mirrors source (At desk) m (slice (locate source site) >>= g) post := by
  simp only [slice, bind_assoc]
  refine get_left fun b same _ => ?_
  simp only [same, locate_fits, if_true, pure_bind, text]
  exact rest

theorem expectIdentifier_bind {f : NameWord → Analysis α} {g : String × Span → SinglePass β}
    (rest : ∀ word, Mirrors source (At desk) (f word) (g (word.name, locate source word.site))
      post) :
    Mirrors source (At desk) (Analysis.expectIdentifier >>= f) (expectIdentifier >>= g) post := by
  simp only [Analysis.expectIdentifier, expectIdentifier, bind_assoc]
  refine next_bind fun kind site read => ?_
  cases kind with
  | identifier name =>
    simp only [bind_assoc, pure_bind]
    exact slice_bind (text_of_identifier read) (rest ⟨name, site⟩)
  | _ => exact fail

theorem expectType_bind {f : TypeWord → Analysis α} {g : Ty × Span → SinglePass β}
    (rest : ∀ word, Mirrors source (At desk) (f word) (g (word.ty, locate source word.site)) post) :
    Mirrors source (At desk) (Analysis.expectType >>= f) (expectType >>= g) post := by
  simp only [Analysis.expectType, expectType, bind_assoc]
  refine next_bind fun kind site _ => ?_
  cases kind with
  | type ty => exact rest ⟨ty, site⟩
  | _ => exact fail

theorem expectValueType_bind {f : Ty → Analysis α} {g : Ty → SinglePass β}
    (rest : ∀ ty, Mirrors source (At desk) (f ty) (g ty) post) :
    Mirrors source (At desk) (Analysis.expectValueType >>= f) (expectValueType >>= g) post := by
  simp only [Analysis.expectValueType, expectValueType, bind_assoc, pure_bind]
  exact expectType_bind fun word => refuse_bind .rfl fun _ => rest word.ty

/-- One goes one level further in, or both sides report that the limit is reached. -/
theorem enter_bind {R : Type} {P : R → Prop} {limit depth site : Nat} {inner : Option R}
    {f : R → Analysis α} {g : Unit → SinglePass β}
    (allowed : Allowed P limit depth inner) (level : desk.depth = depth)
    (rest : ∀ reader, P reader → Mirrors source (At desk.deeper) (f reader) (g ()) post) :
    Mirrors source (At desk) (Analysis.enter inner site >>= f)
      (enter .exact limit (locate source site) >>= g) post := by
  subst level
  simp only [enter, bind_assoc, pure_bind]
  refine get_left fun b _ same => ?_
  cases allowed with
  | none reached =>
    simp only [SinglePass.refuse, same, reached, Nat.le_refl, if_true]
    exact fun _ b _ _ => ⟨b, rfl, rfl⟩
  | @some reader room proper =>
    simp only [SinglePass.refuse, same, Nat.not_le.mpr room, if_false, pure_bind]
    exact onDesk_bind rfl rfl (get_left fun _ _ _ => keep_bind (rest reader proper))

/-- What one repetition comes to on both sides: the next one, or the end. -/
def Both {γ δ : Type} (again : α → β → State → Desk → Prop) (done : γ → δ → State → Desk → Prop)
    (result : α ⊕ γ) (result' : β ⊕ δ) (s : State) (d : Desk) : Prop :=
  match result, result' with
  | .inl a, .inl x => again a x s d
  | .inr a, .inr x => done a x s d
  | _, _ => False

/-- Loops mirror each other if their steps do. Each repetition takes a token, so that neither side
repeats more often than it may. -/
theorem repeatUntil {γ δ : Type} {step : α → Analysis (α ⊕ γ)} {step' : β → SinglePass (β ⊕ δ)}
    {again : α → β → State → Desk → Prop} {done : γ → δ → State → Desk → Prop}
    (progress : Analysis.Progresses step)
    (steps : ∀ a x, Mirrors source (again a x) (step a) (step' x) (Both again done)) (a : α)
    (x : β) :
    Mirrors source (again a x) (Analysis.repeatUntil step a) (repeatUntil step' x) done := by
  have shorter (n : Nat) (a : α) (x : β) :
      Mirrors source (fun s d => again a x s d ∧ s.rest.length < n + 1) (step a) (step' x)
        (Both (fun a x s d => again a x s d ∧ s.rest.length < n) done) := by
    intro s b serves starts
    have once := steps a x s b serves starts.1
    cases ran : step a s with
    | error fault t => rwa [ran] at once
    | ok result t =>
      rw [ran] at once
      obtain ⟨y, b', stepped, serves', loops, holds⟩ := once
      refine ⟨y, b', stepped, serves', loops, ?_⟩
      match result, y, holds with
      | .inl _, .inl _, holds => exact ⟨holds, Nat.lt_of_lt_of_le (progress _ _ _ _ ran)
          (Nat.lt_succ_iff.mp starts.2)⟩
      | .inr _, .inr _, holds => exact holds
  have bounded (n : Nat) (a : α) (x : β) :
      Mirrors source (fun s d => again a x s d ∧ s.rest.length < n)
        (Analysis.repeatAtMost step n a) (repeatAtMost step' n x) done := by
    induction n generalizing a x with
    | zero => exact fun s b _ starts => absurd starts.2 (Nat.not_lt_zero _)
    | succ n ih =>
      refine (shorter n a x).bind fun result y => ?_
      match result, y with
      | .inl a, .inl x => exact ih a x
      | .inr a, .inr x => exact pure fun _ _ => id
      | .inl _, .inr _ | .inr _, .inl _ => exact fun _ _ _ impossible => impossible.elim
  intro s b serves starts
  have budget : SinglePass.repeatUntil step' x b = repeatAtMost step' (s.rest.length + 1) x b := by
    rw [← serves.unread]
    rfl
  rw [budget]
  exact bounded _ a x s b serves ⟨starts, Nat.lt_succ_self _⟩

/-- A loop whose variable tells the value and the desk of the single pass. -/
theorem loop {γ δ : Type} {step : α → Analysis (α ⊕ γ)} {step' : β → SinglePass (β ⊕ δ)}
    (good : α → Prop) (out : α → β) (effect : α → Desk) {done : γ → δ → State → Desk → Prop}
    (progress : Analysis.Progresses step)
    (steps : ∀ a, good a → Mirrors source (At (effect a)) (step a) (step' (out a))
      (Both (YieldsIf good out effect) done)) (a : α) (proper : good a) :
    Mirrors source (At (effect a)) (Analysis.repeatUntil step a)
      (SinglePass.repeatUntil step' (out a)) done := by
  have steps' (a : α) (x : β) : Mirrors source (YieldsIf good out effect a x) (step a) (step' x)
      (Both (YieldsIf good out effect) done) := by
    rintro s b serves ⟨proper, rfl, same⟩
    exact steps a proper s b serves same
  exact (repeatUntil progress steps' a (out a)).before fun _ _ same => ⟨proper, rfl, same⟩

end Mirrors

end SinglePass

end C0
