import C0.Proofs.Forward
import C0.Proofs.Layers
import Mathlib.Data.List.TakeWhile

namespace C0

namespace OperatorStack

/-- Operators are taken off a stack in a given way until none is given: those that were taken, the
first one first, and what is left. -/
inductive Drains {σ : Type} (take : OperatorStack σ → Option (Operator × σ) × OperatorStack σ) :
    OperatorStack σ → List (Operator × σ) → OperatorStack σ → Prop
  | done {stack left : OperatorStack σ} : take stack = (none, left) → Drains take stack [] left
  | taken {stack next left : OperatorStack σ} {top : Operator × σ} {rest : List (Operator × σ)} :
      take stack = (some top, next) → Drains take next rest left →
      Drains take stack (top :: rest) left

variable {σ : Type} {stack left : OperatorStack σ} {taken : List (Operator × σ)}

/-- Taking the last operator as long as a test holds of it takes the operators in front for which it
holds. -/
theorem drains_popIf_iff {test : Operator × σ → Bool} :
    Drains (popIf test) stack taken left ↔
      taken = stack.pending.takeWhile test ∧ left = ⟨stack.pending.dropWhile test⟩ := by
  constructor
  · intro drains
    induction drains with
    | @done stack left stops =>
      obtain ⟨_ | ⟨top, rest⟩⟩ := stack
      · cases stops
        exact ⟨rfl, rfl⟩
      · cases passes : test top with
        | true => simp [popIf, passes] at stops
        | false =>
          simp only [popIf, passes, Bool.false_eq_true, if_false, Prod.mk.injEq, true_and] at stops
          subst stops
          simp [passes]
    | @taken stack next left top rest takes _ ih =>
      obtain ⟨_ | ⟨last, pending⟩⟩ := stack
      · cases takes
      · cases passes : test last with
        | false => simp [popIf, passes] at takes
        | true =>
          simp only [popIf, passes, if_true, Prod.mk.injEq, Option.some.injEq] at takes
          obtain ⟨rfl, rfl⟩ := takes
          simpa [passes] using ih
  · rintro ⟨rfl, rfl⟩
    obtain ⟨pending⟩ := stack
    induction pending with
    | nil => exact .done rfl
    | cons top rest ih =>
      cases passes : test top with
      | false =>
        have stops : popIf test ⟨top :: rest⟩ = (none, ⟨top :: rest⟩) := by simp [popIf, passes]
        simpa [passes] using Drains.done stops
      | true =>
        have takes : popIf test ⟨top :: rest⟩ = (some top, ⟨rest⟩) := by simp [popIf, passes]
        simpa [passes] using Drains.taken takes ih

/-- Taking operators for an incoming one until none is given takes all that go before it. -/
theorem drains_popFor_iff {incoming : Operator} :
    Drains (popFor incoming) stack taken left ↔
      taken = stack.before incoming ∧ left = stack.after incoming :=
  drains_popIf_iff

/-- Taking operators at the end of an expression until none is given takes all that are applied
there. -/
theorem drains_pop_iff :
    Drains pop stack taken left ↔
      taken = stack.applicable ∧ left = ⟨stack.pending.dropWhile isApplicable⟩ :=
  drains_popIf_iff

end OperatorStack

namespace Analysis

namespace Layered

/-- The layer of an operator is told by its priority. -/
theorem mem_products_iff {op : Operator} : op ∈ products ↔ op.priority = 3 := by
  cases op <;> decide

theorem mem_sums_iff {op : Operator} : op ∈ sums ↔ op.priority = 2 := by
  cases op <;> decide

theorem mem_comparisons_iff {op : Operator} : op ∈ comparisons ↔ op.priority = 1 := by
  cases op <;> decide

theorem binary?_priority {kind : Kind} {op : Operator} (found : Operator.binary? kind = some op) :
    op.priority = 1 ∨ op.priority = 2 ∨ op.priority = 3 := by
  unfold Operator.binary? at found
  split at found <;> simp at found <;> subst found <;> decide

theorem binary?_notEnd {kind : Kind} {op : Operator} (found : Operator.binary? kind = some op) :
    kind ≠ .eof := by
  rintro rfl
  simp [Operator.binary?] at found

/-- Any operator but the bottom of a stack applies to each type that has values. -/
theorem instructions?_isSome_iff {op : Operator} {ty : Ty} (proper : op ≠ .sentinel) :
    (op.instructions? ty).isSome ↔ ty ≠ .void := by
  cases op <;> cases ty <;> simp_all [Operator.instructions?, Operator.intOps?, Operator.doubleOps?]

theorem reduce_negate (operand : Expr) (rest : List Expr) (site : Nat) :
    reduce (operand :: rest) (.negate, site) = (· :: rest) <$> negate operand site := by
  have applies : (Operator.negate.instructions? operand.ty).isSome ↔ operand.ty ≠ .void :=
    instructions?_isSome_iff (by decide)
  simp only [reduce, Operator.isUnary, negate, applies, beq_self_eq_true, if_true]
  rw [apply_ite (Functor.map (· :: rest))]
  rfl

theorem reduce_join {op : Operator} (proper : op ≠ .sentinel) (notUnary : op ≠ .negate)
    (left right : Expr) (rest : List Expr) (site : Nat) :
    reduce (right :: left :: rest) (op, site) = (· :: rest) <$> join op site left right := by
  have applies : (op.instructions? left.ty).isSome ↔ left.ty ≠ .void :=
    instructions?_isSome_iff proper
  have binary : op.isUnary = false := by simpa [Operator.isUnary] using notUnary
  simp only [reduce, binary, join, applies, Bool.false_eq_true, if_false]
  rw [apply_ite (Functor.map (· :: rest))]
  rfl

/-- Signs are applied before everything that waited before them. -/
theorem reduceAll_signs (sites : List Nat) (value : Expr) (rest : List Expr)
    (operators : List (Operator × Nat)) :
    reduceAll (value :: rest) (sites.map (Operator.negate, ·) ++ operators) =
      sites.foldlM negate value >>= fun e => reduceAll (e :: rest) operators := by
  induction sites generalizing value with
  | nil => rfl
  | cons site sites ih =>
    have step : reduceAll (value :: rest) ((site :: sites).map (Operator.negate, ·) ++ operators) =
        reduce (value :: rest) (.negate, site) >>= fun operands =>
          reduceAll operands (sites.map (Operator.negate, ·) ++ operators) := rfl
    have fold : (site :: sites).foldlM negate value =
        negate value site >>= fun e => sites.foldlM negate e := rfl
    rw [step, fold, reduce_negate]
    cases negate value site with
    | error fault => rfl
    | ok e => exact ih e

/-- An operator that waits for its right operand, and its left operand. -/
structure Waiting where
  op : Operator
  site : Nat
  left : Expr

/-- Gives the operators that wait their right operands, one after the other. -/
def close (waiting : List Waiting) (e : Expr) : Except (Fault Nat) Expr :=
  waiting.foldlM (fun e w => join w.op w.site w.left e) e

theorem close_append (before after : List Waiting) (e : Expr) :
    close (before ++ after) e = close before e >>= close after :=
  List.foldlM_append

theorem reduceAll_waiting {waiting : List Waiting}
    (binary : ∀ w ∈ waiting, w.op ≠ .sentinel ∧ w.op ≠ .negate) (e : Expr) (rest : List Expr) :
    reduceAll (e :: (waiting.map Waiting.left ++ rest)) (waiting.map fun w => (w.op, w.site)) =
      (· :: rest) <$> close waiting e := by
  induction waiting generalizing e with
  | nil => rfl
  | cons w waiting ih =>
    have ops := binary w (by simp)
    have step : reduceAll (e :: w.left :: (waiting.map Waiting.left ++ rest))
          ((w :: waiting).map fun w => (w.op, w.site)) =
        reduce (e :: w.left :: (waiting.map Waiting.left ++ rest)) (w.op, w.site) >>=
          fun operands => reduceAll operands (waiting.map fun w => (w.op, w.site)) := rfl
    have fold : close (w :: waiting) e = join w.op w.site w.left e >>= close waiting := rfl
    rw [List.map_cons, List.cons_append, step, fold, reduce_join ops.1 ops.2]
    cases join w.op w.site w.left e with
    | error fault => rfl
    | ok e => exact ih (fun w member => binary w (List.mem_cons_of_mem _ member)) e

/-- What waits in the course of an expression: at most one operator of each layer. -/
structure Pending where
  product : Option Waiting
  sum : Option Waiting
  comparison : Option Waiting
  products_only : ∀ w ∈ product, w.op.priority = 3
  sums_only : ∀ w ∈ sum, w.op.priority = 2
  comparisons_only : ∀ w ∈ comparison, w.op.priority = 1

namespace Pending

/-- Nothing waits. -/
def none : Pending :=
  ⟨.none, .none, .none, by simp, by simp, by simp⟩

/-- All that waits, the tightest first, which came last. -/
def waiting (p : Pending) : List Waiting :=
  p.product.toList ++ (p.sum.toList ++ p.comparison.toList)

/-- What waits as a stack of operators and one of operands. -/
def unfinished (p : Pending) : Unfinished :=
  ⟨⟨p.waiting.map fun w => (w.op, w.site)⟩, p.waiting.map Waiting.left⟩

/-- An operator arrives after an operand: what binds as tightly is closed, and the operator waits. -/
def arrive (p : Pending) (op : Operator) (site : Nat) (e : Expr) : Except (Fault Nat) Pending :=
  if product : op.priority = 3 then
    close p.product.toList e >>= fun e => pure
      { p with product := some ⟨op, site, e⟩, products_only := by rintro _ ⟨rfl⟩; exact product }
  else if sum : op.priority = 2 then
    close (p.product.toList ++ p.sum.toList) e >>= fun e => pure
      { p with
        product := .none, sum := some ⟨op, site, e⟩,
        products_only := by simp, sums_only := by rintro _ ⟨rfl⟩; exact sum }
  else if comparison : op.priority = 1 then
    close p.waiting e >>= fun e => pure
      ⟨.none, .none, some ⟨op, site, e⟩, by simp, by simp, by rintro _ ⟨rfl⟩; exact comparison⟩
  else .ok p

theorem priority_of_mem (p : Pending) {w : Waiting} (member : w ∈ p.waiting) :
    w.op.priority = 1 ∨ w.op.priority = 2 ∨ w.op.priority = 3 := by
  simp only [waiting, List.mem_append, Option.mem_toList] at member
  rcases member with product | sum | comparison
  · exact .inr (.inr (p.products_only w product))
  · exact .inr (.inl (p.sums_only w sum))
  · exact .inl (p.comparisons_only w comparison)

theorem binary_of_mem (p : Pending) {w : Waiting} (member : w ∈ p.waiting) :
    w.op ≠ .sentinel ∧ w.op ≠ .negate := by
  have priority := p.priority_of_mem member
  constructor <;> intro same <;> rw [same] at priority <;> simp [Operator.priority] at priority

end Pending

theorem goesBefore_negate (incoming : Operator) (site : Nat) :
    OperatorStack.goesBefore incoming (Operator.negate, site) = true := by
  cases incoming <;> rfl

theorem takeWhile_append_stop {α : Type} {test : α → Bool} {go stop : List α}
    (goes : ∀ a ∈ go, test a = true) (stops : ∀ a ∈ stop, test a = false) :
    (go ++ stop).takeWhile test = go ∧ (go ++ stop).dropWhile test = stop := by
  rw [List.takeWhile_append_of_pos goes, List.dropWhile_append_of_pos goes]
  cases stop with
  | nil => simp
  | cons a rest => simp [stops a (by simp)]

namespace Pending

variable {p : Pending} {op : Operator} {tight loose : List Waiting}

/-- The signs before an operand and what waits down to the layer of an arriving operator go before
it, and what waits in looser layers does not. -/
theorem before_after (split : p.waiting = tight ++ loose)
    (goes : ∀ w ∈ tight, op.priority ≤ w.op.priority)
    (stays : ∀ w ∈ loose, w.op.priority < op.priority) (sites : List Nat) :
    let operators : OperatorStack Nat :=
      ⟨sites.map (Operator.negate, ·) ++ p.unfinished.operators.pending⟩
    operators.before op = sites.map (Operator.negate, ·) ++ tight.map (fun w => (w.op, w.site)) ∧
      operators.after op = ⟨loose.map fun w => (w.op, w.site)⟩ := by
  have goes' : ∀ waiting ∈ sites.map (Operator.negate, ·) ++ tight.map (fun w => (w.op, w.site)),
      OperatorStack.goesBefore op waiting = true := by
    intro waiting member
    rcases List.mem_append.mp member with sign | member
    · obtain ⟨site, _, rfl⟩ := List.mem_map.mp sign
      exact goesBefore_negate op site
    · obtain ⟨w, inTight, rfl⟩ := List.mem_map.mp member
      have proper := (p.binary_of_mem (split ▸ List.mem_append_left _ inTight)).1
      simp [OperatorStack.goesBefore, OperatorStack.isApplicable, proper, goes w inTight]
  have stays' : ∀ waiting ∈ loose.map (fun w => (w.op, w.site)),
      OperatorStack.goesBefore op waiting = false := by
    intro waiting member
    obtain ⟨w, inLoose, rfl⟩ := List.mem_map.mp member
    have lower := stays w inLoose
    simp only [OperatorStack.goesBefore, Bool.and_eq_false_iff, decide_eq_false_iff_not]
    exact .inr (by omega)
  obtain ⟨taken, left⟩ := takeWhile_append_stop goes' stays'
  simp only [OperatorStack.before, OperatorStack.after, unfinished, split, List.map_append,
    ← List.append_assoc, taken, left, and_self]

/-- All that waits goes when the expression ends. -/
theorem applicable_all (p : Pending) (sites : List Nat) :
    (⟨sites.map (Operator.negate, ·) ++ p.unfinished.operators.pending⟩ :
      OperatorStack Nat).applicable =
    sites.map (Operator.negate, ·) ++ p.waiting.map fun w => (w.op, w.site) := by
  refine List.takeWhile_eq_self_iff.mpr ?_
  intro waiting member
  rcases List.mem_append.mp member with sign | member
  · obtain ⟨site, _, rfl⟩ := List.mem_map.mp sign
    rfl
  · obtain ⟨w, waits, rfl⟩ := List.mem_map.mp member
    simp [OperatorStack.isApplicable, (p.binary_of_mem waits).1]

/-- What is applied before an arriving operator is the signs and what waits in the layers that are
not looser. -/
theorem reduceAll_tight (split : p.waiting = tight ++ loose) (sites : List Nat) (value : Expr) :
    reduceAll (value :: p.unfinished.operands)
        (sites.map (Operator.negate, ·) ++ tight.map fun w => (w.op, w.site)) =
      sites.foldlM negate value >>= fun e =>
        (· :: loose.map Waiting.left) <$> close tight e := by
  have binary (w : Waiting) (member : w ∈ tight) : w.op ≠ .sentinel ∧ w.op ≠ .negate :=
    p.binary_of_mem (split ▸ List.mem_append_left _ member)
  have operands : p.unfinished.operands = tight.map Waiting.left ++ loose.map Waiting.left := by
    simp [unfinished, split]
  rw [operands, reduceAll_signs]
  congr 1
  funext e
  exact reduceAll_waiting binary e _

end Pending

/-- The signs pushed on a stack of operators are the signs that were collected. -/
theorem observe_negations (sites : List Nat) (pending : List (Operator × Nat)) (s : State) :
    observe (repeatUntil negation ⟨sites.map (Operator.negate, ·) ++ pending⟩) s =
      observe (repeatUntil sign sites) s >>= fun r =>
        pure (⟨r.1.map (Operator.negate, ·) ++ pending⟩, r.2) := by
  have bounded (n : Nat) (sites : List Nat) (s : State) :
      observe (repeatAtMost negation n ⟨sites.map (Operator.negate, ·) ++ pending⟩) s =
        observe (repeatAtMost sign n sites) s >>= fun r =>
          pure (⟨r.1.map (Operator.negate, ·) ++ pending⟩, r.2) := by
    induction n generalizing sites s with
    | zero =>
      simp only [repeatAtMost, observe_bind, observe_peek]
      cases s.current <;> rfl
    | succ n ih =>
      simp only [repeatAtMost, negation, sign, observe_bind]
      cases observe (eat (.mark .minus)) s with
      | error fault => rfl
      | ok taken =>
        obtain ⟨site, t⟩ := taken
        cases site with
        | none => rfl
        | some site => exact ih (site :: sites) t
  exact bounded _ _ _

/-- Behind an operand a token was looked at, for it could have been a cast. -/
theorem operand_current {inner : Option (Scope → Analysis Expr)} {scope : Scope} {s t : State}
    {e : Expr} (run : operand inner scope s = .ok e t) : ∃ kind, t.current = .ok kind := by
  obtain ⟨value, u, -, casts⟩ := bind_ok_iff.mp run
  have walk := repeatUntil_iterates casts
  clear casts run
  induction walk with
  | next _ _ ih => exact ih
  | @done value u e t last =>
    simp only [cast, bind_ok_iff] at last
    obtain ⟨site, v, eaten, last⟩ := last
    cases site with
    | none =>
      obtain ⟨rfl, kind, current, _⟩ := eat_none_iff.mp eaten
      obtain ⟨_, rfl⟩ := pure_ok_iff.mp last
      exact ⟨kind, current⟩
    | some site => simp at last

section

variable {operators : List Operator} {tighter : Analysis Expr}

theorem more_progresses (forward : Forward tighter) : Progresses (more operators tighter) := by
  intro left s joined u run
  simp only [more, bind_ok_iff, peek_ok_iff] at run
  obtain ⟨word, t, ⟨current, _, rfl⟩, run⟩ := run
  cases found : (Operator.binary? word.kind).filter (· ∈ operators) with
  | none => simp [found] at run
  | some op =>
    simp only [found, bind_ok_iff, advance_ok_iff, orFail_ok_iff, pure_ok_iff] at run
    obtain ⟨_, t, rfl, right, v, read, _, _, ⟨_, rfl⟩, _, rfl⟩ := run
    have notEnd := binary?_notEnd (Option.filter_eq_some_iff.mp found).1
    have taken : s.advanced.rest.length < s.rest.length :=
      State.Takes.length_lt ⟨current, rfl⟩ notEnd
    have rest := (forward _ _ _ read).length_le
    omega

/-- A layer goes on with one of its operators. -/
theorem observe_more (forward : Forward tighter) {left : Expr} {s : State} {kind : Kind}
    {op : Operator} (current : s.current = .ok kind) (found : Operator.binary? kind = some op)
    (member : op ∈ operators) :
    observe (repeatUntil (more operators tighter) left) s =
      observe tighter s.advanced >>= fun r => join op s.position left r.1 >>= fun joined =>
        observe (repeatUntil (more operators tighter) joined) r.2 := by
  rw [observe_repeatUntil (more_progresses forward)]
  simp only [more, observe_bind, observe_peek, current, ok_bind, pure_bind, found, Option.filter,
    member, decide_true, if_true, observe_advance, observe_orFail, observe_pure, bind_assoc]

/-- A layer ends where none of its operators comes next. -/
theorem observe_no_more (forward : Forward tighter) {left : Expr} {s : State} {kind : Kind}
    (current : s.current = .ok kind) (other : ∀ op ∈ Operator.binary? kind, op ∉ operators) :
    observe (repeatUntil (more operators tighter) left) s = .ok (left, s) := by
  have stops : (Operator.binary? kind).filter (· ∈ operators) = none := by
    simp only [Option.filter_eq_none_iff, decide_eq_true_eq]
    exact other
  rw [observe_repeatUntil (more_progresses forward)]
  simp only [more, observe_bind, observe_peek, current, ok_bind, stops, observe_pure, pure_bind]
  rfl

end

/-- What the layers still do after an operand, if some operators wait. -/
def resume (tight : Analysis Expr) (p : Pending) (e : Expr) : Analysis Expr := do
  let e ← orFail (close p.product.toList e)
  let e ← repeatUntil (more products tight) e
  let e ← orFail (close p.sum.toList e)
  let e ← repeatUntil (more sums (layer products tight)) e
  let e ← orFail (close p.comparison.toList e)
  repeatUntil (more comparisons (layer sums (layer products tight))) e

theorem close_singleton (w : Waiting) (e : Expr) : close [w] e = join w.op w.site w.left e := by
  change join w.op w.site w.left e >>= Except.ok = _
  cases join w.op w.site w.left e <;> rfl

theorem layer_forward {operators : List Operator} {tighter : Analysis Expr}
    (forward : Forward tighter) : Forward (layer operators tighter) := by
  refine forward.bind fun _ => .repeatUntil (fun left => ?_) _
  refine peek_forward.bind fun word => ?_
  split
  · exact advance_forward.bind fun _ => forward.bind fun _ => (orFail_forward _).bind fun _ =>
      pure_forward _
  · exact pure_forward _

theorem observe_layer (operators : List Operator) (tighter : Analysis Expr) (s : State) :
    observe (layer operators tighter) s = observe tighter s >>= fun r =>
      observe (repeatUntil (more operators tighter) r.1) r.2 :=
  observe_bind _ _ _

/-- Where nothing waits, an operand and what follows it are a whole expression. -/
theorem observe_resume_none (tight : Analysis Expr) (s : State) :
    observe (tight >>= resume tight .none) s =
      observe (layer comparisons (layer sums (layer products tight))) s := by
  have nothing (e : Expr) : close [] e = pure e := rfl
  simp only [resume, observe_layer, observe_bind, observe_orFail, Pending.none,
    Option.toList_none, nothing, bind_assoc, pure_bind]

section

variable {tight : Analysis Expr} {p : Pending} {e : Expr} {s : State} {kind : Kind} {op : Operator}

/-- Where an operator follows, the layers close what is as tight and go on behind the operator. -/
theorem observe_resume_arrive (forward : Forward tight) (current : s.current = .ok kind)
    (found : Operator.binary? kind = some op) :
    observe (resume tight p e) s =
      p.arrive op s.position e >>= fun q => observe (tight >>= resume tight q) s.advanced := by
  have layered : Forward (layer products tight) := layer_forward forward
  have layered' : Forward (layer sums (layer products tight)) := layer_forward layered
  have stops {operators : List Operator} (other : op ∉ operators) :
      ∀ other ∈ Operator.binary? kind, other ∉ operators := by
    rintro _ same
    cases found.symm.trans same
    exact other
  have nothing (e : Expr) : close [] e = pure e := rfl
  simp only [resume, observe_bind, observe_orFail, bind_assoc, pure_bind]
  -- The looser the operator is, the more layers end before it.
  rcases binary?_priority found with comparison | sum | product
  · have notProduct : op ∉ products := by simp [mem_products_iff, comparison]
    have notSum : op ∉ sums := by simp [mem_sums_iff, comparison]
    have arrived : p.arrive op s.position e = close p.waiting e >>= fun e =>
        pure ⟨none, none, some ⟨op, s.position, e⟩, by simp, by simp, by simpa using comparison⟩ := by
      simp [Pending.arrive, comparison]
    simp only [arrived, observe_no_more forward current (stops notProduct), pure_bind, ok_bind,
      observe_no_more layered current (stops notSum), Pending.waiting, close_append, bind_assoc,
      observe_more layered' current found (mem_comparisons_iff.mpr comparison), observe_layer,
      Option.toList_none, Option.toList_some, nothing, close_singleton]
  · have notProduct : op ∉ products := by simp [mem_products_iff, sum]
    have arrived : p.arrive op s.position e =
        close (p.product.toList ++ p.sum.toList) e >>= fun e =>
          pure ⟨none, some ⟨op, s.position, e⟩, p.comparison, by simp, by simpa using sum,
            p.comparisons_only⟩ := by
      simp [Pending.arrive, sum]
    simp only [arrived, observe_no_more forward current (stops notProduct), pure_bind, ok_bind,
      close_append, bind_assoc, observe_more layered current found (mem_sums_iff.mpr sum),
      observe_layer, Option.toList_none, Option.toList_some, nothing, close_singleton]
  · have arrived : p.arrive op s.position e = close p.product.toList e >>= fun e =>
        pure ⟨some ⟨op, s.position, e⟩, p.sum, p.comparison, by simpa using product,
          p.sums_only, p.comparisons_only⟩ := by
      simp [Pending.arrive, product]
    simp only [arrived, pure_bind, bind_assoc, Option.toList_some, close_singleton,
      observe_more forward current found (mem_products_iff.mpr product)]

/-- Where no operator follows, the layers close all that waits. -/
theorem observe_resume_end (forward : Forward tight) (current : s.current = .ok kind)
    (ends : Operator.binary? kind = none) :
    observe (resume tight p e) s = close p.waiting e >>= fun e => pure (e, s) := by
  have layered : Forward (layer products tight) := layer_forward forward
  have layered' : Forward (layer sums (layer products tight)) := layer_forward layered
  have stops (operators : List Operator) : ∀ op ∈ Operator.binary? kind, op ∉ operators := by
    simp [ends]
  simp only [resume, observe_bind, observe_orFail, bind_assoc, pure_bind, ok_bind,
    observe_no_more forward current (stops products), observe_no_more layered current (stops sums),
    observe_no_more layered' current (stops comparisons), Pending.waiting, close_append]
  rfl

end

/-- How far what waits splits before an arriving operator, and what is left with it. -/
theorem Pending.arrive_splits (p : Pending) {op : Operator} (site : Nat)
    (priority : op.priority = 1 ∨ op.priority = 2 ∨ op.priority = 3) :
    ∃ tight loose, p.waiting = tight ++ loose ∧
      (∀ w ∈ tight, op.priority ≤ w.op.priority) ∧ (∀ w ∈ loose, w.op.priority < op.priority) ∧
      ∀ e, (p.arrive op site e >>= fun q => pure q.unfinished) = close tight e >>= fun e =>
        pure ⟨⟨(op, site) :: loose.map fun w => (w.op, w.site)⟩, e :: loose.map Waiting.left⟩ := by
  have products (w : Waiting) (member : w ∈ p.product.toList) : w.op.priority = 3 :=
    p.products_only w (by simpa using member)
  have sums (w : Waiting) (member : w ∈ p.sum.toList) : w.op.priority = 2 :=
    p.sums_only w (by simpa using member)
  have comparisons (w : Waiting) (member : w ∈ p.comparison.toList) : w.op.priority = 1 :=
    p.comparisons_only w (by simpa using member)
  rcases priority with comparison | sum | product
  · refine ⟨p.waiting, [], by simp, ?_, by simp, fun e => ?_⟩
    · intro w member
      have priority := p.priority_of_mem member
      omega
    · simp [Pending.arrive, comparison, unfinished, waiting]
  · refine ⟨p.product.toList ++ p.sum.toList, p.comparison.toList, by simp [waiting], ?_, ?_,
      fun e => ?_⟩
    · intro w member
      rcases List.mem_append.mp member with member | member
      · have priority := products w member
        omega
      · have priority := sums w member
        omega
    · intro w member
      have priority := comparisons w member
      omega
    · simp [Pending.arrive, sum, unfinished, waiting]
  · refine ⟨p.product.toList, p.sum.toList ++ p.comparison.toList, rfl, ?_, ?_, fun e => ?_⟩
    · intro w member
      have priority := products w member
      omega
    · intro w member
      rcases List.mem_append.mp member with member | member
      · have priority := sums w member
        omega
      · have priority := comparisons w member
        omega
    · simp [Pending.arrive, product, unfinished, waiting]

section

variable {inner : Option (Scope → Analysis Expr)} {scope : Scope}

/-- One step of an expression read with a stack: an operand with its signs, and then an operator
arrives or all that waits is closed. -/
theorem observe_operandAndOperator (p : Pending) (s : State) :
    observe (operandAndOperator inner scope p.unfinished) s =
      observe (unary (operand inner scope)) s >>= fun r => match r.2.current with
        | .error cause => .error ⟨cause, r.2.position⟩
        | .ok kind => match Operator.binary? kind with
          | some op => p.arrive op r.2.position r.1 >>= fun q =>
            pure (.inl q.unfinished, r.2.advanced)
          | none => close p.waiting r.1 >>= fun e => pure (.inr e, r.2) := by
  have signs := observe_negations [] p.unfinished.operators.pending s
  simp only [List.map_nil, List.nil_append] at signs
  simp only [operandAndOperator, unary, observe_bind, signs, bind_assoc, pure_bind]
  congr 1
  funext signed
  obtain ⟨sites, t⟩ := signed
  cases read : observe (operand inner scope) t with
  | error fault => rfl
  | ok r =>
    obtain ⟨value, u⟩ := r
    obtain ⟨kind, current⟩ := operand_current (observe_ok_iff.mp read)
    simp only [ok_bind, observe_peek, current]
    cases found : Operator.binary? kind with
    | some op =>
      obtain ⟨tight, loose, split, goes, stays, arrives⟩ :=
        p.arrive_splits u.position (binary?_priority found)
      obtain ⟨before, after⟩ := Pending.before_after split goes stays sites
      have reduced := Pending.reduceAll_tight split sites value
      simp only [observe_bind, observe_advance, pure_bind, observe_orFail, observe_pure, before,
        after, reduced, bind_assoc, OperatorStack.push, map_eq_pure_bind, current, found]
      congr 1
      funext e
      have arrived := congrArg (· >>= fun q => pure (Sum.inl (β := Expr) q, u.advanced)) (arrives e)
      simpa only [bind_assoc, pure_bind] using arrived.symm
    | none =>
      have reduced := Pending.reduceAll_tight (List.append_nil p.waiting).symm sites value
      simp only [observe_bind, observe_orFail, Pending.applicable_all, reduced, bind_assoc,
        pure_bind, map_eq_pure_bind, List.map_nil, observe_pure, current, found]

theorem operandAndOperator_progresses
    (nested : ∀ expression, inner = some expression → ∀ scope, Forward (expression scope)) :
    Progresses (operandAndOperator inner scope) := by
  intro before s after u run
  simp only [operandAndOperator, bind_ok_iff, peek_ok_iff] at run
  obtain ⟨operators, t, signs, value, v, read, word, _, ⟨current, _, rfl⟩, run⟩ := run
  have first := (Forward.repeatUntil negation_forward _ _ _ _ signs).length_le
  have second := (operand_forward nested _ _ _ read).length_le
  cases found : Operator.binary? word.kind with
  | some op =>
    simp only [found, bind_ok_iff, advance_ok_iff, orFail_ok_iff, pure_ok_iff] at run
    obtain ⟨_, _, rfl, _, _, ⟨_, rfl⟩, _, rfl⟩ := run
    have taken : v.advanced.rest.length < v.rest.length :=
      State.Takes.length_lt ⟨current, rfl⟩ (binary?_notEnd found)
    omega
  | none =>
    simp only [found, bind_ok_iff] at run
    obtain ⟨operands, _, _, run⟩ := run
    split at run <;> simp at run

/-- Reading with a stack of operators comes to what the layers come to, whatever waits. -/
theorem observe_stack_eq_layers
    (nested : ∀ expression, inner = some expression → ∀ scope, Forward (expression scope))
    (p : Pending) (s : State) :
    observe (repeatUntil (operandAndOperator inner scope) p.unfinished) s =
      observe (unary (operand inner scope) >>= resume (unary (operand inner scope)) p) s := by
  have tight : Forward (unary (operand inner scope)) := by
    refine Forward.bind (.repeatUntil (fun sites => ?_) _) fun _ =>
      (operand_forward nested).bind fun _ => orFail_forward _
    refine (eat_forward _).bind fun site => ?_
    cases site <;> exact pure_forward _
  -- Each operator takes a token, so the induction is on the readings that are left.
  induction size : s.rest.length using Nat.strong_induction_on generalizing p s with
  | _ size ih =>
    subst size
    rw [observe_repeatUntil (operandAndOperator_progresses nested), observe_operandAndOperator,
      observe_bind, bind_assoc]
    cases read : observe (unary (operand inner scope)) s with
    | error fault => rfl
    | ok r =>
      obtain ⟨e, t⟩ := r
      have run := observe_ok_iff.mp read
      have shorter := (tight _ _ _ run).length_le
      obtain ⟨kind, current⟩ : ∃ kind, t.current = .ok kind := by
        simp only [unary, bind_ok_iff, orFail_ok_iff] at run
        obtain ⟨_, _, _, _, _, operandRun, _, rfl⟩ := run
        exact operand_current operandRun
      simp only [ok_bind, current]
      cases found : Operator.binary? kind with
      | none =>
        rw [observe_resume_end tight current found]
        simp only [bind_assoc, pure_bind]
      | some op =>
        rw [observe_resume_arrive tight current found]
        simp only [bind_assoc, pure_bind]
        cases p.arrive op t.position e with
        | error fault => rfl
        | ok q =>
          have taken : t.advanced.rest.length < t.rest.length :=
            State.Takes.length_lt ⟨current, rfl⟩ (binary?_notEnd found)
          exact ih _ (by omega) q t.advanced rfl

theorem expressionWith_agrees
    (nested : ∀ expression, inner = some expression → ∀ scope, Forward (expression scope)) :
    Agrees (Analysis.expressionWith inner scope) (expressionWith inner scope) := by
  intro s
  exact (observe_stack_eq_layers nested .none s).trans (observe_resume_none _ s)

end

section

variable {f g : Scope → Analysis Expr} (same : ∀ scope, Agrees (f scope) (g scope)) {scope : Scope}

theorem enter_bind_agrees {α : Type} {rest rest' : (Scope → Analysis Expr) → Analysis α}
    {site : Nat} (agrees : Agrees (rest f) (rest' g)) :
    Agrees (enter (some f) site >>= rest) (enter (some g) site >>= rest') :=
  fun s => agrees s

include same

theorem assignment_agrees (name : String) (site : Nat) :
    Agrees (assignment (some f) scope name site) (assignment (some g) scope name site) :=
  .bind (.refl _) fun _ => .bind (.refl _) fun _ => .bind (.refl _) fun _ =>
    enter_bind_agrees (.bind (same scope) fun _ => .refl _)

theorem argument_agrees (before : List (Expr × Nat)) :
    Agrees (argument scope f before) (argument scope g before) :=
  .bind (.refl _) fun _ => .bind (same scope) fun _ => .refl _

theorem arguments_agree : Agrees (arguments (some f) scope) (arguments (some g) scope) := by
  refine .bind (.refl _) fun _ => enter_bind_agrees (.bind (.refl _) fun isEmpty =>
    .bind ?_ fun _ => .refl _)
  split
  · exact .refl _
  · exact .repeatUntil (argument_agrees same) _

theorem libraryArgument_agrees (opening : Nat) (argument : Library.Argument) :
    Agrees (libraryArgument (some f) scope opening argument)
      (libraryArgument (some g) scope opening argument) := by
  cases argument with
  | nothing => exact .refl _
  | text => exact .refl _
  | value ty =>
    exact .bind (.refl _) fun _ => .bind (.refl _) fun _ =>
      enter_bind_agrees (.bind (same scope) fun _ => .refl _)

theorem call_agrees (name : String) (site : Nat) :
    Agrees (call (some f) scope name site) (call (some g) scope name site) := by
  unfold call
  cases Library.ofName? name with
  | some function =>
    exact .bind (.refl _) fun _ => .bind (.refl _) fun _ =>
      .bind (libraryArgument_agrees same _ _) fun _ => .refl _
  | none => exact .bind (.refl _) fun _ => .bind (arguments_agree same) fun _ => .refl _

theorem named_agrees (name : String) (site : Nat) :
    Agrees (named (some f) scope name site) (named (some g) scope name site) := by
  refine .bind (.refl _) fun word => ?_
  split
  · exact assignment_agrees same _ _
  · exact call_agrees same _ _
  · exact .refl _

theorem primary_agrees : Agrees (primary (some f) scope) (primary (some g) scope) := by
  refine .bind (.refl _) fun ⟨kind, site⟩ => ?_
  cases kind with
  | identifier name => exact named_agrees same name site
  | mark mark =>
    cases mark with
    | openParen => exact enter_bind_agrees (.bind (same scope) fun _ => .refl _)
    | _ => exact .refl _
  | _ => exact .refl _

/-- Readers that come to the same make operands that come to the same. -/
theorem operand_agrees : Agrees (operand (some f) scope) (operand (some g) scope) :=
  .bind (primary_agrees same) fun _ => .refl _

omit same in
theorem layer_agrees {operators : List Operator} {tighter tighter' : Analysis Expr}
    (agrees : Agrees tighter tighter') :
    Agrees (layer operators tighter) (layer operators tighter') := by
  refine .bind agrees fun first => .repeatUntil (fun left => ?_) _
  refine .bind (.refl _) fun word => ?_
  split
  · exact .bind (.refl _) fun _ => .bind agrees fun _ => .refl _
  · exact .refl _

theorem expressionWith_nested_agrees :
    Agrees (expressionWith (some f) scope) (expressionWith (some g) scope) := by
  refine layer_agrees (layer_agrees (layer_agrees ?_))
  exact .bind (.refl _) fun _ => .bind (operand_agrees same) fun _ => .refl _

end

/-- Reading with a stack of operators and reading layer by layer come to the same at every depth. -/
theorem expression_agrees (limit : Nat) (scope : Scope) :
    Agrees (Analysis.expression limit scope) (expression limit scope) := by
  induction limit generalizing scope with
  | zero => exact expressionWith_agrees (by simp)
  | succ limit ih =>
    intro s
    calc observe (Analysis.expressionWith (some (Analysis.expression limit)) scope) s
        = observe (expressionWith (some (Analysis.expression limit)) scope) s := by
          refine expressionWith_agrees ?_ s
          rintro _ ⟨rfl⟩ scope
          exact expression_forward limit scope
      _ = observe (expressionWith (some (expression limit)) scope) s :=
          expressionWith_nested_agrees ih s

end Layered

/-- For every limit, scope and state, an expression is read with a stack of operators exactly as it
is read layer by layer: with the same tree, hence the same type and code, and with the same state
behind it, or with the same fault. -/
theorem expression_eq_layered (limit : Nat) (scope : Scope) (s : State) :
    (∀ e t, expression limit scope s = .ok e t ↔ Layered.expression limit scope s = .ok e t) ∧
      ∀ fault, (∃ t, expression limit scope s = .error fault t) ↔
        ∃ t, Layered.expression limit scope s = .error fault t := by
  have agrees := Layered.expression_agrees limit scope s
  refine ⟨fun e t => ?_, fun fault => ?_⟩
  · rw [← observe_ok_iff, ← observe_ok_iff, agrees]
  · rw [← observe_error_iff, ← observe_error_iff, agrees]

end Analysis

end C0
