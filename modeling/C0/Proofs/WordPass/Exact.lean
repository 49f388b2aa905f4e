import C0.Proofs.WordPass.Payment

namespace C0

/-- A parameter that is found has a place among the others. -/
theorem Signature.param?_lt {signature : Signature} {name : String} {place : Nat × Param}
    (found : signature.param? name = some place) : place.1 < signature.params.length := by
  obtain ⟨⟨param, index⟩, listed, rfl⟩ := Option.map_eq_some_iff.mp found
  exact (List.mem_zipIdx' (List.mem_of_find?_eq_some listed)).1

namespace WordPass

open SinglePass

variable {α β : Type} {source : String} {pre pre' : Bench → Prop} {mid post : α → Bench → Prop}

/-- A word keeps a number that has at most 32 bits. -/
theorem keep_words {number : Nat} (fits : number < 2 ^ 32) : keep .words number = pure number := by
  have kept : (UInt32.ofNat number).toNat = number := UInt32.toNat_ofNat_of_lt' fits
  simp only [keep, Keeping.words, kept, if_true]

/-- A word with a sign keeps the offset of a branch between positions below two to the 31. -/
theorem keepOffset_words {site target : Nat} (site_lt : site < 2 ^ 31) (target_lt : target < 2 ^ 31) :
    keepOffset .words site target = pure () := by
  have kept : (Int32.ofInt ((target : Int) - site - 1)).toInt = (target : Int) - site - 1 :=
    Int32.toInt_ofInt_of_le (by omega) (by omega)
  have leads : (site : Int) + 1 + ((target : Int) - site - 1) = target := by omega
  simp only [keepOffset, Keeping.words, kept]
  exact if_pos ⟨trivial, leads⟩

/-- The place of a parameter has at most 32 bits if the number of parameters has. -/
theorem param?_words {signature : Signature} {name : String}
    (short : signature.params.length < 2 ^ 32) :
    param? .words signature name = pure (signature.param? name) := by
  unfold param?
  cases found : signature.param? name with
  | none => rfl
  | some place =>
    have inside := Signature.param?_lt found
    simp only [keep_words (inside.trans short), pure_bind]

/-- A pass that keeps its numbers in words does what a pass does that keeps them as they are, where
the source has less than two to the 30 bytes. Where it succeeds, what is told holds, however large
the source is. -/
structure Exact (source : String) (pre : Bench → Prop) (words step : SinglePass α)
    (post : α → Bench → Prop) : Prop where
  establishes : Establishes pre step post
  same : source.utf8ByteSize < 2 ^ 30 → ∀ b, pre b → words b = step b

namespace Exact

variable {words step : SinglePass α} {words' step' : α → SinglePass β} {post' : β → Bench → Prop}

theorem bind (first : Exact source pre words step mid)
    (rest : ∀ x, Exact source (mid x) (words' x) (step' x) post') :
    Exact source pre (words >>= words') (step >>= step') post' where
  establishes := first.establishes.bind fun x => (rest x).establishes
  same small b starts := by
    rw [bind_eq, bind_eq, first.same small b starts]
    cases ran : step b with
    | ok x b' => exact (rest x).same small b' (first.establishes b x b' starts ran)
    | error stop b' => rfl

/-- A step that keeps no number. -/
theorem self (establishes : Establishes pre step post) : Exact source pre step step post :=
  ⟨establishes, fun _ _ _ => rfl⟩

theorem pure {x : α} (holds : ∀ b, pre b → post x b) : Exact source pre (pure x) (pure x) post :=
  .self (.pure holds)

theorem weaken (exact : Exact source pre words step post) (fewer : ∀ b, pre' b → pre b)
    {post' : α → Bench → Prop} (more : ∀ x b, post x b → post' x b) :
    Exact source pre' words step post' :=
  ⟨exact.establishes.weaken fewer more, fun small b starts => exact.same small b (fewer b starts)⟩

theorem before (exact : Exact source pre words step post) (fewer : ∀ b, pre' b → pre b) :
    Exact source pre' words step post :=
  exact.weaken fewer fun _ _ => id

theorem after (exact : Exact source pre words step post) {post' : α → Bench → Prop}
    (more : ∀ x b, post x b → post' x b) : Exact source pre words step post' :=
  exact.weaken (fun _ => id) more

/-- A step that keeps no number is the same in both. -/
theorem self_bind (establishes : Establishes pre step mid)
    (rest : ∀ x, Exact source (mid x) (words' x) (step' x) post') :
    Exact source pre (step >>= words') (step >>= step') post' :=
  (self establishes).bind rest

theorem refuse_bind {bad : Prop} [Decidable bad] {cause : Cause} {span : Span}
    {words step : Unit → SinglePass α} (rest : Exact source pre (words ()) (step ()) post) :
    Exact source pre (refuse bad cause span >>= words) (refuse bad cause span >>= step) post :=
  self_bind .refuse fun _ => rest.before fun _ holds => holds.2

/-- Something is known that does not depend on the bench. -/
theorem given {known : Prop} (exact : known → Exact source pre words step post) :
    Exact source (fun b => known ∧ pre b) words step post where
  establishes b x b' starts := (exact starts.1).establishes b x b' starts.2
  same small b starts := (exact starts.1).same small b starts.2

/-- Something that does not depend on the bench follows from what is known of it. -/
theorem knowing {known : Prop} (tells : ∀ b, pre b → known)
    (exact : known → Exact source pre words step post) : Exact source pre words step post where
  establishes b x b' starts := (exact (tells b starts)).establishes b x b' starts
  same small b starts := (exact (tells b starts)).same small b starts

theorem map {f : α → β} (exact : Exact source pre words step fun x => post' (f x)) :
    Exact source pre (f <$> words) (f <$> step) post' := by
  rw [map_eq_pure_bind, map_eq_pure_bind]
  exact exact.bind fun x => .pure fun _ => id

/-- Both passes look at what they have made so far. -/
theorem get_bind {words step : Bench → SinglePass α}
    (rest : ∀ found, pre found → Exact source (fun b => b = found ∧ pre b) (words found)
      (step found) post) :
    Exact source pre (get >>= words) (get >>= step) post where
  establishes b x b' starts := (rest b starts).establishes b x b' ⟨rfl, starts⟩
  same small b starts := (rest b starts).same small b ⟨rfl, starts⟩

/-- A number is kept. -/
theorem keep_bind {number : Nat} {words step : Nat → SinglePass α}
    (fits : source.utf8ByteSize < 2 ^ 30 → number < 2 ^ 32)
    (rest : Exact source pre (words number) (step number) post) :
    Exact source pre (keep .words number >>= words) (keep .exact number >>= step) post where
  establishes := by
    rw [keep_exact, pure_bind]
    exact rest.establishes
  same small b starts := by
    rw [keep_words (fits small), keep_exact, pure_bind, pure_bind]
    exact rest.same small b starts

theorem keep {number : Nat} (fits : source.utf8ByteSize < 2 ^ 30 → number < 2 ^ 32) :
    Exact source pre (SinglePass.keep .words number) (SinglePass.keep .exact number)
      fun _ => pre := by
  rw [← bind_pure (SinglePass.keep .words number), ← bind_pure (SinglePass.keep .exact number)]
  exact keep_bind fits (.pure fun _ => id)

/-- The place of a parameter is kept. -/
theorem param?_bind {words step : Option (Nat × Param) → SinglePass α} {signature : Signature}
    {name : String} (short : signature.params.length ≤ source.utf8ByteSize)
    (rest : Exact source pre (words (signature.param? name)) (step (signature.param? name)) post) :
    Exact source pre (param? .words signature name >>= words)
      (param? .exact signature name >>= step) post where
  establishes := by
    rw [param?_exact, pure_bind]
    exact rest.establishes
  same small b starts := by
    rw [param?_words (by omega), param?_exact, pure_bind, pure_bind]
    exact rest.same small b starts

/-- What every repetition keeps holds as long as a step is repeated. -/
theorem repeatUntil {words step : α → SinglePass (α ⊕ β)} {again : α → Bench → Prop}
    {done : β → Bench → Prop}
    (steps : ∀ x, Exact source (again x) (words x) (step x) (Sum.elim again done)) (x : α) :
    Exact source (again x) (repeatUntil words x) (repeatUntil step x) done := by
  have bounded (n : Nat) (x : α) :
      Exact source (again x) (repeatAtMost words n x) (repeatAtMost step n x) done := by
    induction n generalizing x with
    | zero => exact .self .alarm
    | succ n ih =>
      refine (steps x).bind fun result => ?_
      cases result with
      | inl x => exact ih x
      | inr y => exact .pure fun _ => id
  exact .get_bind fun _ _ => (bounded _ x).before fun _ holds => holds.2

end Exact

section

variable {depth code made : Nat}

/-- A token is looked at, and tells how to go on. -/
theorem peek_bind {words step : SourceToken → SinglePass α}
    (rest : ∀ token, Exact source (Paid source depth code made) (words token) (step token) post) :
    Exact source (Paid source depth code made) (peek >>= words) (peek >>= step) post :=
  .self_bind peek_pays fun token => (rest token).before fun _ holds => holds.2

/-- The depth is no more than the source has bytes, so it fits. -/
theorem enter_exact {limit : Nat} {span : Span} (enough : 1 ≤ made) :
    Exact source (Paid source depth code made) (enter .words limit span) (enter .exact limit span)
      fun _ => Paid source (depth + 1) code (made - 1) := by
  refine .get_bind fun _ _ => .refuse_bind (Exact.before ?_ fun _ holds => holds.2)
  refine .self_bind (deeper_pays enough) fun _ => .get_bind fun found paid => ?_
  have counted := paid.counted
  have bytes := paid.weight_le
  have deep := paid.deep
  exact .keep_bind (fun small => by omega) (.pure fun _ holds => holds.2)

/-- An entry of the directory is paid for. -/
theorem register_exact {entry : Entry} (enough : 1 ≤ made) :
    Exact source (Paid source depth code made) (register .words entry) (register .exact entry)
      fun _ => Paid source depth code (made - 1) := by
  have registered : Establishes (Paid source depth code made) (modifyGet fun b => b.register entry)
      fun address b => address < source.utf8ByteSize ∧ Paid source depth code (made - 1) b := by
    refine .modifyGet fun b paid => ?_
    have counted := paid.counted
    have bytes := paid.weight_le
    have entries := b.directory.size_register entry
    have address := b.directory.register_lt entry
    unfold Bench.register
    refine ⟨by dsimp only; omega, { paid with counted := ?_ }⟩
    change _ ≤ b.weight
    dsimp only
    omega
  exact .self_bind registered fun address => .given fun less => .keep fun small => by omega

/-- A slot is paid for. Globals are counted among the symbols. -/
theorem allocate_exact {rank : Nat} (enough : 1 ≤ made) :
    Exact source (Paid source depth code made) (allocate .words rank) (allocate .exact rank)
      fun _ => Paid source depth code (made - 1) := by
  have allocated : Establishes (Paid source depth code made) (modifyGet fun b => b.allocate rank)
      fun slot b => slot ≤ source.utf8ByteSize ∧ Paid source depth code (made - 1) b := by
    refine .modifyGet fun b paid => ?_
    have counted := paid.counted
    have bytes := paid.weight_le
    unfold Bench.allocate
    split
    · have globals : b.symbols.globalCount ≤ b.symbols.size := List.length_filter_le _ _
      exact ⟨by dsimp only; omega, paid.less (Nat.le_refl _) (by omega)⟩
    · refine ⟨by dsimp only [Frame.allocate]; omega, { paid with counted := ?_ }⟩
      change _ ≤ b.weight
      dsimp only [Frame.allocate]
      omega
  refine .self_bind allocated fun slot => .given fun least => .get_bind fun found paid => ?_
  have counted := paid.counted
  have bytes := paid.weight_le
  refine .keep_bind (fun small => by omega) ?_
  exact (Exact.keep fun small => by omega).before fun _ holds => holds.2

/-- The distance between two places in the code fits into a word with its sign. -/
theorem patch_exact {site target : Nat} (site_lt : site < 2 * source.utf8ByteSize)
    (target_le : target ≤ 2 * source.utf8ByteSize) :
    Exact source (Paid source depth code made) (patch .words site target)
      (patch .exact site target) fun _ => Paid source depth code made where
  establishes := by
    simp only [patch, keepOffset_exact, pure_bind]
    exact redraw_pays .patch
  same small b paid := by
    rw [patch, patch, keepOffset_words (by omega) (by omega), keepOffset_exact]

theorem patchAll_exact {sites : List Nat} {target : Nat}
    (sites_lt : ∀ site ∈ sites, site < 2 * source.utf8ByteSize)
    (target_le : target ≤ 2 * source.utf8ByteSize) :
    Exact source (Paid source depth code made) (patchAll .words sites target)
      (patchAll .exact sites target) fun _ => Paid source depth code made where
  establishes := by
    rw [SinglePass.patchAll_exact]
    exact redraw_pays .patchAll
  same small b paid := by
    have kept : sites.forM (keepOffset .words · target) = pure () := by
      induction sites with
      | nil => rfl
      | cons site sites ih =>
        have here := sites_lt site (.head _)
        rw [List.forM, keepOffset_words (by omega) (by omega), pure_bind]
        exact ih fun site member => sites_lt site (.tail _ member)
    rw [SinglePass.patchAll_exact, patchAll, kept, pure_bind]

end

end WordPass

end C0
