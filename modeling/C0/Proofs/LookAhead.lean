import C0.Proofs.Reader

namespace C0

/-- What can be asked of a reader of tokens. -/
inductive Call where
  | peek
  | next
  deriving DecidableEq

/-- Whether the reading is a fault. -/
def Lexeme.isFault (lexeme : Lexeme) : Bool :=
  match lexeme.reading with
  | .ok _ => false
  | .error _ => true

namespace Cursor

/-- The lexeme that a call gives, and the reader after the call. -/
def answer (cursor : Cursor) : Call → Lexeme × Cursor
  | .peek => cursor.peek
  | .next => cursor.next

/-- Calls one after the other, each with the lexeme that it gives. -/
def answers (cursor : Cursor) : List Call → List (Call × Lexeme)
  | [] => []
  | call :: calls => (call, (cursor.answer call).1) :: (cursor.answer call).2.answers calls

end Cursor

section

variable (results : Nat → Lexeme)

/-- Where a call leads that finds the result at an index: taking it leads past it, and looking at it
does so only if it is a fault. -/
def Call.indexAfter (index : Nat) : Call → Nat
  | .peek => if (results index).isFault then index + 1 else index
  | .next => index + 1

/-- Where calls lead one after the other. -/
def indexAfter (index : Nat) (calls : List Call) : Nat :=
  calls.foldl (Call.indexAfter results) index

/-- Calls one after the other, each with the index of the result that it finds. -/
def deliveries (index : Nat) : List Call → List (Call × Nat)
  | [] => []
  | call :: calls => (call, index) :: deliveries (call.indexAfter results index) calls

end

section

variable {results : Nat → Lexeme}

theorem le_indexAfter (index : Nat) (call : Call) : index ≤ call.indexAfter results index := by
  cases call with
  | next => exact Nat.le_succ _
  | peek =>
    rw [Call.indexAfter]
    split
    · exact Nat.le_succ _
    · exact Nat.le_refl _

theorem le_indexAfter_all (index : Nat) (calls : List Call) :
    index ≤ indexAfter results index calls := by
  induction calls generalizing index with
  | nil => exact Nat.le_refl _
  | cons call calls ih => exact Nat.le_trans (le_indexAfter index call) (ih _)

theorem indexAfter_of_fault {index : Nat} (fault : (results index).isFault = true) (call : Call) :
    call.indexAfter results index = index + 1 := by
  cases call with
  | next => rfl
  | peek => rw [Call.indexAfter, if_pos fault]

theorem indexAfter_le (index : Nat) (call : Call) :
    call.indexAfter results index ≤ index + 1 := by
  cases call with
  | next => exact Nat.le_refl _
  | peek =>
    rw [Call.indexAfter]
    split
    · exact Nat.le_refl _
    · exact Nat.le_succ _

/-- A fault is delivered once when the calls pass it, and not otherwise. -/
theorem count_fault {fault : Nat} (isFault : (results fault).isFault = true) (index : Nat)
    (calls : List Call) :
    ((deliveries results index calls).map Prod.snd).count fault =
      if index ≤ fault ∧ fault < indexAfter results index calls then 1 else 0 := by
  induction calls generalizing index with
  | nil =>
    rw [if_neg (by rintro ⟨le, less⟩; exact absurd less (Nat.not_lt.mpr le))]
    rfl
  | cons call calls ih =>
    have later : call.indexAfter results index ≤
        indexAfter results (call.indexAfter results index) calls := le_indexAfter_all _ calls
    have goes : indexAfter results index (call :: calls) =
        indexAfter results (call.indexAfter results index) calls := rfl
    rw [deliveries, List.map_cons, List.count_cons, ih, goes]
    by_cases here : index = fault
    · subst here
      have passes := indexAfter_of_fault isFault call
      rw [passes] at later ⊢
      rw [if_neg (by omega), if_pos (by simp), if_pos (by omega)]
    · have least : index ≤ call.indexAfter results index := le_indexAfter index call
      have most : call.indexAfter results index ≤ index + 1 := indexAfter_le index call
      have unchanged : (call.indexAfter results index ≤ fault ∧
          fault < indexAfter results (call.indexAfter results index) calls) ↔
          index ≤ fault ∧ fault < indexAfter results (call.indexAfter results index) calls := by
        omega
      simp only [unchanged, beq_iff_eq, here, if_false, Nat.add_zero]

/-- Where nothing is a fault, the results are taken one after the other, whatever is looked at. -/
theorem taken_of_no_fault (faultless : ∀ index, (results index).isFault = false) (index : Nat)
    (calls : List Call) :
    ((deliveries results index calls).filter (·.1 = .next)).map Prod.snd =
      List.range' index (calls.count .next) := by
  induction calls generalizing index with
  | nil => rfl
  | cons call calls ih =>
    cases call with
    | next =>
      have rest := ih (index + 1)
      simp only [deliveries, Call.indexAfter, decide_true, List.filter_cons_of_pos,
        List.map_cons, rest, List.count_cons_self]
      rfl
    | peek =>
      have stays : Call.peek.indexAfter results index = index := by
        rw [Call.indexAfter, if_neg (by simp [faultless index])]
      simpa [deliveries, stays] using ih index

end

namespace Cursor.Before

variable {source : String} {index : Nat} {cursor : Cursor}

/-- A fault is not held back. -/
theorem peek_fault {cause : Cause} (before : cursor.Before source index)
    (failed : (scanResult source index).reading = .error cause) :
    cursor.peek = (scanResult source index, (Cursor.ofSource source).after (index + 1)) := by
  cases before with
  | free =>
    rw [after_free source (index + 1)]
    simp only [Cursor.peek, (after_ofSource source index).1, scan_after source index, failed]
  | held found =>
    rw [failed] at found
    cases found

/-- A call finds the result that the reader stands before. -/
theorem answer (before : cursor.Before source index) (call : Call) :
    (cursor.answer call).1 = scanResult source index ∧
      (cursor.answer call).2.Before source (call.indexAfter (scanResult source) index) := by
  cases call with
  | next =>
    rw [Cursor.answer, before.next]
    exact ⟨rfl, .free⟩
  | peek =>
    rw [Cursor.answer, Call.indexAfter, Lexeme.isFault]
    cases found : (scanResult source index).reading with
    | ok kind =>
      obtain ⟨held, same, before'⟩ := before.peek found
      rw [same]
      exact ⟨rfl, before'⟩
    | error cause =>
      rw [before.peek_fault found]
      exact ⟨rfl, .free⟩

theorem answers (before : cursor.Before source index) (calls : List Call) :
    cursor.answers calls = (deliveries (scanResult source) index calls).map
      fun delivery => (delivery.1, scanResult source delivery.2) := by
  induction calls generalizing cursor index with
  | nil => rfl
  | cons call calls ih =>
    obtain ⟨here, later⟩ := before.answer call
    rw [Cursor.answers, ih later, here]
    rfl

end Cursor.Before

/-- Behind the end of a source the end is found again. -/
theorem scanResult_eof {source : String} {index later : Nat}
    (last : (scanResult source index).reading = .ok .eof) (le : index ≤ later) :
    scanResult source later = ⟨⟨source.utf8ByteSize, source.utf8ByteSize⟩, .ok .eof⟩ := by
  rw [← result_ofSource] at last ⊢
  obtain ⟨before, gap, used, rest, split, tile, -⟩ := result_tile source later
  rw [tile.eq_eof (result_eof source last le), ← split, byteLength_toList]

/-- Without a fault among the lexemes of a source, what is found by one scan after the other are
its lexemes, and then the end again and again. -/
theorem scanResult_of_no_fault {source : String}
    (faultless : ∀ lexeme ∈ lexemes source, lexeme.isFault = false) (index : Nat) :
    scanResult source index =
      (lexemes source)[index]?.getD ⟨⟨source.utf8ByteSize, source.utf8ByteSize⟩, .ok .eof⟩ := by
  obtain ⟨listed, isLast, -⟩ := lexemes_eq_scanResult source
  by_cases inside : index < tokenCount source + 1
  · rw [listed, List.getElem?_map, List.getElem?_range inside]
    rfl
  · have member : scanResult source (tokenCount source) ∈ lexemes source := by
      rw [listed]
      exact List.mem_map_of_mem (by simp)
    have ends : (scanResult source (tokenCount source)).reading = .ok .eof := by
      have proper := faultless _ member
      unfold Lexeme.isLast Lexeme.isFault at *
      cases reading : (scanResult source (tokenCount source)).reading with
      | error cause => simp [reading] at proper
      | ok kind => cases kind <;> simp [reading] at isLast ⊢
    rw [scanResult_eof ends (by omega), List.getElem?_eq_none]
    · rfl
    · rw [length_lexemes]
      omega

/-- Looking ahead does not change what is read, apart from faults, which it delivers itself. Calls on
a reader of a source give what one scan after the other finds: taking gives the next result and goes
past it, and looking gives the next result and goes past it only if it is a fault. So a fault that
the calls go past is delivered exactly once, and in a source without a fault the lexemes are taken
in their order, and then the end again and again, wherever one looks ahead. Words of 32 bits keep
the ends of each result of a source of less than two to the 32 bytes. -/
theorem answers_ofSource (source : String) (calls : List Call) :
    (Cursor.ofSource source).answers calls = (deliveries (scanResult source) 0 calls).map
      (fun delivery => (delivery.1, scanResult source delivery.2)) ∧
    (∀ index, (scanResult source index).isFault = true →
      ((deliveries (scanResult source) 0 calls).map Prod.snd).count index =
        if index < indexAfter (scanResult source) 0 calls then 1 else 0) ∧
    ((∀ lexeme ∈ lexemes source, lexeme.isFault = false) →
      (((Cursor.ofSource source).answers calls).filter (·.1 = .next)).map Prod.snd =
        (List.range (calls.count .next)).map fun index => (lexemes source)[index]?.getD
          ⟨⟨source.utf8ByteSize, source.utf8ByteSize⟩, .ok .eof⟩) ∧
    (source.utf8ByteSize < 2 ^ 32 →
      ∀ answer ∈ (Cursor.ofSource source).answers calls, answer.2.span.FitsWords) := by
  have start : (Cursor.ofSource source).Before source 0 := .free
  refine ⟨start.answers calls, fun index fault => ?_, fun faultless => ?_,
    fun small answer given => ?_⟩
  · rw [count_fault fault]
    simp only [Nat.zero_le, true_and]
  · have listed := scanResult_of_no_fault faultless
    have proper (index : Nat) : (scanResult source index).isFault = false := by
      rw [listed]
      cases found : (lexemes source)[index]? with
      | none => rfl
      | some lexeme => exact faultless lexeme (List.mem_of_getElem? found)
    rw [start.answers, List.filter_map, List.map_map, List.range_eq_range',
      ← taken_of_no_fault proper 0 calls, List.map_map]
    exact List.map_congr_left fun delivery _ => listed delivery.2
  · rw [start.answers] at given
    obtain ⟨delivery, -, rfl⟩ := List.mem_map.mp given
    exact (locate_fits source delivery.2).fitsWords small

/-- A fault that is looked at, and tokens that are looked at more than once. -/
theorem answers_ofSource_mixed :
    (scanResult "! x" 0).isFault = true ∧
    ((deliveries (scanResult "! x") 0 [.peek, .next]).map Prod.snd).count 0 =
      (if 0 < indexAfter (scanResult "! x") 0 [.peek, .next] then 1 else 0) ∧
    (∀ lexeme ∈ lexemes "x y", lexeme.isFault = false) ∧
    (((Cursor.ofSource "x y").answers [.peek, .peek, .next, .next, .peek, .next, .next]).filter
      (·.1 = .next)).map Prod.snd = (List.range 4).map fun index =>
        (lexemes "x y")[index]?.getD ⟨⟨3, 3⟩, .ok .eof⟩ := by
  have fault : (scanResult "! x" 0).isFault = true := by decide +kernel
  have faultless : ∀ lexeme ∈ lexemes "x y", lexeme.isFault = false := by decide +kernel
  exact ⟨fault, (answers_ofSource "! x" [.peek, .next]).2.1 0 fault, faultless,
    (answers_ofSource "x y" _).2.2.1 faultless⟩

end C0
