import C0.Proofs.Scanning

namespace C0

theorem byteLength_append (left right : List Char) :
    byteLength (left ++ right) = byteLength left + byteLength right := by
  induction left with
  | nil => simp [byteLength]
  | cons c left ih => simp [byteLength, ih, Nat.add_assoc]

theorem byteLength_pos {text : List Char} (some : text ≠ []) : 0 < byteLength text :=
  Nat.lt_of_lt_of_le (List.length_pos_iff.mpr some) (length_le_byteLength text)

theorem dropBytes_append (left right : List Char) :
    dropBytes (byteLength left) (left ++ right) = right := by
  induction left with
  | nil =>
    cases right with
    | nil => rfl
    | cons c right => simp [dropBytes, byteLength, Nat.ne_of_gt c.utf8Size_pos]
  | cons c left ih => simp [dropBytes, byteLength, ih]

theorem takeBytes_append (left right : List Char) :
    takeBytes (byteLength left) (left ++ right) = left := by
  induction left with
  | nil =>
    cases right with
    | nil => rfl
    | cons c right => simp [takeBytes, byteLength, Nat.ne_of_gt c.utf8Size_pos]
  | cons c left ih => simp [takeBytes, byteLength, ih]

/-- A span whose ends stand between characters covers the characters between them. -/
theorem Span.slice_append (before used rest : List Char) :
    Span.slice ⟨byteLength before, byteLength before + byteLength used⟩ (before ++ used ++ rest) =
      used := by
  rw [List.append_assoc, Span.slice, dropBytes_append, Span.length, Nat.add_sub_cancel_left,
    takeBytes_append]

/-- The span can be cut out of a source: its ends are in order, lie in the source and stand between
characters. -/
def Span.Fits (span : Span) (source : String) : Prop :=
  span.start ≤ span.stop ∧ span.stop ≤ source.utf8ByteSize ∧
    String.Pos.Raw.IsValid source ⟨span.start⟩ ∧ String.Pos.Raw.IsValid source ⟨span.stop⟩

instance (span : Span) (source : String) : Decidable (span.Fits source) :=
  inferInstanceAs (Decidable (_ ∧ _ ∧ _ ∧ _))

/-- Words of 32 bits keep the ends of the span. -/
def Span.FitsWords (span : Span) : Prop :=
  (UInt32.ofNat span.start).toNat = span.start ∧ (UInt32.ofNat span.stop).toNat = span.stop

theorem Span.Fits.fitsWords {span : Span} {source : String} (fits : span.Fits source)
    (small : source.utf8ByteSize < 2 ^ 32) : span.FitsWords := by
  obtain ⟨ordered, inside, -⟩ := fits
  have stop : span.stop < UInt32.size := Nat.lt_of_le_of_lt inside small
  exact ⟨UInt32.toNat_ofNat_of_lt' (Nat.lt_of_le_of_lt ordered stop), UInt32.toNat_ofNat_of_lt' stop⟩

theorem isValid_byteLength {source : String} {before rest : List Char}
    (split : source.toList = before ++ rest) :
    String.Pos.Raw.IsValid source ⟨byteLength before⟩ := by
  refine String.Pos.Raw.isValid_iff_exists_append.mpr
    ⟨String.ofList before, String.ofList rest, ?_, ?_⟩
  · rw [← String.ofList_append, ← split, String.ofList_toList]
  · rw [← String.toList_ofList (l := before), byteLength_toList, String.ofList_toList]
    rfl

theorem Span.fits_append {source : String} {before used rest : List Char}
    (split : source.toList = before ++ used ++ rest) :
    Span.Fits ⟨byteLength before, byteLength (before ++ used)⟩ source := by
  have total : byteLength (before ++ used) + byteLength rest = source.utf8ByteSize := by
    rw [← byteLength_append, ← split, byteLength_toList]
  refine ⟨?_, Nat.le.intro total, isValid_byteLength (split.trans (List.append_assoc ..)),
    isValid_byteLength split⟩
  rw [byteLength_append]
  exact Nat.le_add_right _ _

end C0
