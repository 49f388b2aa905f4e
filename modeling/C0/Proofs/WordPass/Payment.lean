import C0.Proofs.Reading.Weight
import C0.Proofs.SinglePass.Establishes
import C0.Proofs.SinglePass.Statement

namespace C0

/-- The tokens that scans of a source find weigh no more than it has bytes, also behind the end. -/
theorem scanned_weight (source : String) (count : Nat) :
    ((List.range count).map fun i => weightOf (scanResult source i).reading).sum ≤
      source.utf8ByteSize := by
  have weighed (scanner : Scanner) :
      ((List.range count).map fun i => weightOf (scanner.results i).reading).sum ≤
        scanner.rest.length := by
    induction count generalizing scanner with
    | zero => exact Nat.zero_le _
    | succ count ih =>
      have taken := scanner.scan_length
      have later := ih scanner.scan.2
      have split :
          ((List.range (count + 1)).map fun i => weightOf (scanner.results i).reading).sum =
            weightOf scanner.scan.1.reading + ((List.range count).map fun i =>
              weightOf (scanner.scan.2.results i).reading).sum := by
        rw [List.range_succ_eq_map, List.map_cons, List.map_map, List.sum_cons]
        rfl
      omega
  have bytes := length_le_byteLength source.toList
  rw [byteLength_toList] at bytes
  exact Nat.le_trans (weighed (.ofSource source)) bytes

/-- The weight of the tokens that were taken. -/
def Bench.weight (b : Bench) : Nat :=
  (b.taken.map fun lexeme => weightOf lexeme.reading).sum

/-- The address of an entry is below the size of the directory with it. -/
theorem Directory.register_lt (directory : Directory) (entry : Entry) :
    (directory.register entry).1 < (directory.register entry).2.size := by
  unfold Directory.register
  cases found : directory.address? entry with
  | some address => exact (List.idxOf?_eq_some_iff.mp found).1
  | none => simp [Directory.size]

/-- What was made so far is paid for by the tokens that were taken, with something left: a unit of
weight pays for two instructions, and for one entry of the directory, one symbol, one slot or one
level. -/
structure Paid (source : String) (depth code made : Nat) (b : Bench) : Prop where
  cursor : b.cursor.Before source b.taken.length
  taken : b.taken = (List.range b.taken.length).map (scanResult source)
  deep : b.desk.depth = depth
  written : b.desk.target.nextPosition + code ≤ 2 * b.weight
  counted : b.directory.size + b.symbols.size + b.frame.locals + depth + made ≤ b.weight
  params : b.desk.target.params.length ≤ source.utf8ByteSize
  jumps : ∀ loop ∈ b.desk.loops, ∀ site ∈ loop.jumps.all, site < 2 * source.utf8ByteSize

namespace Paid

variable {source : String} {depth code made code' made' : Nat} {b : Bench}

/-- What is left in the source is part of the source. -/
theorem weight_le (paid : Paid source depth code made b) : b.weight ≤ source.utf8ByteSize := by
  have weighed := scanned_weight source b.taken.length
  rw [Bench.weight, paid.taken, List.map_map]
  simpa [Function.comp_def] using weighed

/-- Less can be left than there is. -/
theorem less (paid : Paid source depth code made b) (codeLess : code' ≤ code)
    (madeLess : made' ≤ made) : Paid source depth code' made' b :=
  { paid with
    written := Nat.le_trans (Nat.add_le_add_left codeLess _) paid.written
    counted := Nat.le_trans (Nat.add_le_add_left madeLess _) paid.counted }

/-- A token was taken, and pays with its weight. -/
theorem advanced (paid : Paid source depth code made b) {kind : Kind}
    (found : (scanResult source b.taken.length).reading = .ok kind) :
    Paid source depth (code + 2 * kind.weight) (made + kind.weight) { b with
      cursor := (Cursor.ofSource source).after (b.taken.length + 1)
      taken := b.taken ++ [scanResult source b.taken.length] } := by
  have weight : ((b.taken ++ [scanResult source b.taken.length]).map
      fun lexeme => weightOf lexeme.reading).sum = b.weight + kind.weight := by
    simp [Bench.weight, found, weightOf]
  have written := paid.written
  have counted := paid.counted
  refine { paid with cursor := ?_, taken := ?_, written := ?_, counted := ?_ }
  · simpa using .free
  · conv_rhs => rw [List.length_append, List.length_singleton, List.range_succ, List.map_append,
      ← paid.taken]
    rfl
  all_goals rw [Bench.weight, weight]; dsimp only; omega

/-- Symbols that go out of scope give nothing back. -/
theorem dropped (paid : Paid source depth code made b) (rank : Nat) :
    Paid source depth code made { b with symbols := b.symbols.dropRank rank } := by
  have fewer : (b.symbols.dropRank rank).size ≤ b.symbols.size := List.length_filter_le _ _
  have counted := paid.counted
  refine { paid with counted := ?_ }
  change _ ≤ b.weight
  dsimp only
  omega

/-- A branch that stands in the code may wait for the end of the loop. -/
theorem noted (paid : Paid source depth code made b) (jump : Jump) {site : Nat}
    (site_lt : site < 2 * source.utf8ByteSize) :
    Paid source depth code made { b with desk := b.desk.note (.one jump site) } := by
  have inside (loops : List OpenLoop)
      (bounded : ∀ loop ∈ loops, ∀ other ∈ loop.jumps.all, other < 2 * source.utf8ByteSize) :
      ∀ loop ∈ loops.modifyHead fun loop =>
          { loop with jumps := loop.jumps.append (.one jump site) },
        ∀ other ∈ loop.jumps.all, other < 2 * source.utf8ByteSize := by
    intro loop member other listed
    cases loops with
    | nil => cases member
    | cons head tail =>
      rcases List.mem_cons.mp member with rfl | later
      · rcases Jumps.mem_all_append.mp listed with old | new
        · exact bounded head (.head _) other old
        · have same : other = site := by
            cases jump <;> simpa [Jumps.one, Jumps.all] using new
          exact same ▸ site_lt
      · exact bounded loop (.tail _ later) other listed
  exact { paid with jumps := inside _ paid.jumps }

theorem openLoop (paid : Paid source depth code made b) (recheck : Nat) :
    Paid source depth code made { b with desk := b.desk.openLoop recheck } := by
  refine { paid with jumps := ?_ }
  rintro loop (_ | ⟨_, member⟩)
  · simp
  · exact paid.jumps loop member

/-- The branches that waited for the end of a loop stand in the code. -/
theorem closeLoop (paid : Paid source depth code made b) {recheck : Nat} {jumps : Jumps}
    {desk : Desk} (closed : b.desk.closeLoop recheck = .ok (jumps, desk)) :
    (∀ site ∈ jumps.all, site < 2 * source.utf8ByteSize) ∧
      Paid source depth code made { b with desk } := by
  have bounded := paid.jumps
  unfold Desk.closeLoop at closed
  cases loops : b.desk.loops with
  | nil =>
    rw [loops] at closed
    cases closed
  | cons loop outer =>
    rw [loops] at closed bounded
    dsimp only at closed
    split at closed
    · cases closed
      exact ⟨bounded loop (.head _), { paid with
        jumps := fun other member => bounded other (.tail _ member) }⟩
    · cases closed

/-- The desk is another one that counts as much. -/
theorem redrawn (paid : Paid source depth code made b) {desk : Desk}
    (same : b.desk.Retargeted desk) : Paid source depth code made { b with desk } :=
  { paid with
    deep := same.depth.trans paid.deep
    written := by rw [same.size]; exact paid.written
    params := by rw [same.signature]; exact paid.params
    jumps := by rw [same.loops]; exact paid.jumps }

end Paid

namespace SinglePass

variable {α β : Type} {source : String} {pre pre' : Bench → Prop}

section

variable {depth code made : Nat}

/-- The next token is known. -/
def Faces (source : String) (kind : Kind) (b : Bench) : Prop :=
  (scanResult source b.taken.length).reading = .ok kind

/-- A look is free. -/
theorem peek_pays : Establishes (Paid source depth code made) peek
    fun token b => Faces source token.kind b ∧ Paid source depth code made b := by
  intro b token b' paid done
  unfold peek at done
  cases found : (scanResult source b.taken.length).reading with
  | error cause =>
    have seen := paid.cursor.peek_error found
    simp only [seen, found] at done
    cases done
  | ok kind =>
    obtain ⟨held, seen, stands⟩ := paid.cursor.peek found
    simp only [seen, found] at done
    cases done
    exact ⟨found, { paid with cursor := stands }⟩

/-- A token that is taken pays for two instructions and one number for each of its units. -/
theorem next_pays : Establishes (Paid source depth code made) next fun token =>
    Paid source depth (code + 2 * token.kind.weight) (made + token.kind.weight) := by
  intro b token b' paid done
  unfold next at done
  rw [paid.cursor.next] at done
  cases found : (scanResult source b.taken.length).reading with
  | error cause =>
    simp only [found] at done
    cases done
  | ok kind =>
    simp only [found] at done
    cases done
    exact paid.advanced found

/-- A token that was looked at is taken. -/
theorem next_faced {kind : Kind} :
    Establishes (fun b => Faces source kind b ∧ Paid source depth code made b) next fun _ =>
      Paid source depth (code + 2 * kind.weight) (made + kind.weight) := by
  rintro b token b' ⟨faces, paid⟩ done
  unfold next at done
  rw [paid.cursor.next] at done
  simp only [show (scanResult source b.taken.length).reading = .ok kind from faces] at done
  cases done
  exact paid.advanced faces

theorem check_pays (kind : Kind) : Establishes (Paid source depth code made) (check kind)
    fun _ => Paid source depth code made :=
  peek_pays.bind fun _ => .pure fun _ holds => holds.2

/-- A token pays with what is known of its weight. -/
theorem expect_pays (weight : Nat) {kind : Kind} (known : weight ≤ kind.weight) :
    Establishes (Paid source depth code made) (expect kind)
      fun _ => Paid source depth (code + 2 * weight) (made + weight) := by
  refine next_pays.bind fun token => Establishes.refuse.bind fun _ => .pure ?_
  rintro b ⟨same, paid⟩
  rw [not_not.mp same] at paid
  exact paid.less (by omega) (by omega)

/-- A token that may be missing pays if it is there. -/
theorem eat_pays (weight : Nat) {kind : Kind} (known : weight ≤ kind.weight) :
    Establishes (Paid source depth code made) (eat kind) fun
      | some _ => Paid source depth (code + 2 * weight) (made + weight)
      | none => Paid source depth code made := by
  unfold eat check
  simp only [bind_assoc, pure_bind]
  refine peek_pays.bind fun token => ?_
  by_cases same : token.kind = kind
  · simp only [same, beq_self_eq_true, if_true]
    exact next_faced.bind fun _ => .pure fun _ paid => paid.less (by omega) (by omega)
  · simp only [beq_eq_false_iff_ne.mpr same, Bool.false_eq_true, if_false]
    exact .pure fun _ holds => holds.2

theorem expectIdentifier_pays : Establishes (Paid source depth code made) expectIdentifier
    fun _ => Paid source depth (code + 2) (made + 1) := by
  refine next_pays.bind fun token => ?_
  split
  next name is =>
    rw [is]
    exact slice_keeps.bind fun _ => .pure fun _ => id
  next => exact .fail

theorem expectType_pays : Establishes (Paid source depth code made) expectType
    fun _ => Paid source depth (code + 2) (made + 1) := by
  refine next_pays.bind fun token => ?_
  split
  next ty is =>
    rw [is]
    exact .pure fun _ => id
  next => exact .fail

theorem expectValueType_pays : Establishes (Paid source depth code made) expectValueType
    fun _ => Paid source depth (code + 2) (made + 1) :=
  expectType_pays.bind fun _ => .refuse_bind (.pure fun _ => id)

/-- Code that is written has to be paid for. -/
theorem write_pays (length : Nat) {written : List Instruction} (short : written.length ≤ length)
    (enough : length ≤ code) :
    Establishes (Paid source depth code made) (write written)
      fun _ => Paid source depth (code - length) made := by
  refine .onDesk fun b _ desk paid done => ?_
  cases done
  have before := paid.written
  refine { paid with written := ?_ }
  simp only [Desk.nextPosition_write, Bench.weight] at before ⊢
  omega

/-- A branch stands in the code that is paid for. -/
theorem placeholder_pays (enough : 1 ≤ code) :
    Establishes (Paid source depth code made) placeholder fun site b =>
      site < 2 * source.utf8ByteSize ∧ Paid source depth (code - 1) made b := by
  refine .onDesk fun b site desk paid done => ?_
  cases done
  have before := paid.written
  have bytes := paid.weight_le
  refine ⟨?_, { paid with written := ?_ }⟩
  · omega
  · change b.desk.held.target.nextPosition + _ ≤ _
    rw [Desk.nextPosition_held]
    change _ ≤ 2 * b.weight
    omega

/-- The code so far is no longer than what the source can pay for. -/
theorem position_pays : Establishes (Paid source depth code made) position fun target b =>
    target ≤ 2 * source.utf8ByteSize ∧ Paid source depth code made b := by
  refine .onDesk fun b target desk paid done => ?_
  cases done
  have before := paid.written
  have bytes := paid.weight_le
  exact ⟨by omega, paid⟩

/-- Jumps that get their targets were paid for as placeholders. -/
theorem redraw_pays {change : Desk → Except Alarm Desk}
    (same : ∀ {desk after}, change desk = .ok after → desk.Retargeted after) :
    Establishes (Paid source depth code made) (onDesk fun desk => (change desk).map ((), ·))
      fun _ => Paid source depth code made := by
  refine .onDesk fun b _ desk paid done => ?_
  cases changed : change b.desk with
  | error bad =>
    rw [changed] at done
    cases done
  | ok after =>
    rw [changed] at done
    cases done
    exact paid.redrawn (same changed)

/-- A level is paid for. -/
theorem deeper_pays (enough : 1 ≤ made) :
    Establishes (Paid source depth code made) (onDesk fun desk => .ok ((), desk.deeper))
      fun _ => Paid source (depth + 1) code (made - 1) := by
  refine .onDesk fun b _ desk paid done => ?_
  cases done
  have deep := paid.deep
  have counted := paid.counted
  refine { paid with deep := congrArg (· + 1) deep, counted := ?_ }
  change _ ≤ b.weight
  dsimp only
  omega

/-- A level that is left pays back what it cost. -/
theorem leave_pays : Establishes (Paid source (depth + 1) code made) leave
    fun _ => Paid source depth code (made + 1) := by
  refine .onDesk fun b _ desk paid done => ?_
  have deep := paid.deep
  have counted := paid.counted
  simp only [Desk.leave, deep, Nat.add_one_ne_zero, if_false, Except.map, Except.ok.injEq,
    Prod.mk.injEq, true_and] at done
  subst done
  refine { paid with deep := rfl, counted := ?_ }
  change _ ≤ b.weight
  dsimp only
  omega

/-- A symbol is paid for. -/
theorem declare_pays {symbol : Symbol} {span : Span} (enough : 1 ≤ made) :
    Establishes (Paid source depth code made) (declare symbol span)
      fun _ => Paid source depth code (made - 1) := by
  refine Establishes.get.bind fun found => ?_
  have declared : Establishes (fun b => b = found ∧ Paid source depth code made b)
      (orFail (found.symbols.declare symbol span)) fun symbols b =>
        symbols.size = b.symbols.size + 1 ∧ Paid source depth code made b := by
    refine .orFail fun symbols b new holds => ?_
    obtain ⟨rfl, paid⟩ := holds
    unfold SymbolTable.declare at new
    split at new
    · cases new
    · cases new
      exact ⟨rfl, paid⟩
  refine declared.bind fun symbols => .modify ?_
  rintro b ⟨size, paid⟩
  have counted := paid.counted
  refine { paid with counted := ?_ }
  change _ ≤ b.weight
  dsimp only
  omega

theorem markInitialized_pays {v : Variable} : Establishes (Paid source depth code made)
    (markInitialized v) fun _ => Paid source depth code made := by
  unfold markInitialized
  cases v.rank with
  | none => exact .pure fun _ => id
  | some rank =>
    refine .modify fun b paid => { paid with counted := ?_ }
    rw [b.symbols.size_markInitialized]
    exact paid.counted

end

end SinglePass

end C0
