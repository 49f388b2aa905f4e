import C0.Proofs.Entry

namespace C0

namespace Setting

/-- What the instruction at a position of some code refers to is there. Right before a library
function that takes a text the address of a text is pushed. A return may be left with the address of
the first argument slot, whether there is one or not. -/
def Resolved (setting : Setting) (code : List Instruction) (p : Nat) : Instruction → Prop
  | .indexed .call address => ∃ signature, setting.routineAt? address.toNat = some signature
  | .indexed .callname address => ∃ function, setting.libraryAt? address.toNat = some function ∧
      (function.argument = .text → ∃ q word value, p = q + 1 ∧ code[q]? = some (.push word) ∧
        setting.directory.entries[word.toNat]? = some (.text value))
  | .indexed .loca slot => slot.toNat < setting.locals.length
  | .indexed .arga offset => offset.toNat < setting.signature.argumentTypes.length ∨
      offset = 0 ∧ code[p + 1]? = some (.plain .ret)
  | .indexed .globa slot => slot.toNat < setting.globals.length
  | _ => True

variable {setting : Setting} {code piece : List Instruction} {base p : Nat}

theorem resolved_place (small : setting.Small) {place : Place} {ty : Ty}
    (slot : setting.slotType? place = some ty) : setting.Resolved code p place.instruction := by
  have exact := place?_instruction small slot
  cases place with
  | frame i =>
    rw [Place.instruction, Instruction.place?, Option.some.injEq, Place.frame.injEq] at exact
    rw [Place.instruction, Resolved, exact]
    exact (List.getElem?_eq_some_iff.mp slot).1
  | argument i =>
    rw [Place.instruction, Instruction.place?, Option.some.injEq, Place.argument.injEq] at exact
    rw [Place.instruction, Resolved, exact]
    exact .inl (List.getElem?_eq_some_iff.mp slot).1
  | static i =>
    rw [Place.instruction, Instruction.place?, Option.some.injEq, Place.static.injEq] at exact
    rw [Place.instruction, Resolved, exact]
    exact (List.getElem?_eq_some_iff.mp slot).1

/-- Instructions without operands refer to nothing. -/
theorem resolved_ops (ops : List Op) :
    Everywhere (setting.Resolved code) base (ops.map .plain) := by
  intro i instruction here
  obtain ⟨op, _, rfl⟩ := List.mem_map.mp (List.mem_of_getElem? here)
  trivial

theorem resolved_cast (source target : Ty) :
    Everywhere (setting.Resolved code) base (castCode source target) := by
  cases source <;> cases target <;> first
    | exact everywhere_nil
    | exact everywhere_cons.mpr ⟨trivial, everywhere_nil⟩

theorem resolved_operator (op : Operator) (ty : Ty) :
    Everywhere (setting.Resolved code) base ((op.instructions? ty).getD []) := by
  cases ty with
  | int => cases found : op.intOps? <;> simp [Operator.instructions?, found, resolved_ops]
  | double => cases found : op.doubleOps? <;> simp [Operator.instructions?, found, resolved_ops]
  | void => exact everywhere_nil

theorem resolved_store (small : setting.Small) {place : Place} {ty : Ty}
    (slot : setting.slotType? place = some ty)
    (value : Everywhere (setting.Resolved code) (base + 1) piece) :
    Everywhere (setting.Resolved code) base (storeCode place piece) := by
  simp only [storeCode, List.cons_append, everywhere_cons, everywhere_append, everywhere_nil,
    and_true]
  exact ⟨resolved_place small slot, value, trivial⟩

theorem resolved_codeAll {values : List Expr}
    (resolved : ∀ e ∈ values, ∀ base, Holds code base e.code →
      Everywhere (setting.Resolved code) base e.code) (holds : Holds code base (Expr.codeAll values)) :
    Everywhere (setting.Resolved code) base (Expr.codeAll values) := by
  induction values generalizing base with
  | nil => exact everywhere_nil
  | cons first values ih =>
    rw [List.forall_mem_cons] at resolved
    simp only [Expr.codeAll, holds_append, everywhere_append] at holds ⊢
    exact ⟨resolved.1 base holds.1, ih resolved.2 holds.2⟩

end Setting

/-- What the code of an expression refers to is there. -/
theorem Expr.Typed.resolved {setting : Setting} {e : Expr} (typed : e.Typed setting)
    (small : setting.Small) {code : List Instruction} {base : Nat} (holds : Holds code base e.code) :
    Everywhere (setting.Resolved code) base e.code := by
  induction typed generalizing base with
  | int | double | char | text => exact everywhere_cons.mpr ⟨trivial, everywhere_nil⟩
  | load slot _ =>
    simp only [Expr.code, everywhere_cons, everywhere_nil, and_true]
    exact ⟨Setting.resolved_place small slot, trivial⟩
  | assign slot _ _ _ ih =>
    simp only [Expr.code, storeCode, List.cons_append, holds_cons, holds_append] at holds
    exact Setting.resolved_store small slot (ih holds.2.1)
  | @call signature values found _ _ ih =>
    simp only [Expr.code, List.cons_append, holds_cons, holds_append, everywhere_cons,
      everywhere_append, everywhere_nil, and_true] at holds ⊢
    refine ⟨trivial, Setting.resolved_codeAll (fun e member _ => ih e member) holds.2.1, signature, ?_⟩
    rw [Setting.toNat_routine small found]
    exact found
  | @library address function values found typed _ text ih =>
    simp only [Expr.code, List.cons_append, holds_cons, holds_append, everywhere_cons,
      everywhere_append, everywhere_nil, and_true] at holds ⊢
    have exact := (Setting.toNat_entry small (Setting.entry_of_libraryAt? found)).1
    refine ⟨trivial, Setting.resolved_codeAll (fun e member _ => ih e member) holds.2.1, function,
      ?_, fun takes => ?_⟩
    · rw [exact]
      exact found
    · obtain ⟨value, place, rfl⟩ := text takes
      cases typed _ (List.mem_singleton_self _) with
      | text there =>
        refine ⟨base + 1, UInt64.ofNat place, value, rfl, ?_, ?_⟩
        · exact (holds_cons.mp holds.2.1).1
        · rw [(Setting.toNat_entry small there).2]
          exact there
  | group _ ih => exact ih holds
  | cast _ _ _ ih =>
    simp only [Expr.code, holds_append, everywhere_append] at holds ⊢
    exact ⟨ih holds.1, Setting.resolved_cast _ _⟩
  | negate _ _ ih =>
    simp only [Expr.code, holds_append, everywhere_append] at holds ⊢
    exact ⟨ih holds.1, Setting.resolved_operator _ _⟩
  | binary _ _ _ _ _ ihLeft ihRight =>
    simp only [Expr.code, holds_append, everywhere_append] at holds ⊢
    exact ⟨⟨ihLeft holds.1.1, ihRight holds.1.2⟩, Setting.resolved_operator _ _⟩

/-- The code of a return refers to the first argument slot. -/
theorem Setting.resolved_return {setting : Setting} {value : Option Expr}
    (typed : (Stmt.giveBack value).Typed setting) (small : setting.Small)
    {code : List Instruction} {base : Nat} (holds : Holds code base (returnCode value)) :
    Everywhere (setting.Resolved code) base (returnCode value) := by
  cases value with
  | none =>
    simp only [returnCode, holds_cons, everywhere_cons, everywhere_nil, and_true] at holds ⊢
    exact ⟨.inr ⟨rfl, holds.2.1⟩, trivial⟩
  | some value =>
    obtain ⟨typed, same, valued⟩ := typed
    simp only [returnCode, List.cons_append, holds_cons, holds_append, everywhere_cons,
      everywhere_append, everywhere_nil, and_true] at holds ⊢
    refine ⟨.inl ?_, typed.resolved small holds.2.1, trivial, trivial⟩
    have room : 0 < setting.signature.returnSlots := by
      rw [Signature.returnSlots, ← same]
      cases found : value.ty with
      | void => exact absurd found valued
      | _ => decide
    simp only [Signature.argumentTypes, List.length_append, List.length_replicate]
    exact Nat.lt_of_lt_of_le room (Nat.le_add_right _ _)

/-- What the code of a statement refers to is there. -/
theorem Stmt.Typed.resolved {setting : Setting} {stmt : Stmt} (typed : stmt.Typed setting)
    (small : setting.Small) {onJump : Jump → Nat → Instruction}
    (jumps : ∀ jump site, ∃ offset, onJump jump site = .branch .always offset)
    {code : List Instruction} {base : Nat} (holds : Holds code base (stmt.assembled onJump base)) :
    Everywhere (setting.Resolved code) base (stmt.assembled onJump base) := by
  induction stmt generalizing onJump base with
  | skip | empty => exact everywhere_nil
  | seq first rest ihFirst ihRest =>
    simp only [Stmt.assembled, holds_append, everywhere_append, Stmt.assembled_length] at holds ⊢
    exact ⟨ihFirst typed.1 jumps holds.1, ihRest typed.2 jumps holds.2⟩
  | declare symbol value =>
    cases value with
    | none => exact everywhere_nil
    | some value =>
      obtain ⟨slot, _, typed, _⟩ := typed
      simp only [Stmt.assembled, declareCode, storeCode, List.cons_append, holds_cons,
        holds_append] at holds
      exact Setting.resolved_store small slot (typed.resolved small holds.2.1)
  | evaluate e =>
    simp only [Stmt.assembled, evaluateCode, holds_append, everywhere_append] at holds ⊢
    refine ⟨Expr.Typed.resolved typed small holds.1, ?_⟩
    split
    · exact everywhere_nil
    · exact everywhere_cons.mpr ⟨trivial, everywhere_nil⟩
  | block body ih => exact ih typed jumps holds
  | conditional test yes no ihYes ihNo =>
    simp only [Stmt.assembled, holds_append, holds_cons, everywhere_append, everywhere_cons,
      Stmt.assembled_length] at holds ⊢
    obtain ⟨ofTest, _, _, ofYes, _, ofNo⟩ := holds
    exact ⟨typed.1.resolved small ofTest, trivial, trivial, ihYes typed.2.2.1 jumps ofYes, trivial,
      ihNo typed.2.2.2 jumps ofNo⟩
  | iteration test body ih =>
    simp only [Stmt.assembled, holds_append, holds_cons, everywhere_append, everywhere_cons,
      Stmt.assembled_length] at holds ⊢
    obtain ⟨_, ofTest, _, _, ofBody, _⟩ := holds
    exact ⟨trivial, typed.1.resolved small ofTest, trivial, trivial,
      ih typed.2.2 (loopBranch_always _ _) ofBody, trivial, everywhere_nil⟩
  | leave =>
    obtain ⟨offset, jump⟩ := jumps .leave base
    simp only [Stmt.assembled, jump]
    exact everywhere_cons.mpr ⟨trivial, everywhere_nil⟩
  | again =>
    obtain ⟨offset, jump⟩ := jumps .again base
    simp only [Stmt.assembled, jump]
    exact everywhere_cons.mpr ⟨trivial, everywhere_nil⟩
  | giveBack value => exact Setting.resolved_return typed small holds

end C0
