import ShiftBarrier.Proofs.Cache
import ShiftBarrier.Proofs.Equality
import ShiftBarrier.Proofs.Listing.Printable
import ShiftBarrier.Proofs.Tables

/-!
# What is the same as itself

A NaN equals nothing, and so does whatever is built from one.  Nothing else is unequal to itself,
and no numeral of a text is read as a NaN.  So a table that is read off a module finds everything
that it lists.

* `Number.NaNFree`, `Operand.NaNFree`, `Ty.NaNFree` and `Constant.NaNFree` say that there is no NaN
  in something; it is the same as itself then.
* `Binary64.isNaN_ofDecimal` and `Binary64.isNaN_ofBinary`: rounding never gives a NaN.
* `TypeTable.readAll_spec` and `ConstantTable.readAll_spec` say declaration by declaration what a
  table holds.
* `Assembly.nanFree_of_parse`: there is no NaN in the tables of a module that is read.
-/

set_option autoImplicit false

namespace ShiftBarrier

/-! ## Rounding

Texts have no numeral for a NaN, and rounding makes none: it ends in an infinity at most. -/

namespace Binary64

/-- The encodings up to that of infinity are no NaNs. -/
theorem isNaN_ofFields (negative : Bool) {magnitude : Nat} (h : magnitude ≤ 2047 * 2 ^ 52) :
    (ofFields negative magnitude).isNaN = false := by
  have hbits : (ofFields negative magnitude).bits.toNat
      = magnitude + if negative then 2 ^ 63 else 0 := by
    rw [ofFields, UInt64.toNat_ofNat', Nat.pow_eq]
    exact Nat.mod_eq_of_lt (by split <;> omega)
  rw [isNaN, exponentField, fractionField, hbits, Bool.and_eq_false_iff, beq_eq_false_iff_ne,
    bne_eq_false_iff_eq]
  simp only [Nat.pow_eq]
  split <;> omega

theorem isNaN_zero (negative : Bool) : (zero negative).isNaN = false :=
  isNaN_ofFields negative (Nat.zero_le _)

theorem isNaN_infinity (negative : Bool) : (infinity negative).isNaN = false :=
  isNaN_ofFields negative (Nat.le_refl _)

theorem isNaN_ofRatio (negative : Bool) (num den : Nat) :
    (ofRatio negative num den).isNaN = false := by
  rw [ofRatio]
  split
  · exact isNaN_zero negative
  · dsimp only
    split
    · next hlt => exact isNaN_ofFields negative (Nat.le_of_lt hlt)
    · exact isNaN_infinity negative

/-- **A decimal numeral is no NaN.** -/
theorem isNaN_ofDecimal (negative : Bool) (significand : Nat) (exponent : Int) :
    (ofDecimal negative significand exponent).isNaN = false := by
  rw [ofDecimal.eq_def]
  dsimp only
  split
  · exact isNaN_zero negative
  split
  · exact isNaN_infinity negative
  split
  · exact isNaN_zero negative
  split
  · exact isNaN_ofRatio ..
  · exact isNaN_ofRatio ..

/-- **A hexadecimal numeral is no NaN.** -/
theorem isNaN_ofBinary (negative : Bool) (significand : Nat) (exponent : Int) :
    (ofBinary negative significand exponent).isNaN = false := by
  rw [ofBinary.eq_def]
  dsimp only
  split
  · exact isNaN_zero negative
  split
  · exact isNaN_infinity negative
  split
  · exact isNaN_zero negative
  split
  · exact isNaN_ofRatio ..
  · exact isNaN_ofRatio ..

end Binary64

/-! ## Numbers, operands, types and constants -/

/-- A number that equals itself. -/
def Number.NaNFree : Number → Prop
  | .int _ => True
  | .float x => x.isNaN = false

theorem Number.NaNFree.same_refl {n : Number} (h : n.NaNFree) : n.same n = true := by
  cases n with
  | int n => exact beq_self_eq_true n
  | float x =>
    have hsome : x.value?.isSome = true := by
      rw [Binary64.isSome_value?, h]
      rfl
    obtain ⟨v, hv⟩ := Option.isSome_iff_exists.1 hsome
    exact Binary64.equal_iff.2 ⟨v, hv, hv⟩

/-- An operand that is the same as itself. -/
def Operand.NaNFree : Operand → Prop
  | .literal value _ => value.NaNFree
  | _ => True

theorem Operand.NaNFree.same_refl {operand : Operand} (h : operand.NaNFree) :
    operand.same operand = true := by
  cases operand with
  | id i => exact Id.same_refl i
  | literal value spelling => exact Number.NaNFree.same_refl h
  | enumerant word => exact beq_self_eq_true word
  | string s => exact beq_self_eq_true s

/-- A type that is not interpreted may have a number among its operands. -/
def Ty.NaNFree : Ty → Prop
  | .vector element _ => element.NaNFree
  | .other _ operands => ∀ operand ∈ operands, operand.NaNFree
  | _ => True

theorem Ty.NaNFree.same_refl {type : Ty} (h : type.NaNFree) : type.same type = true := by
  induction type with
  | int w s => simp [Ty.same]
  | float w => simp [Ty.same]
  | bool => rfl
  | void => rfl
  | vector element n ih => rw [Ty.same, ih h, beq_self_eq_true, Bool.true_and]
  | other op xs =>
    rw [Ty.same, beq_self_eq_true, Bool.true_and]
    exact isEqv_refl fun operand hoperand => Operand.NaNFree.same_refl (h operand hoperand)

theorem Ty.nanFree_of_isScalar {type : Ty} (h : type.isScalar = true) : type.NaNFree := by
  cases type with
  | vector | other => cases h
  | _ => trivial

/-- A constant that is the same as itself, in a type that is. -/
def Constant.NaNFree : Constant → Prop
  | .scalar type value => type.NaNFree ∧ value.NaNFree
  | .bool type _ | .composite type _ | .null type => type.NaNFree

theorem Constant.NaNFree.same_refl {c : Constant} (h : c.NaNFree) : c.same c = true := by
  cases c with
  | scalar type value =>
    rw [Constant.same, Ty.NaNFree.same_refl h.1, Number.NaNFree.same_refl h.2]
    rfl
  | bool type b =>
    rw [Constant.same, Ty.NaNFree.same_refl h, beq_self_eq_true]
    rfl
  | composite type ids =>
    rw [Constant.same, Ty.NaNFree.same_refl h, Bool.true_and]
    exact isEqv_refl fun id _ => Id.same_refl id
  | null type => exact Ty.NaNFree.same_refl h

/-! ## Operands of a text -/

/-- A word that denotes a number denotes no NaN. -/
theorem SourceOperand.Denotes.nanFree {word : String} {value : Number} {spelling : Option String}
    (h : Denotes word (.value (.literal value spelling))) : value.NaNFree := by
  obtain ⟨kind, -, -, hdenotes⟩ := h
  have hvalue := hdenotes ⟨1, 1⟩
  rw [SourceOperand.ofToken] at hvalue
  cases kind with
  | hexFloat =>
    cases hvalue
    exact Binary64.isNaN_ofBinary ..
  | float =>
    cases hvalue
    exact Binary64.isNaN_ofDecimal ..
  | hex =>
    cases hvalue
    trivial
  | int =>
    rw [bind_eq_ok_iff] at hvalue
    obtain ⟨n, -, heq⟩ := hvalue
    cases heq
    trivial
  | string =>
    rw [bind_eq_ok_iff] at hvalue
    obtain ⟨s, -, heq⟩ := hvalue
    cases heq
  | _ => cases hvalue

theorem Operand.Printable.nanFree {operand : Operand} (h : operand.Printable) :
    operand.NaNFree := by
  cases h with
  | spelled h => exact h.nanFree
  | _ => trivial

/-! ## Declarations

The tables are related to the instructions entry by entry, so that what is known of all operands is
known of all entries. -/

namespace TypeTable

variable {t t' : TypeTable} {is : List Instruction} {i : Instruction}

/-- **The entries of a table are the declarations that were read**, one by one. -/
theorem readAll_spec (h : t.readAll is = (.ok (), t')) :
    ∃ new, t'.entries = t.entries ++ new ∧
      List.Forall₂ (fun i entry => i.result = some entry.1 ∧ ∃ t, declared t i = .ok entry.2)
        (is.filter Instruction.isType) new := by
  induction is generalizing t with
  | nil =>
    cases h
    exact ⟨[], (List.append_nil _).symm, .nil⟩
  | cons i is ih =>
    obtain ⟨t₁, hread, hrest⟩ := readAll_cons_eq_ok_iff.1 h
    obtain ⟨new, hentries, hnew⟩ := ih hrest
    obtain ⟨htype, rfl⟩ | ⟨id, type, htype, hid, hdeclared, rfl⟩ := read_eq_ok_iff.1 hread
    · rw [List.filter_cons_of_neg (Bool.eq_false_iff.1 htype)]
      exact ⟨new, hentries, hnew⟩
    · refine ⟨(id, type) :: new, ?_, ?_⟩
      · rw [hentries, add, List.append_assoc, List.singleton_append]
      · rw [List.filter_cons_of_pos htype]
        exact .cons ⟨hid, t, hdeclared⟩ hnew

/-- What is not interpreted is kept as it is. -/
theorem nanFree_of_declared {type : Ty} (hi : ∀ operand ∈ i.operands, operand.NaNFree)
    (h : t.declared i = .ok type) : type.NaNFree := by
  cases type with
  | vector element n =>
    cases formed_of_declared h with
    | vector hscalar =>
      show element.NaNFree
      exact Ty.nanFree_of_isScalar hscalar
  | other op xs =>
    have hoperands : xs = i.operands := by
      rw [declared] at h
      split at h
      · simp only [bind_eq_ok_iff, Ty.makeInt] at h
        obtain ⟨_, -, _, -, h⟩ := h
        split at h <;> cases h
      · rw [bind_eq_ok_iff] at h
        obtain ⟨_, -, ⟨⟩⟩ := h
      · cases h
      · cases h
      · simp only [bind_eq_ok_iff, Ty.makeVector] at h
        obtain ⟨_, -, _, -, h⟩ := h
        split at h <;> cases h
      · cases h
        rfl
    rw [hoperands]
    exact hi
  | _ => trivial

end TypeTable

namespace ConstantTable

variable {types : TypeTable} {t t' : ConstantTable} {is : List Instruction} {i : Instruction}

/-- **The entries of a table are the declarations that were read**, one by one. -/
theorem readAll_spec (h : t.readAll types is = (.ok (), t')) :
    ∃ new, t'.entries = t.entries ++ new ∧
      List.Forall₂ (fun i entry => i.result = some entry.1 ∧ ∃ t type,
          i.type.bind types.type? = some type ∧ declared t i type = .ok entry.2)
        (is.filter Instruction.isConstant) new := by
  induction is generalizing t with
  | nil =>
    cases h
    exact ⟨[], (List.append_nil _).symm, .nil⟩
  | cons i is ih =>
    obtain ⟨t₁, hread, hrest⟩ := readAll_cons_eq_ok_iff.1 h
    obtain ⟨new, hentries, hnew⟩ := ih hrest
    obtain ⟨hconstant, rfl⟩ | ⟨id, type, c, hconstant, hid, htype, hdeclared, rfl⟩ :=
      read_eq_ok_iff.1 hread
    · rw [List.filter_cons_of_neg (Bool.eq_false_iff.1 hconstant)]
      exact ⟨new, hentries, hnew⟩
    · refine ⟨(id, c) :: new, ?_, ?_⟩
      · rw [hentries, add, List.append_assoc, List.singleton_append]
      · rw [List.filter_cons_of_pos hconstant]
        exact .cons ⟨hid, t, type, htype, hdeclared⟩ hnew

theorem nanFree_of_ofLiteral {type : Ty} {value : Number} {c : Constant} (htype : type.NaNFree)
    (hvalue : value.NaNFree) (h : Constant.ofLiteral type value = .ok c) : c.NaNFree := by
  obtain ⟨w, s, n, rfl, rfl, -, rfl⟩ | ⟨-, rfl⟩ := Constant.ofLiteral_cases h
  · exact ⟨htype, trivial⟩
  · exact ⟨htype, hvalue⟩

theorem nanFree_of_declared {type : Ty} {c : Constant} (htype : type.NaNFree)
    (hi : ∀ operand ∈ i.operands, operand.NaNFree) (h : t.declared i type = .ok c) :
    c.NaNFree := by
  rcases declared_cases h with ⟨-, value, spelling, hoperand, hliteral⟩ | ⟨-, rfl, rfl⟩ |
    ⟨-, cs, -, rfl⟩ | ⟨-, -, -, -, rfl⟩
  · exact nanFree_of_ofLiteral htype (hi _ (List.mem_of_getElem? hoperand)) hliteral
  · trivial
  · exact htype
  · exact htype

end ConstantTable

/-! ## Modules that are read -/

theorem Assembly.operands_nanFree_of_parse {settings : Settings} {source : String} {m : Module}
    (h : parse settings source = .ok m) :
    ∀ i ∈ m.globals, ∀ operand ∈ i.operands, operand.NaNFree := by
  obtain ⟨-, ids, hprintable⟩ := printable_of_parse h
  intro i hi operand hoperand
  have hlisted : i ∈ m.listed :=
    Module.mem_listed.2 (.inl (List.mem_append_left _ (List.mem_append_right _ hi)))
  exact ((hprintable.within i hlisted).printable.operands operand hoperand).nanFree

section Tables

variable {m : Module}

/-- The types that are declared, one by one. -/
theorem Module.declaredTypes_spec (hok : (TypeTable.analyze m).1 = .ok ()) :
    List.Forall₂ (fun i entry => i.result = some entry.1 ∧
        ∃ t, TypeTable.declared t i = .ok entry.2)
      (m.globals.filter Instruction.isType) m.declaredTypes.entries := by
  obtain ⟨new, hentries, hnew⟩ := TypeTable.readAll_spec (t := {}) (Prod.ext hok rfl)
  have heq : m.declaredTypes.entries = new := hentries.trans (List.nil_append new)
  rw [heq]
  exact hnew

/-- The constants that are declared, one by one. -/
theorem Module.declaredConstants_spec
    (hok : (ConstantTable.analyze m.declaredTypes m).1 = .ok ()) :
    List.Forall₂ (fun i entry => i.result = some entry.1 ∧ ∃ t type,
        i.type.bind m.declaredTypes.type? = some type ∧
          ConstantTable.declared t i type = .ok entry.2)
      (m.globals.filter Instruction.isConstant) m.declaredConstants.entries := by
  obtain ⟨new, hentries, hnew⟩ := ConstantTable.readAll_spec (t := {}) (Prod.ext hok rfl)
  have heq : m.declaredConstants.entries = new := hentries.trans (List.nil_append new)
  rw [heq]
  exact hnew

/-- **There is no NaN in the tables of a module that is read.** -/
theorem Assembly.nanFree_of_parse {settings : Settings} {source : String}
    (hparse : parse settings source = .ok m) (hok : (TypeTable.analyze m).1 = .ok ())
    (hok' : (ConstantTable.analyze m.declaredTypes m).1 = .ok ()) :
    (∀ entry ∈ m.declaredTypes.entries, entry.2.NaNFree) ∧
      ∀ entry ∈ m.declaredConstants.entries, entry.2.NaNFree := by
  have hoperands := operands_nanFree_of_parse hparse
  have htypes : ∀ entry ∈ m.declaredTypes.entries, entry.2.NaNFree := by
    intro entry hentry
    obtain ⟨i, hi, -, t, hdeclared⟩ := exists_left_of_mem (Module.declaredTypes_spec hok) hentry
    exact TypeTable.nanFree_of_declared (hoperands i (List.mem_of_mem_filter hi)) hdeclared
  refine ⟨htypes, fun entry hentry => ?_⟩
  obtain ⟨i, hi, -, t, type, htype, hdeclared⟩ :=
    exists_left_of_mem (Module.declaredConstants_spec hok') hentry
  obtain ⟨id, -, htype⟩ := Option.bind_eq_some_iff.1 htype
  obtain ⟨key, -, hmem⟩ := TypeTable.mem_of_type? htype
  exact ConstantTable.nanFree_of_declared (htypes _ hmem)
    (hoperands i (List.mem_of_mem_filter hi)) hdeclared

end Tables

end ShiftBarrier
