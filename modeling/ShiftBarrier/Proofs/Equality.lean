import Mathlib.Tactic.Ring
import ShiftBarrier.Constant

/-!
# Equality up to names and spellings

Ids are the same if their numbers are, numbers if they have the same value.  What is built from them
is compared part by part, so that `same` puts types and constants into classes, and looking one up
in a table is looking up its class.

* `ExactValue` is what a number is worth, and `Number.same_iff` says that this is what is compared.
* `Ty.same_congr` and `Constant.same_congr`: what is the same is the same as the same things.
-/

set_option autoImplicit false

namespace ShiftBarrier

/-! ## Numbers

Equality is decided on encodings.  Here it is traced back to values, where it is transitive for a
plain reason. -/

/-- The value of a number that is not a NaN.  Finite values are counted in units of the least
positive number. -/
inductive ExactValue
  | finite (units : Int)
  | infinite (negative : Bool)

namespace Binary64

/-- The least positive number is `2 ^ -unitBits`. -/
def unitBits : Nat := 1074

variable {x y : Binary64}

/-- The magnitude of a finite number in units of the least positive one. -/
def units (x : Binary64) : Nat := x.magnitude.significand * 2 ^ (x.exponentField - 1)

/-- The value of a finite number in units of the least exponent. -/
def signedUnits (x : Binary64) : Int := if x.negative then -x.units else x.units

/-- The value of a number, none if it is a NaN. -/
def value? (x : Binary64) : Option ExactValue :=
  if x.exponentField = 2047 then
    if x.fractionField = 0 then some (.infinite x.negative) else none
  else some (.finite x.signedUnits)

/-- A number is put together from its fields. -/
theorem ext_fields (hnegative : x.negative = y.negative)
    (hexponent : x.exponentField = y.exponentField)
    (hfraction : x.fractionField = y.fractionField) : x = y := by
  obtain ⟨x⟩ := x
  obtain ⟨y⟩ := y
  have hx := x.toNat_lt
  have hy := y.toNat_lt
  simp only [negative, exponentField, fractionField, Nat.pow_eq, decide_eq_decide] at *
  rw [mk.injEq, ← UInt64.toNat_inj]
  omega

theorem fractionField_lt (x : Binary64) : x.fractionField < 2 ^ 52 := Nat.mod_lt _ (by decide)

theorem significand_eq (x : Binary64) : x.magnitude.significand =
    (if x.exponentField = 0 then 0 else 2 ^ 52) + x.fractionField := by
  rw [magnitude]
  split
  · exact (Nat.zero_add _).symm
  · rfl

theorem isZero_iff : x.isZero = true ↔ x.units = 0 := by
  have hpow := Nat.ne_of_gt (Nat.two_pow_pos (x.exponentField - 1))
  rw [isZero, units, significand_eq, Nat.mul_eq_zero, or_iff_left hpow, Bool.and_eq_true,
    beq_iff_eq, beq_iff_eq]
  split <;> omega

/-- A magnitude has one encoding: no normal number is as small as the ones of lower exponent. -/
theorem units_lt (h : x.exponentField - 1 < y.exponentField - 1) : x.units < y.units := by
  have hfraction := x.fractionField_lt
  have hx : x.magnitude.significand < 2 ^ 53 := by
    rw [significand_eq]
    split <;> omega
  have hy : 2 ^ 52 ≤ y.magnitude.significand := by
    rw [significand_eq, if_neg (by omega)]
    omega
  obtain ⟨d, hd⟩ := Nat.exists_eq_add_of_lt h
  calc x.units < 2 ^ 53 * 2 ^ (x.exponentField - 1) :=
        Nat.mul_lt_mul_of_pos_right hx (Nat.two_pow_pos _)
    _ = 2 ^ 52 * 2 ^ (x.exponentField - 1 + 1) := by ring
    _ ≤ y.magnitude.significand * 2 ^ (y.exponentField - 1) :=
        Nat.mul_le_mul hy (Nat.pow_le_pow_right (by decide) (by omega))

theorem fields_of_units (h : x.units = y.units) :
    x.exponentField = y.exponentField ∧ x.fractionField = y.fractionField := by
  have hshift : x.exponentField - 1 = y.exponentField - 1 := by
    rcases Nat.lt_trichotomy (x.exponentField - 1) (y.exponentField - 1) with hlt | heq | hgt
    · exact absurd h (Nat.ne_of_lt (units_lt hlt))
    · exact heq
    · exact absurd h (Nat.ne_of_gt (units_lt hgt))
  rw [units, units, hshift, Nat.mul_left_inj (Nat.ne_of_gt (Nat.two_pow_pos _)), significand_eq,
    significand_eq] at h
  have hx := x.fractionField_lt
  have hy := y.fractionField_lt
  split at h <;> split at h <;> omega

/-! ### Comparing values -/

theorem isSome_value? (x : Binary64) : x.value?.isSome = !x.isNaN := by
  rw [value?, isNaN]
  split
  · next h => split <;> simp [*]
  · next h => simp [h]

theorem value?_of_isZero (h : x.isZero = true) : x.value? = some (.finite 0) := by
  have hunits := isZero_iff.1 h
  rw [isZero, Bool.and_eq_true, beq_iff_eq] at h
  rw [value?, if_neg (by omega), signedUnits, hunits]
  simp

/-- A value has one encoding, but for the two zeros. -/
theorem eq_or_isZero_of_value? {v : ExactValue} (hx : x.value? = some v) (hy : y.value? = some v) :
    x = y ∨ x.isZero = true ∧ y.isZero = true := by
  rw [value?] at hx hy
  split at hx <;> split at hy
  · next hex hey =>
    split at hx <;> split at hy
    · next hfx hfy =>
      cases hx
      rw [Option.some.injEq, ExactValue.infinite.injEq] at hy
      exact .inl (ext_fields hy.symm (hex.trans hey.symm) (hfx.trans hfy.symm))
    all_goals contradiction
  · split at hx
    · cases hx
      cases hy
    · cases hx
  · split at hy
    · cases hy
      cases hx
    · cases hy
  · cases hx
    rw [Option.some.injEq, ExactValue.finite.injEq] at hy
    have hunits : x.units = y.units := by
      have habs := congrArg Int.natAbs hy
      rw [signedUnits, signedUnits] at habs
      split at habs <;> split at habs <;> omega
    by_cases hsign : x.negative = y.negative
    · exact .inl (ext_fields hsign (fields_of_units hunits).1 (fields_of_units hunits).2)
    · refine .inr ⟨isZero_iff.2 ?_, isZero_iff.2 ?_⟩ <;>
      · rw [signedUnits, signedUnits] at hy
        split at hy <;> split at hy
        · next hright hleft => exact absurd (hleft.trans hright.symm) hsign
        · omega
        · omega
        · next hright hleft =>
          rw [Bool.not_eq_true] at hright hleft
          exact absurd (hleft.trans hright.symm) hsign

/-- **Numbers are equal if they have the same value.** -/
theorem equal_iff : x.equal y = true ↔ ∃ v, x.value? = some v ∧ y.value? = some v := by
  have hx := x.isSome_value?
  have hy := y.isSome_value?
  rw [equal, Bool.and_eq_true, Bool.and_eq_true, ← hx, ← hy, Bool.or_eq_true, beq_iff_eq,
    Bool.and_eq_true]
  constructor
  · rintro ⟨⟨hsome, -⟩, hbits | ⟨hzx, hzy⟩⟩
    · obtain ⟨v, hv⟩ := Option.isSome_iff_exists.1 hsome
      have heq : x = y := congrArg Binary64.mk hbits
      exact ⟨v, hv, heq ▸ hv⟩
    · exact ⟨_, value?_of_isZero hzx, value?_of_isZero hzy⟩
  · rintro ⟨v, hvx, hvy⟩
    refine ⟨⟨Option.isSome_iff_exists.2 ⟨v, hvx⟩, Option.isSome_iff_exists.2 ⟨v, hvy⟩⟩, ?_⟩
    exact (eq_or_isZero_of_value? hvx hvy).imp_left (congrArg Binary64.bits)

theorem exponent_eq (x : Binary64) :
    x.magnitude.exponent = (x.exponentField - 1 : Nat) - (unitBits : Int) := by
  rw [magnitude, unitBits]
  split
  · next hzero =>
    rw [hzero]
    rfl
  · show (x.exponentField : Int) - 1075 = _
    omega

theorem signedUnits_eq (x : Binary64) : x.signedUnits =
    (if x.negative then -(x.magnitude.significand : Int) else x.magnitude.significand)
      * 2 ^ (x.exponentField - 1) := by
  rw [signedUnits, units]
  split <;> simp

/-- A number equals an integer if it has its value. -/
theorem equalsInt_iff {n : Int} :
    x.equalsInt n = true ↔ x.value? = some (.finite (n * 2 ^ unitBits)) := by
  have hpow : ∀ k : Nat, (2 : Int) ^ k ≠ 0 := fun k => pow_ne_zero k two_ne_zero
  rw [equalsInt, value?]
  split
  · split <;> simp
  · rw [Option.some.injEq, ExactValue.finite.injEq, signedUnits_eq]
    dsimp only
    generalize (if x.negative then -(x.magnitude.significand : Int)
      else x.magnitude.significand) = signed
    have hexponent := x.exponent_eq
    split
    · next e he =>
      have hshift : x.exponentField - 1 = e + unitBits := by
        rw [he, Int.ofNat_eq_natCast] at hexponent
        omega
      rw [hshift, pow_add, ← mul_assoc, mul_left_inj' (hpow _), beq_iff_eq]
      simp
    · next e he =>
      have hshift : unitBits = e + 1 + (x.exponentField - 1) := by
        rw [he, Int.negSucc_eq] at hexponent
        omega
      rw [hshift, pow_add, ← mul_assoc, mul_left_inj' (hpow _), beq_iff_eq]
      simp

end Binary64

namespace Number

/-- The value of a number, none if it is a NaN. -/
def value? : Number → Option ExactValue
  | .int n => some (.finite (n * 2 ^ Binary64.unitBits))
  | .float x => x.value?

/-- **Numbers are the same if they have the same value.** -/
theorem same_iff {m n : Number} : m.same n = true ↔ ∃ v, m.value? = some v ∧ n.value? = some v := by
  have hpow : (2 : Int) ^ Binary64.unitBits ≠ 0 := pow_ne_zero _ two_ne_zero
  cases m <;> cases n
  · rw [same, beq_iff_eq]
    constructor
    · rintro rfl
      exact ⟨_, rfl, rfl⟩
    · rintro ⟨v, hm, hn⟩
      rw [← hm, value?, value?, Option.some.injEq, ExactValue.finite.injEq] at hn
      exact (mul_right_cancel₀ hpow hn).symm
  · simp [same, value?, Binary64.equalsInt_iff]
  · simp [same, value?, Binary64.equalsInt_iff]
  · exact Binary64.equal_iff

theorem same_congr {m n : Number} (h : m.same n = true) (k : Number) : m.same k = n.same k := by
  obtain ⟨v, hm, hn⟩ := same_iff.1 h
  rw [Bool.eq_iff_iff, same_iff, same_iff, hm, hn]

end Number

/-! ## Operands, types and constants

Structures are compared part by part, so transitivity goes up from numbers to constants. -/

theorem Id.same_congr {i j : Id} (h : i.same j = true) (k : Id) : i.same k = j.same k := by
  rw [Id.same, Id.same, Id.same_iff.1 h]

theorem Operand.same_congr {a b : Operand} (h : a.same b = true) (c : Operand) :
    a.same c = b.same c := by
  cases a with
  | id i =>
    cases b with
    | id j =>
      cases c with
      | id k => exact Id.same_congr h k
      | _ => rfl
    | _ => cases h
  | literal m =>
    cases b with
    | literal n =>
      cases c with
      | literal k => exact Number.same_congr h k
      | _ => rfl
    | _ => cases h
  | enumerant v =>
    cases b with
    | enumerant w => rw [eq_of_beq h]
    | _ => cases h
  | string s =>
    cases b with
    | string t => rw [eq_of_beq h]
    | _ => cases h

/-- Lists are compared element by element. -/
theorem isEqv_congr {α : Type} {same : α → α → Bool}
    (hsame : ∀ a b, same a b = true → ∀ c, same a c = same b c) {as bs : List α}
    (h : as.isEqv bs same = true) (cs : List α) : as.isEqv cs same = bs.isEqv cs same := by
  induction as generalizing bs cs with
  | nil =>
    cases bs with
    | nil => rfl
    | cons => cases h
  | cons a as ih =>
    cases bs with
    | nil => cases h
    | cons b bs =>
      rw [List.isEqv_cons_cons, Bool.and_eq_true] at h
      cases cs with
      | nil => rfl
      | cons c cs => rw [List.isEqv_cons_cons, List.isEqv_cons_cons, hsame a b h.1, ih h.2]

theorem isEqv_refl {α : Type} {same : α → α → Bool} {as : List α}
    (h : ∀ a ∈ as, same a a = true) : as.isEqv as same = true := by
  induction as with
  | nil => rfl
  | cons a as ih =>
    rw [List.isEqv_cons_cons, h a List.mem_cons_self, Bool.true_and]
    exact ih fun b hb => h b (List.mem_cons_of_mem a hb)

/-- **The same types are the same as the same types.** -/
theorem Ty.same_congr {t t' : Ty} (h : t.same t' = true) (u : Ty) : t.same u = t'.same u := by
  induction t generalizing t' u with
  | vector element n ih =>
    cases t' with
    | vector element' n' =>
      rw [same, Bool.and_eq_true, beq_iff_eq] at h
      cases u with
      | vector => rw [same, same, ih h.1, h.2]
      | _ => rfl
    | _ => cases h
  | int w s =>
    cases t' with
    | int w' s' =>
      rw [same, Bool.and_eq_true, beq_iff_eq, beq_iff_eq] at h
      rw [h.1, h.2]
    | _ => cases h
  | float w =>
    cases t' with
    | float w' => rw [eq_of_beq h]
    | _ => cases h
  | bool =>
    cases t' with
    | bool => rfl
    | _ => cases h
  | void =>
    cases t' with
    | void => rfl
    | _ => cases h
  | other op xs =>
    cases t' with
    | other op' xs' =>
      rw [same, Bool.and_eq_true, beq_iff_eq] at h
      cases u with
      | other => rw [same, same, h.1, isEqv_congr (fun _ _ => Operand.same_congr) h.2]
      | _ => rfl
    | _ => cases h

/-- **The same constants are the same as the same constants.** -/
theorem Constant.same_congr {c c' : Constant} (h : c.same c' = true) (u : Constant) :
    c.same u = c'.same u := by
  cases c with
  | scalar t v =>
    cases c' with
    | scalar t' v' =>
      rw [same, Bool.and_eq_true] at h
      cases u with
      | scalar => rw [same, same, Ty.same_congr h.1, Number.same_congr h.2]
      | _ => rfl
    | _ => cases h
  | bool t b =>
    cases c' with
    | bool t' b' =>
      rw [same, Bool.and_eq_true, beq_iff_eq] at h
      cases u with
      | bool => rw [same, same, Ty.same_congr h.1, h.2]
      | _ => rfl
    | _ => cases h
  | composite t ids =>
    cases c' with
    | composite t' ids' =>
      rw [same, Bool.and_eq_true] at h
      cases u with
      | composite =>
        rw [same, same, Ty.same_congr h.1, isEqv_congr (fun _ _ => Id.same_congr) h.2]
      | _ => rfl
    | _ => cases h
  | null t =>
    cases c' with
    | null t' =>
      cases u with
      | null => exact Ty.same_congr h _
      | _ => rfl
    | _ => cases h

end ShiftBarrier
