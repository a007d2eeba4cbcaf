import Mathlib.Algebra.Order.Field.Power
import Mathlib.Tactic.FieldSimp
import Mathlib.Tactic.Linarith
import Mathlib.Tactic.NormNum
import Mathlib.Tactic.Positivity
import ShiftBarrier.Binary64.Rounding
import ShiftBarrier.Binary64.Shortest
import ShiftBarrier.Proofs.Equality

/-!
# What rounds to a number

The basin of a number is an interval of rationals around it.  Whatever lies in it is rounded to the
number.

* `Magnitude.value` is what a magnitude is worth, `Magnitude.Canonical` says of a magnitude that it
  is one of a finite number, and `Magnitude.encoding` puts it into an encoding.
* `Basin.Contains` says that a rational lies in a basin.
* `lastPlace_eq` and `roundDiv_eq` say what the steps of rounding give.
* `ofRatio_of_contains` and `ofDecimal_of_contains`: a numeral in the basin of a number is read as
  that number.
-/

set_option autoImplicit false

namespace ShiftBarrier
namespace Binary64

/-! ## Magnitudes and their basins

The basin of a number is the interval of the reals that are rounded to it.  Below a power of two it
reaches half as far. -/

namespace Magnitude

/-- The value of a magnitude. -/
def value (m : Magnitude) : ℚ := m.significand * 2 ^ m.exponent

/-- The encoding of a magnitude.  A significand of one bit too many goes over into the next
exponent. -/
def encoding (m : Magnitude) : Nat := (m.exponent + 1074).toNat * 2 ^ 52 + m.significand

/-- The magnitudes of finite numbers: the exponent is as low as the significand and the format
allow. -/
structure Canonical (m : Magnitude) : Prop where
  significand_lt : m.significand < 2 ^ 53
  normal : m.exponent = -1074 ∨ 2 ^ 52 ≤ m.significand
  exponent_ge : -1074 ≤ m.exponent
  exponent_le : m.exponent ≤ 971

theorem Canonical.encoding_lt {m : Magnitude} (h : m.Canonical) :
    m.encoding < 2047 * 2 ^ 52 := by
  have hlt := h.significand_lt
  have hle := h.exponent_le
  rw [encoding]
  omega

end Magnitude

section

variable {x : Binary64}

theorem exponentField_lt (x : Binary64) : x.exponentField < 2 ^ 11 := Nat.mod_lt _ (by decide)

theorem canonical_magnitude (h : x.exponentField ≠ 2047) : x.magnitude.Canonical := by
  have hfraction := x.fractionField_lt
  have hexponent := x.exponentField_lt
  rw [magnitude]
  split
  · refine ⟨?_, .inl rfl, le_refl _, ?_⟩ <;> dsimp only <;> omega
  · refine ⟨?_, .inr ?_, ?_, ?_⟩ <;> simp only [Nat.pow_eq] <;> omega

/-- A finite number is put together from its sign and its magnitude. -/
theorem ofFields_encoding (h : x.exponentField ≠ 2047) :
    ofFields x.negative x.magnitude.encoding = x := by
  have hfields : x.magnitude.encoding = x.exponentField * 2 ^ 52 + x.fractionField := by
    rw [Magnitude.encoding, exponent_eq, significand_eq, unitBits]
    split <;> omega
  obtain ⟨bits⟩ := x
  have hbits := bits.toNat_lt
  rw [hfields, ofFields, mk.injEq, ← UInt64.toNat_inj, UInt64.toNat_ofNat']
  simp only [negative, exponentField, fractionField, Nat.pow_eq, decide_eq_true_eq] at h ⊢
  split <;> omega

theorem significand_pos (h : x.isZero = false) : 0 < x.magnitude.significand := by
  have hne : x.units ≠ 0 := fun hunits =>
    Bool.false_ne_true (h.symm.trans (isZero_iff.2 hunits))
  exact Nat.pos_of_ne_zero fun hzero => hne (by rw [units, hzero, Nat.zero_mul])

end

/-- The rational lies in the basin. -/
def Basin.Contains (b : Basin) (v : ℚ) : Prop :=
  if b.closed then b.low * 2 ^ b.scale ≤ v ∧ v ≤ b.high * 2 ^ b.scale
  else b.low * 2 ^ b.scale < v ∧ v < b.high * 2 ^ b.scale

theorem Basin.Contains.le {b : Basin} {v : ℚ} (h : b.Contains v) :
    b.low * 2 ^ b.scale ≤ v ∧ v ≤ b.high * 2 ^ b.scale := by
  rw [Contains] at h
  split at h
  · exact h
  · exact ⟨h.1.le, h.2.le⟩

theorem Basin.Contains.lt {b : Basin} {v : ℚ} (h : b.Contains v) (hopen : b.closed = false) :
    b.low * 2 ^ b.scale < v ∧ v < b.high * 2 ^ b.scale := by
  rwa [Contains, hopen, if_neg Bool.false_ne_true] at h

theorem two_zpow_pos (e : Int) : (0 : ℚ) < 2 ^ e := zpow_pos two_pos e

namespace Magnitude

variable {m : Magnitude} {v t : ℚ}

/-- How far a basin reaches down, in units of the last place. -/
def reach (m : Magnitude) : ℚ :=
  if m.significand = 2 ^ 52 ∧ m.exponent ≠ -1074 then 1 / 4 else 1 / 2

theorem reach_le (m : Magnitude) : m.reach ≤ 1 / 2 := by
  rw [reach]
  split <;> norm_num

theorem basin_scale (m : Magnitude) : (2 : ℚ) ^ m.basin.scale = 2 ^ m.exponent / 4 := by
  rw [basin, zpow_sub₀ two_ne_zero]
  norm_num

theorem basin_high (m : Magnitude) :
    m.basin.high * (2 : ℚ) ^ m.basin.scale = (m.significand + 1 / 2) * 2 ^ m.exponent := by
  rw [basin_scale, basin]
  push_cast
  ring

theorem basin_low (hpos : 0 < m.significand) :
    m.basin.low * (2 : ℚ) ^ m.basin.scale = (m.significand - m.reach) * 2 ^ m.exponent := by
  rw [basin_scale, basin, reach, Nat.pow_eq]
  split
  · rw [Nat.cast_sub (by omega)]
    push_cast
    ring
  · rw [Nat.cast_sub (by omega)]
    push_cast
    ring

/-- The numbers that are rounded to the significand when they are counted in units of the last
place. -/
structure Near (m : Magnitude) (t : ℚ) : Prop where
  low : m.significand - m.reach ≤ t
  high : t ≤ m.significand + 1 / 2
  odd : m.significand % 2 = 1 → m.significand - m.reach < t ∧ t < m.significand + 1 / 2

theorem near_of_contains (hpos : 0 < m.significand) (h : m.basin.Contains v) :
    m.Near (v / 2 ^ m.exponent) := by
  have hunit := two_zpow_pos m.exponent
  refine ⟨?_, ?_, fun hodd => ?_⟩
  · rw [le_div_iff₀ hunit, ← basin_low hpos]
    exact h.le.1
  · rw [div_le_iff₀ hunit, ← basin_high]
    exact h.le.2
  · have hopen : m.basin.closed = false := by
      rw [basin, hodd]
      rfl
    rw [lt_div_iff₀ hunit, div_lt_iff₀ hunit, ← basin_low hpos, ← basin_high]
    exact h.lt hopen

end Magnitude

/-! ## The steps of rounding -/

/-- The nearest natural number, by bounds in halves of the denominator. -/
theorem roundDiv_eq_of_halves {num den q : Nat} (hden : 0 < den)
    (hlow : 2 * (q * den) ≤ 2 * num + den) (hhigh : 2 * num ≤ 2 * (q * den) + den)
    (hodd : q % 2 = 1 → 2 * (q * den) < 2 * num + den ∧ 2 * num < 2 * (q * den) + den) :
    roundDiv num den = q := by
  have hdivision := Nat.div_add_mod' num den
  have hrest := Nat.mod_lt num hden
  have hcases : num / den = q ∨ num / den + 1 = q := by
    have hle : num / den ≤ q := by
      by_contra hgt
      have hmul := Nat.mul_le_mul_right den (Nat.not_le.1 hgt)
      rw [Nat.succ_mul] at hmul
      omega
    have hge : q ≤ num / den + 1 := by
      by_contra hlt
      have hmul := Nat.mul_le_mul_right den (Nat.not_le.1 hlt)
      rw [Nat.succ_mul, Nat.succ_mul] at hmul
      omega
    omega
  rw [roundDiv]
  rcases hcases with rfl | hq
  · refine if_neg ?_
    rw [Bool.or_eq_true, Bool.and_eq_true, decide_eq_true_eq, beq_iff_eq, beq_iff_eq]
    rintro (hmore | ⟨htie, hparity⟩)
    · omega
    · have := (hodd hparity).2
      omega
  · rw [← hq, Nat.succ_mul (num / den)] at hlow hhigh hodd
    refine (if_pos ?_).trans hq
    rw [Bool.or_eq_true, Bool.and_eq_true, decide_eq_true_eq, beq_iff_eq, beq_iff_eq]
    by_cases hmore : den < 2 * (num % den)
    · exact .inl hmore
    · refine .inr ⟨by omega, ?_⟩
      by_contra hparity
      have := (hodd (by omega)).1
      omega

/-- The nearest natural number, if it is half a unit away at most, and less if it is odd. -/
theorem roundDiv_eq {num den q : Nat} (hden : 0 < den)
    (hlow : (q : ℚ) - 1 / 2 ≤ num / den) (hhigh : (num / den : ℚ) ≤ q + 1 / 2)
    (hodd : q % 2 = 1 → (q : ℚ) - 1 / 2 < num / den ∧ (num / den : ℚ) < q + 1 / 2) :
    roundDiv num den = q := by
  have hden' : (0 : ℚ) < den := Nat.cast_pos.2 hden
  refine roundDiv_eq_of_halves hden ?_ ?_ fun hq => ⟨?_, ?_⟩
  · rw [le_div_iff₀ hden'] at hlow
    have hcast : (2 * (q * den) : ℚ) ≤ 2 * num + den := by linarith
    exact_mod_cast hcast
  · rw [div_le_iff₀ hden'] at hhigh
    have hcast : (2 * num : ℚ) ≤ 2 * (q * den) + den := by linarith
    exact_mod_cast hcast
  · have hlow := (hodd hq).1
    rw [lt_div_iff₀ hden'] at hlow
    have hcast : (2 * (q * den) : ℚ) < 2 * num + den := by linarith
    exact_mod_cast hcast
  · have hhigh := (hodd hq).2
    rw [div_lt_iff₀ hden'] at hhigh
    have hcast : (2 * num : ℚ) < 2 * (q * den) + den := by linarith
    exact_mod_cast hcast

theorem scaleDown_pos {num den : Nat} (hden : 0 < den) (e : Int) : 0 < (scaleDown num den e).2 := by
  cases e with
  | ofNat e => exact Nat.mul_pos hden (Nat.two_pow_pos e)
  | negSucc e => exact hden

/-- Scaling changes the unit. -/
theorem scaleDown_eq (num den : Nat) (e : Int) :
    ((scaleDown num den e).1 / (scaleDown num den e).2 : ℚ) = num / den / 2 ^ e := by
  cases e with
  | ofNat e =>
    rw [scaleDown, Int.ofNat_eq_natCast, zpow_natCast, Nat.pow_eq]
    push_cast
    rw [div_div]
  | negSucc e =>
    rw [scaleDown, zpow_negSucc, Nat.pow_eq]
    push_cast
    rw [div_inv_eq_mul, div_mul_eq_mul_div]

/-- A positive number lies between two powers of two. -/
theorem zpow_log2_bounds {n : Nat} (hn : 0 < n) :
    (2 : ℚ) ^ (n.log2 : Int) ≤ n ∧ (n : ℚ) < 2 ^ ((n.log2 + 1 : Nat) : Int) := by
  rw [zpow_natCast, zpow_natCast]
  constructor
  · exact_mod_cast Nat.log2_self_le hn.ne'
  · exact_mod_cast Nat.lt_log2_self

/-- A quotient is between the powers of two that the lengths of its terms give. -/
theorem two_zpow_log2 {num den : Nat} (hnum : 0 < num) (hden : 0 < den) :
    (2 : ℚ) ^ ((num.log2 : Int) - den.log2 - 1) < num / den ∧
      (num / den : ℚ) < 2 ^ ((num.log2 : Int) - den.log2 + 1) := by
  have hden' : (0 : ℚ) < den := Nat.cast_pos.2 hden
  obtain ⟨hnumLow, hnumHigh⟩ := zpow_log2_bounds hnum
  obtain ⟨hdenLow, hdenHigh⟩ := zpow_log2_bounds hden
  refine ⟨?_, ?_⟩
  · rw [lt_div_iff₀ hden']
    calc (2 : ℚ) ^ ((num.log2 : Int) - den.log2 - 1) * den
        < 2 ^ ((num.log2 : Int) - den.log2 - 1) * 2 ^ ((den.log2 + 1 : Nat) : Int) :=
          mul_lt_mul_of_pos_left hdenHigh (two_zpow_pos _)
      _ = 2 ^ (num.log2 : Int) := by
          rw [← zpow_add₀ two_ne_zero]
          congr 1
          omega
      _ ≤ num := hnumLow
  · rw [div_lt_iff₀ hden']
    calc (num : ℚ) < 2 ^ ((num.log2 + 1 : Nat) : Int) := hnumHigh
      _ = 2 ^ ((num.log2 : Int) - den.log2 + 1) * 2 ^ (den.log2 : Int) := by
          rw [← zpow_add₀ two_ne_zero]
          congr 1
          omega
      _ ≤ 2 ^ ((num.log2 : Int) - den.log2 + 1) * den :=
          mul_le_mul_of_nonneg_left hdenLow (two_zpow_pos _).le

theorem lastPlace_of_guess {num den : Nat} (hden : 0 < den) {guess : Int}
    (hguess : max ((num.log2 : Int) - den.log2 - 53) (-1074) = guess) :
    lastPlace num den
      = if (num / den / 2 ^ guess : ℚ) < 2 ^ 53 then guess else guess + 1 := by
  have hpos : 0 < (scaleDown num den guess).2 := scaleDown_pos hden guess
  have hpos' : (0 : ℚ) < (scaleDown num den guess).2 := Nat.cast_pos.2 hpos
  have htest : (scaleDown num den guess).1 / (scaleDown num den guess).2 < Nat.pow 2 53 ↔
      (num / den / 2 ^ guess : ℚ) < 2 ^ 53 := by
    rw [← scaleDown_eq, Nat.div_lt_iff_lt_mul hpos, div_lt_iff₀ hpos', ← Nat.cast_lt (α := ℚ),
      Nat.pow_eq]
    push_cast
    rfl
  rw [lastPlace, hguess]
  exact if_congr htest rfl rfl

/-- **The last place of a quotient** is the one that leaves it 53 bits, or the last of all. -/
theorem lastPlace_eq {num den : Nat} {e : Int} (hnum : 0 < num) (hden : 0 < den)
    (hge : -1074 ≤ e) (hhigh : (num / den : ℚ) < 2 ^ (e + 53))
    (hlow : e = -1074 ∨ (2 : ℚ) ^ (e + 52) ≤ num / den) : lastPlace num den = e := by
  obtain ⟨hleast, hmost⟩ := two_zpow_log2 hnum hden
  have hle : (num.log2 : Int) - den.log2 - 1 < e + 53 :=
    (zpow_lt_zpow_iff_right₀ one_lt_two).1 (hleast.trans hhigh)
  -- the guess is right, or it is one too low
  have hguess : max ((num.log2 : Int) - den.log2 - 53) (-1074) = e ∨
      (2 : ℚ) ^ (e + 52) ≤ num / den ∧
        max ((num.log2 : Int) - den.log2 - 53) (-1074) = e - 1 := by
    rcases hlow with rfl | hlow
    · exact .inl (by omega)
    · have hlt : e + 52 < (num.log2 : Int) - den.log2 + 1 :=
        (zpow_lt_zpow_iff_right₀ one_lt_two).1 (hlow.trans_lt hmost)
      have hor : max ((num.log2 : Int) - den.log2 - 53) (-1074) = e ∨
          max ((num.log2 : Int) - den.log2 - 53) (-1074) = e - 1 := by omega
      exact hor.imp_right fun h => ⟨hlow, h⟩
  rcases hguess with hguess | ⟨hlow, hguess⟩
  · rw [lastPlace_of_guess hden hguess, if_pos]
    rwa [div_lt_iff₀ (two_zpow_pos e), ← zpow_natCast, ← zpow_add₀ two_ne_zero, add_comm]
  · rw [lastPlace_of_guess hden hguess, if_neg, sub_add_cancel]
    rw [not_lt, le_div_iff₀ (two_zpow_pos _), ← zpow_natCast, ← zpow_add₀ two_ne_zero]
    have hexponent : ((53 : Nat) : Int) + (e - 1) = e + 52 := by omega
    rwa [hexponent]

/-! ## Rounding

A quotient is rounded in three steps: find the last place, divide, encode.  The last place of a
number next to a power of two may come out one too low, and the encoding makes up for it. -/

/-- A quotient near a significand, in units of its last place, is rounded to that significand. -/
theorem ofRatio_eq {num den q : Nat} {e : Int} (negative : Bool) (hnum : 0 < num) (hden : 0 < den)
    (hplace : lastPlace num den = e) (hlow : (q : ℚ) - 1 / 2 ≤ num / den / 2 ^ e)
    (hhigh : (num / den / 2 ^ e : ℚ) ≤ q + 1 / 2)
    (hodd : q % 2 = 1 → (q : ℚ) - 1 / 2 < num / den / 2 ^ e ∧ (num / den / 2 ^ e : ℚ) < q + 1 / 2)
    (hlt : Magnitude.encoding ⟨q, e⟩ < 2047 * 2 ^ 52) :
    ofRatio negative num den = ofFields negative (Magnitude.encoding ⟨q, e⟩) := by
  rw [← scaleDown_eq] at hlow hhigh hodd
  have hround := roundDiv_eq (scaleDown_pos hden e) hlow hhigh hodd
  rw [ofRatio, if_neg hnum.ne', hplace]
  dsimp only
  rw [hround]
  exact if_pos hlt

namespace Magnitude

variable {m : Magnitude} {num den : Nat}

theorem Canonical.significand_le (h : m.Canonical) : (m.significand : ℚ) ≤ 2 ^ 53 - 1 := by
  have hle : ((m.significand + 1 : Nat) : ℚ) ≤ ((2 ^ 53 : Nat) : ℚ) :=
    Nat.cast_le.2 h.significand_lt
  push_cast at hle
  linarith

theorem Near.lt_two_zpow (hnear : m.Near (num / den / 2 ^ m.exponent)) (h : m.Canonical) :
    (num / den : ℚ) < 2 ^ (m.exponent + 53) := by
  have hhigh := hnear.high
  have hle := h.significand_le
  rw [zpow_add₀ two_ne_zero, mul_comm, ← div_lt_iff₀ (two_zpow_pos _), zpow_ofNat]
  linarith

/-- The last place of what is near a magnitude is the one of the magnitude, unless it is smaller
than every number of this exponent. -/
theorem Near.ofRatio_above (hnear : m.Near (num / den / 2 ^ m.exponent)) (h : m.Canonical)
    (negative : Bool) (hnum : 0 < num) (hden : 0 < den)
    (hplace : m.exponent = -1074 ∨ (2 : ℚ) ^ (m.exponent + 52) ≤ num / den) :
    ofRatio negative num den = ofFields negative m.encoding := by
  have hreach := m.reach_le
  have hlast := lastPlace_eq hnum hden h.exponent_ge (hnear.lt_two_zpow h) hplace
  refine ofRatio_eq negative hnum hden hlast ?_ hnear.high (fun hodd => ?_) h.encoding_lt
  · linarith [hnear.low]
  · obtain ⟨hlow, hhigh⟩ := hnear.odd hodd
    exact ⟨by linarith, hhigh⟩

/-- Below a power of two the last place is one lower, and what is near the power is rounded to it
from there. -/
theorem Near.ofRatio_below (hnear : m.Near (num / den / 2 ^ m.exponent)) (h : m.Canonical)
    (negative : Bool) (hnum : 0 < num) (hden : 0 < den) (hexponent : m.exponent ≠ -1074)
    (hplace : (num / den : ℚ) < 2 ^ (m.exponent + 52)) :
    ofRatio negative num den = ofFields negative m.encoding := by
  have hunit := two_zpow_pos m.exponent
  have hlow := hnear.low
  have hbelow : (num / den / 2 ^ m.exponent : ℚ) < 2 ^ 52 := by
    rwa [div_lt_iff₀ hunit, mul_comm, ← zpow_natCast, ← zpow_add₀ two_ne_zero]
  -- only the least significand of a place reaches below it
  have hpower : m.significand = 2 ^ 52 := by
    have hge := h.normal.resolve_left hexponent
    have hreach := m.reach_le
    have hlt : (m.significand : ℚ) < ((2 ^ 52 + 1 : Nat) : ℚ) := by
      push_cast
      linarith
    have := Nat.cast_lt.1 hlt
    omega
  rw [reach, if_pos ⟨hpower, hexponent⟩, hpower] at hlow
  push_cast at hlow
  -- in the units of the lower place
  have hdouble : (num / den / 2 ^ (m.exponent - 1) : ℚ) = 2 * (num / den / 2 ^ m.exponent) := by
    rw [zpow_sub_one₀ two_ne_zero]
    field_simp
  have hencoding : encoding ⟨2 ^ 53, m.exponent - 1⟩ = m.encoding := by
    have hge := h.exponent_ge
    rw [encoding, encoding, hpower]
    dsimp only
    omega
  have hlast : lastPlace num den = m.exponent - 1 := by
    refine lastPlace_eq hnum hden ?_ ?_ (.inr ?_)
    · have := h.exponent_ge
      omega
    · have heq : m.exponent - 1 + 53 = m.exponent + 52 := by omega
      rwa [heq]
    · rw [zpow_add₀ two_ne_zero, mul_comm, ← le_div_iff₀ (two_zpow_pos _), hdouble, zpow_ofNat]
      linarith
  rw [← hencoding]
  refine ofRatio_eq negative hnum hden hlast ?_ ?_ (fun hodd => absurd hodd (by decide)) ?_
  · rw [hdouble]
    push_cast
    linarith
  · rw [hdouble]
    push_cast
    linarith
  · rw [hencoding]
    exact h.encoding_lt

end Magnitude

/-- **What lies in the basin of a number is rounded to it.** -/
theorem ofRatio_of_contains {x : Binary64} {num den : Nat} (hfinite : x.exponentField ≠ 2047)
    (hzero : x.isZero = false) (hden : 0 < den)
    (h : x.magnitude.basin.Contains (num / den)) : ofRatio x.negative num den = x := by
  have hcanonical := canonical_magnitude hfinite
  have hpos := significand_pos hzero
  have hnear := Magnitude.near_of_contains hpos h
  have hnum : 0 < num := by
    by_contra hnone
    have hlow := hnear.low
    have hreach := x.magnitude.reach_le
    have hone : (1 : ℚ) ≤ x.magnitude.significand := Nat.one_le_cast.2 hpos
    rw [Nat.eq_zero_of_not_pos hnone, Nat.cast_zero, zero_div, zero_div] at hlow
    linarith
  refine Eq.trans ?_ (ofFields_encoding hfinite)
  by_cases hplace :
      x.magnitude.exponent = -1074 ∨ (2 : ℚ) ^ (x.magnitude.exponent + 52) ≤ num / den
  · exact hnear.ofRatio_above hcanonical _ hnum hden hplace
  · rw [not_or, not_le] at hplace
    exact hnear.ofRatio_below hcanonical _ hnum hden hplace.1 hplace.2

/-! ## Decimal numerals

Numerals of very many digits are decided by their length, before any division. -/

theorem ten_zpow_pos (e : Int) : (0 : ℚ) < 10 ^ e := zpow_pos (by norm_num) e

/-- The length of a number. -/
theorem ten_zpow_length {n : Nat} (hn : 0 < n) :
    (10 : ℚ) ^ (((Nat.toDigits 10 n).length : Int) - 1) ≤ n ∧
      (n : ℚ) < 10 ^ ((Nat.toDigits 10 n).length : Int) := by
  have hpos := Nat.length_toDigits_pos (b := 10) (n := n)
  refine ⟨?_, ?_⟩
  · obtain ⟨k, hk⟩ := Nat.exists_eq_add_of_lt hpos
    have hlong : 10 ^ k ≤ n := by
      rcases Nat.eq_zero_or_pos k with rfl | hk'
      · exact hn
      · by_contra hlt
        have := (Nat.length_toDigits_le_iff (by decide) hk').2 (Nat.not_le.1 hlt)
        omega
    rw [hk, show ((0 + k + 1 : Nat) : Int) - 1 = (k : Int) by omega, zpow_natCast]
    exact_mod_cast hlong
  · have := (Nat.length_toDigits_le_iff (n := n) (by decide) hpos).1 (Nat.le_refl _)
    rw [zpow_natCast]
    exact_mod_cast this

theorem two_pow_le_ten_pow {a b : Nat} (h : a ≤ 3 * b) : (2 : ℚ) ^ a ≤ 10 ^ b :=
  calc (2 : ℚ) ^ a ≤ 2 ^ (3 * b) := pow_le_pow_right₀ one_le_two h
    _ = (2 ^ 3) ^ b := pow_mul 2 3 b
    _ ≤ 10 ^ b := pow_le_pow_left₀ (by norm_num) (by norm_num) b

/-- What is near a magnitude is far from both ends of the range that is decided by lengths. -/
theorem Magnitude.Near.between {m : Magnitude} {v : ℚ} (hnear : m.Near (v / 2 ^ m.exponent))
    (h : m.Canonical) (hpos : 0 < m.significand) :
    10 ^ (-400 : Int) ≤ v ∧ v < 10 ^ (399 : Int) := by
  have hunit := two_zpow_pos m.exponent
  have hreach := m.reach_le
  have hone : (1 : ℚ) ≤ m.significand := Nat.one_le_cast.2 hpos
  have hle := h.significand_le
  refine ⟨?_, ?_⟩
  · calc (10 : ℚ) ^ (-400 : Int) = (10 ^ 400)⁻¹ := by rw [zpow_neg, zpow_ofNat]
      _ ≤ (2 ^ 1075)⁻¹ := inv_anti₀ (by positivity) (two_pow_le_ten_pow (by decide))
      _ = 2⁻¹ * 2 ^ (-1074 : Int) := by
          rw [zpow_neg, zpow_ofNat, ← mul_inv, ← pow_succ']
      _ ≤ 2⁻¹ * 2 ^ m.exponent :=
          mul_le_mul_of_nonneg_left (zpow_le_zpow_right₀ one_le_two h.exponent_ge) (by norm_num)
      _ ≤ v := by
          rw [← le_div_iff₀ hunit]
          linarith [hnear.low]
  · calc v < 2 ^ 53 * 2 ^ m.exponent := by
          rw [← div_lt_iff₀ hunit]
          linarith [hnear.high]
      _ ≤ 2 ^ 53 * 2 ^ (971 : Int) :=
          mul_le_mul_of_nonneg_left (zpow_le_zpow_right₀ one_le_two h.exponent_le) (by norm_num)
      _ ≤ 10 ^ (399 : Int) := by
          rw [zpow_ofNat, zpow_ofNat, ← pow_add]
          exact two_pow_le_ten_pow (by decide)

/-- **A decimal numeral in the basin of a number is read as that number.** -/
theorem ofDecimal_of_contains {x : Binary64} {significand : Nat} {exponent : Int}
    (hfinite : x.exponentField ≠ 2047) (hzero : x.isZero = false)
    (h : x.magnitude.basin.Contains (significand * 10 ^ exponent)) :
    ofDecimal x.negative significand exponent = x := by
  have hnear := Magnitude.near_of_contains (significand_pos hzero) h
  obtain ⟨hlow, hhigh⟩ := hnear.between (canonical_magnitude hfinite) (significand_pos hzero)
  have hpos : 0 < significand := by
    by_contra hnone
    rw [Nat.eq_zero_of_not_pos hnone, Nat.cast_zero, zero_mul] at hlow
    exact absurd (ten_zpow_pos (-400)) (not_lt.2 hlow)
  obtain ⟨hshort, hlong⟩ := ten_zpow_length hpos
  have hten := ten_zpow_pos exponent
  have hle : ((Nat.toDigits 10 significand).length : Int) - 1 + exponent < 399 := by
    rw [← zpow_lt_zpow_iff_right₀ (a := (10 : ℚ)) (by norm_num), zpow_add₀ (by norm_num)]
    exact (mul_le_mul_of_nonneg_right hshort hten.le).trans_lt hhigh
  have hge : -400 < ((Nat.toDigits 10 significand).length : Int) + exponent := by
    rw [← zpow_lt_zpow_iff_right₀ (a := (10 : ℚ)) (by norm_num), zpow_add₀ (by norm_num)]
    exact hlow.trans_lt (mul_lt_mul_of_pos_right hlong hten)
  rw [ofDecimal.eq_def]
  dsimp only
  rw [if_neg hpos.ne', if_neg (by omega), if_neg (by omega)]
  cases exponent with
  | ofNat e =>
    refine ofRatio_of_contains hfinite hzero Nat.one_pos ?_
    rw [Int.ofNat_eq_natCast, zpow_natCast] at h
    rw [Nat.pow_eq]
    push_cast
    rwa [div_one]
  | negSucc e =>
    refine ofRatio_of_contains hfinite hzero (Nat.pow_pos (by decide)) ?_
    rw [zpow_negSucc, ← div_eq_mul_inv] at h
    rw [Nat.pow_eq]
    push_cast
    exact h

end Binary64
end ShiftBarrier
