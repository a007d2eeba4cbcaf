import ShiftBarrier.Proofs.Binary64.Rounding

/-!
# The shortest decimal of a number

The digits that a number is written with are found by searching finer and finer decimal grids for a
point in the basin of the number.

* `commonScale_eq` says that the search compares rationals exactly.
* `Basin.contains_of_nearestMultiple?`: what is found lies in the basin.
* `Magnitude.Canonical.nearestMultiple?_seventeen`: a grid of seventeen digits has a point in every
  basin, so something is found.
* `Magnitude.Canonical.contains_shortest` is the result.
-/

set_option autoImplicit false

namespace ShiftBarrier
namespace Binary64

/-! ## Comparing across scales -/

/-- Both factors are multiplied by the same number. -/
theorem commonScale_eq (two ten : Int) : ∃ c : ℚ, 0 < c ∧
    ((commonScale two ten).1 : ℚ) = c * 2 ^ two ∧ ((commonScale two ten).2 : ℚ) = c * 10 ^ ten := by
  cases two with
  | ofNat p => cases ten with
    | ofNat q =>
      refine ⟨1, one_pos, ?_, ?_⟩ <;>
      · simp only [commonScale, Int.ofNat_eq_natCast, zpow_natCast, Nat.pow_eq]
        push_cast
        rw [one_mul]
    | negSucc q =>
      refine ⟨10 ^ (q + 1), by positivity, ?_, ?_⟩
      · simp only [commonScale, Int.ofNat_eq_natCast, zpow_natCast, Nat.pow_eq]
        push_cast
        rw [mul_comm]
      · rw [commonScale, zpow_negSucc, Nat.cast_one, mul_inv_cancel₀ (by positivity)]
  | negSucc p => cases ten with
    | ofNat q =>
      refine ⟨2 ^ (p + 1), by positivity, ?_, ?_⟩
      · rw [commonScale, zpow_negSucc, Nat.cast_one, mul_inv_cancel₀ (by positivity)]
      · simp only [commonScale, Int.ofNat_eq_natCast, zpow_natCast, Nat.pow_eq]
        push_cast
        rfl
    | negSucc q =>
      refine ⟨2 ^ (p + 1) * 10 ^ (q + 1), by positivity, ?_, ?_⟩
      · rw [zpow_negSucc, mul_right_comm, mul_inv_cancel₀ (by positivity), one_mul]
        simp only [commonScale, Nat.pow_eq]
        push_cast
        rfl
      · rw [zpow_negSucc, mul_assoc, mul_inv_cancel₀ (by positivity), mul_one]
        simp only [commonScale, Nat.pow_eq]
        push_cast
        rfl

section

variable (two ten : Int) (a k : Nat)

theorem commonScale_le : a * (commonScale two ten).1 ≤ k * (commonScale two ten).2 ↔
    (a * 2 ^ two : ℚ) ≤ k * 10 ^ ten := by
  obtain ⟨c, hc, hx, hy⟩ := commonScale_eq two ten
  rw [← Nat.cast_le (α := ℚ), Nat.cast_mul, Nat.cast_mul, hx, hy, mul_left_comm,
    mul_left_comm (k : ℚ), mul_le_mul_iff_right₀ hc]

theorem commonScale_ge : k * (commonScale two ten).2 ≤ a * (commonScale two ten).1 ↔
    (k * 10 ^ ten : ℚ) ≤ a * 2 ^ two := by
  obtain ⟨c, hc, hx, hy⟩ := commonScale_eq two ten
  rw [← Nat.cast_le (α := ℚ), Nat.cast_mul, Nat.cast_mul, hx, hy, mul_left_comm,
    mul_left_comm (a : ℚ), mul_le_mul_iff_right₀ hc]

end

/-! ## The grid

For each number of digits there is a grid of decimals.  A point of it in the basin is what is looked
for. -/

namespace Basin

variable {b : Basin} {ten : Int} {k : Nat}

/-- A grid point is tested for being in the basin. -/
theorem inside_iff {x y : Nat} (hscale : commonScale b.scale ten = (x, y)) (k : Nat) :
    (if b.closed = true then decide (b.low * x ≤ k * y) && decide (k * y ≤ b.high * x)
      else decide (b.low * x < k * y) && decide (k * y < b.high * x)) = true
      ↔ b.Contains (k * 10 ^ ten) := by
  have hle := commonScale_le b.scale ten b.low k
  have hge := commonScale_ge b.scale ten b.high k
  have hlt := commonScale_ge b.scale ten b.low k
  have hgt := commonScale_le b.scale ten b.high k
  rw [hscale] at hle hge hlt hgt
  rw [Contains]
  split
  · rw [Bool.and_eq_true, decide_eq_true_eq, decide_eq_true_eq, hle, hge]
  · rw [Bool.and_eq_true, decide_eq_true_eq, decide_eq_true_eq, ← not_le, ← not_le, hlt, hgt,
      not_le, not_le]

/-- **What is found on a grid lies in the basin.** -/
theorem contains_of_nearestMultiple? (h : b.nearestMultiple? ten = some k) :
    b.Contains (k * 10 ^ ten) := by
  rw [nearestMultiple?] at h
  rcases hscale : commonScale b.scale ten with ⟨x, y⟩
  rw [hscale] at h
  dsimp only at h
  rw [← inside_iff hscale]
  split at h
  · cases h
  · next hlower _ =>
    cases h
    exact hlower
  · next _ hupper =>
    cases h
    exact hupper
  · next hlower hupper =>
    rw [Option.some.injEq] at h
    split at h
    · rwa [← h]
    · rwa [← h]

/-- The grid point below the middle, as a multiple of the spacing. -/
def below (b : Basin) (ten : Int) : Nat :=
  b.middle * (commonScale b.scale ten).1 / (commonScale b.scale ten).2

theorem below_le (b : Basin) (ten : Int) :
    (b.below ten * 10 ^ ten : ℚ) ≤ b.middle * 2 ^ b.scale :=
  (commonScale_ge _ _ _ _).1 (Nat.div_mul_le_self _ _)

theorem lt_below_succ (b : Basin) (ten : Int) :
    (b.middle * 2 ^ b.scale : ℚ) < (b.below ten + 1 : Nat) * 10 ^ ten := by
  have hpos : 0 < (commonScale b.scale ten).2 := by
    obtain ⟨c, hc, -, hy⟩ := commonScale_eq b.scale ten
    rw [← Nat.cast_pos (α := ℚ), hy]
    exact mul_pos hc (ten_zpow_pos ten)
  rw [← not_le, ← commonScale_ge, not_le]
  exact Nat.lt_mul_of_div_lt (Nat.lt_succ_self _) hpos

/-- The two grid points next to the middle are tried. -/
theorem nearestMultiple?_ne_none (h : b.Contains (b.below ten * 10 ^ ten) ∨
    b.Contains ((b.below ten + 1 : Nat) * 10 ^ ten)) : b.nearestMultiple? ten ≠ none := by
  rw [nearestMultiple?]
  rcases hscale : commonScale b.scale ten with ⟨x, y⟩
  rw [← inside_iff hscale, ← inside_iff hscale, below, hscale] at h
  dsimp only at h ⊢
  split
  · next hlower hupper =>
    rw [hlower, hupper] at h
    exact absurd h (by decide)
  all_goals exact Option.some_ne_none _

end Basin

/-! ## The search

With seventeen digits the grid is finer than the basins, so the search ends there at the latest. -/

namespace Magnitude

variable {m : Magnitude}

theorem basin_middle (m : Magnitude) :
    m.basin.middle * (2 : ℚ) ^ m.basin.scale = m.value := by
  rw [basin_scale, basin, value]
  push_cast
  ring

/-- What is less than half a unit away lies in the basin. -/
theorem contains_of_close {v : ℚ} (hpos : 0 < m.significand)
    (hlow : m.value - m.reach * 2 ^ m.exponent < v) (hhigh : v < m.value + 1 / 2 * 2 ^ m.exponent) :
    m.basin.Contains v := by
  rw [Basin.Contains, basin_low hpos, basin_high]
  rw [value] at hlow hhigh
  have hlow' : (m.significand - m.reach) * 2 ^ m.exponent < v := by linarith
  have hhigh' : v < (m.significand + 1 / 2) * 2 ^ m.exponent := by linarith
  split
  · exact ⟨hlow'.le, hhigh'.le⟩
  · exact ⟨hlow', hhigh'⟩

theorem decimalExponent_spec (hpos : 0 < m.significand) :
    (10 : ℚ) ^ (m.decimalExponent - 1) ≤ m.value := by
  rw [decimalExponent.eq_def, value]
  cases m.exponent with
  | ofNat e =>
    refine (ten_zpow_length (Nat.mul_pos hpos (Nat.two_pow_pos e))).1.trans_eq ?_
    rw [Int.ofNat_eq_natCast, zpow_natCast]
    push_cast
    rfl
  | negSucc e =>
    have hlong := (ten_zpow_length (Nat.mul_pos hpos (Nat.pow_pos (n := e + 1) (a := 5)
      (by decide)))).1
    dsimp only
    rw [Nat.pow_eq, sub_right_comm, zpow_sub₀ (by norm_num), zpow_negSucc, ← div_eq_mul_inv]
    calc _ ≤ ((m.significand * 5 ^ (e + 1) : Nat) : ℚ) / 10 ^ ((e : Int) + 1) :=
          div_le_div_of_nonneg_right hlong (ten_zpow_pos _).le
      _ = m.significand / 2 ^ (e + 1) := by
          rw [← Nat.cast_succ, zpow_natCast, show (10 : ℚ) = 2 * 5 by norm_num, mul_pow]
          push_cast
          rw [mul_div_mul_right _ _ (by positivity)]

/-- Seventeen digits are finer than the binary digits. -/
theorem Canonical.significand_lt_reach (h : m.Canonical) :
    (m.significand : ℚ) < 2 * m.reach * 10 ^ 16 := by
  rw [reach]
  split
  · next hpower =>
    rw [hpower.1]
    norm_num
  · refine h.significand_le.trans_lt ?_
    norm_num

/-- One of the two grid points next to a number is at most half the spacing away, and in the
basin. -/
theorem Canonical.nearestMultiple?_seventeen (h : m.Canonical) (hpos : 0 < m.significand) :
    m.basin.nearestMultiple? (m.decimalExponent - 17) ≠ none := by
  have hunit := two_zpow_pos m.exponent
  have hreach := m.reach_le
  have hlower := m.basin.below_le (m.decimalExponent - 17)
  have hupper := m.basin.lt_below_succ (m.decimalExponent - 17)
  have hspacing : (10 : ℚ) ^ (m.decimalExponent - 17) < 2 * m.reach * 2 ^ m.exponent := by
    have hleast := decimalExponent_spec hpos
    have hsplit : m.decimalExponent - 1 = m.decimalExponent - 17 + (16 : Nat) := by
      push_cast
      ring
    rw [hsplit, zpow_add₀ (by norm_num), zpow_natCast, value, ← le_div_iff₀ (by norm_num)] at hleast
    refine hleast.trans_lt ?_
    rw [div_lt_iff₀ (by norm_num), mul_right_comm]
    exact mul_lt_mul_of_pos_right h.significand_lt_reach hunit
  have hhalf : m.reach * 2 ^ m.exponent ≤ 1 / 2 * 2 ^ m.exponent :=
    mul_le_mul_of_nonneg_right hreach hunit.le
  rw [basin_middle] at hlower hupper
  push_cast at hupper
  refine Basin.nearestMultiple?_ne_none ?_
  rcases le_total (m.value - m.basin.below (m.decimalExponent - 17)
    * 10 ^ (m.decimalExponent - 17)) (10 ^ (m.decimalExponent - 17) / 2) with hdown | hup
  · refine .inl (contains_of_close hpos ?_ ?_) <;> linarith
  · refine .inr (contains_of_close hpos ?_ ?_) <;> push_cast <;> linarith

end Magnitude

theorem Basin.search_spec {b : Basin} {k : Int} {fuel count : Nat} (hfound : ∃ j, count ≤ j ∧
    j < count + fuel ∧ b.nearestMultiple? (k - j) ≠ none) :
    b.Contains ((b.search k fuel count).digits * 10 ^ (b.search k fuel count).exponent) := by
  induction fuel generalizing count with
  | zero =>
    obtain ⟨j, hle, hlt, -⟩ := hfound
    omega
  | succ fuel ih =>
    rw [search]
    split
    · next digits hdigits => exact contains_of_nearestMultiple? hdigits
    · next hnone =>
      obtain ⟨j, hle, hlt, hj⟩ := hfound
      refine ih ⟨j, ?_, by omega, hj⟩
      rcases Nat.eq_or_lt_of_le hle with rfl | hlt
      · exact absurd hnone hj
      · exact hlt

/-- **The shortest decimal of a number lies in its basin.** -/
theorem Magnitude.Canonical.contains_shortest {m : Magnitude} (h : m.Canonical)
    (hpos : 0 < m.significand) :
    m.basin.Contains (m.shortest.digits * 10 ^ m.shortest.exponent) :=
  Basin.search_spec ⟨17, by decide, by decide, h.nearestMultiple?_seventeen hpos⟩

end Binary64
end ShiftBarrier
