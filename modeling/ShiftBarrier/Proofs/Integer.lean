import Mathlib.Tactic.Positivity
import ShiftBarrier.Integer

/-!
# Cutting integers to a length

* `Integer.checkBits_eq_ok_iff` and `Integer.checkBits_eq_error_iff` say which lengths there are.
* `Integer.low_eq` says that cutting an integer takes the remainder by a power of two.  So a bit
  pattern comes out, see `Integer.low_nonneg` and `Integer.low_lt`, and a bit pattern stays as it
  is, see `Integer.low_of_lt`.
* `Integer.shiftLeft_of_le` shifts by a count within bounds.
-/

set_option autoImplicit false

namespace ShiftBarrier
namespace Integer

/-! ## Lengths -/

theorem checkBits_eq_ok_iff {bits n : Nat} :
    checkBits bits = .ok n ↔ bits ≤ maxBits ∧ n = bits := by
  rw [checkBits]
  split
  · next hle => exact ⟨fun h => ⟨hle, (Except.ok.inj h).symm⟩, fun h => congrArg _ h.2.symm⟩
  · next hgt => exact ⟨nofun, fun h => absurd h.1 hgt⟩

theorem checkBits_eq_error_iff {bits : Nat} {e : Error} :
    checkBits bits = .error e ↔ maxBits < bits ∧ e = .tooLong bits := by
  rw [checkBits]
  split
  · next hle => exact ⟨nofun, fun h => absurd hle (Nat.not_le.2 h.1)⟩
  · next hgt =>
    exact ⟨fun h => ⟨Nat.not_le.1 hgt, (Except.error.inj h).symm⟩, fun h => congrArg _ h.2.symm⟩

/-- A length within bounds has few enough decimal digits to be written. -/
theorem maxBits_lt_pow_maxDigits : maxBits < 10 ^ Decimal.maxDigits :=
  Nat.lt_of_lt_of_le (by decide : maxBits < 10 ^ 20) (Nat.pow_le_pow_right (by decide) (by decide))

/-! ## The lowest bits -/

theorem low_eq (bits : Nat) (n : Int) : low bits n = n % 2 ^ bits := by
  rw [low]
  split
  · next hn =>
    rcases hn with rfl | ⟨hpos, hlog⟩
    · simp
    · obtain ⟨m, rfl⟩ := Int.eq_ofNat_of_zero_le (Int.le_of_lt hpos)
      have hm : m < 2 ^ bits := (Nat.log2_lt (by omega)).1 hlog
      exact (Int.emod_eq_of_lt (by omega) (by exact_mod_cast hm)).symm
  · simp

theorem low_nonneg (bits : Nat) (n : Int) : 0 ≤ low bits n := by
  rw [low_eq]
  exact Int.emod_nonneg _ (by positivity)

theorem low_lt (bits : Nat) (n : Int) : low bits n < 2 ^ bits := by
  rw [low_eq]
  exact Int.emod_lt_of_pos _ (by positivity)

theorem low_of_lt {bits : Nat} {n : Int} (h0 : 0 ≤ n) (h : n < 2 ^ bits) : low bits n = n := by
  rw [low_eq, Int.emod_eq_of_lt h0 h]

/-! ## Shifts -/

theorem shiftLeft_of_le {count : Nat} (n : Int) (h : count ≤ maxBits) :
    shiftLeft n count = .ok (n * 2 ^ count) := by
  rw [shiftLeft, if_neg (by omega)]
  by_cases hzero : n = 0
  · rw [if_pos hzero, hzero, Int.zero_mul]
    rfl
  · rw [if_neg hzero, Int.toNat_natCast, powerOfTwo, if_pos h]
    rfl

end Integer
end ShiftBarrier
