/-!
# Decimal numerals

Integers are written and read in base ten.  A numeral of more than `maxDigits` digits is neither
written nor read; leading zeros count as digits, a sign does not.

* `Decimal.ofNat`, `Decimal.ofInt` write a number.
* `Decimal.toNat` reads a run of digits; it reads back what was written.
-/

set_option autoImplicit false

namespace ShiftBarrier
namespace Decimal

/-- The length of the longest numeral that is written or read. -/
def maxDigits : Nat := 4300

/-- Why a numeral was not written or read. -/
inductive Fault
  | reading (digits : Nat)
  | writing
  deriving DecidableEq, Repr

/-- The text of a fault. -/
def Fault.message : Fault → String
  | .reading digits =>
    s!"Exceeds the limit ({maxDigits} digits) for integer string conversion: value has {digits}"
      ++ " digits; use sys.set_int_max_str_digits() to increase the limit"
  | .writing =>
    s!"Exceeds the limit ({maxDigits} digits) for integer string conversion;"
      ++ " use sys.set_int_max_str_digits() to increase the limit"

/-- A number with more than four bits for each digit allowed is too long in any case. -/
def ofNat (n : Nat) : Except Fault String :=
  if 4 * maxDigits < n.log2 then .error .writing
  else
    let digits := Nat.toDigits 10 n
    if digits.length ≤ maxDigits then .ok (String.ofList digits) else .error .writing

/-- The numeral of an integer. -/
def ofInt : Int → Except Fault String
  | .ofNat n => ofNat n
  | .negSucc n => (ofNat (n + 1)).map ("-" ++ ·)

/-- Reads a run of the digits `0` to `9`. -/
def toNat (digits : List Char) : Except Fault Nat :=
  if digits.length ≤ maxDigits then .ok (Nat.ofDigitChars 10 digits 0)
  else .error (.reading digits.length)

/-- What was written is read back. -/
theorem toNat_toList_of_ofNat {n : Nat} {s : String} (h : ofNat n = .ok s) :
    toNat s.toList = .ok n := by
  simp only [ofNat] at h
  split at h
  · cases h
  · split at h
    · next hlength =>
      cases h
      rw [toNat, String.toList_ofList, if_pos hlength, Nat.ofDigitChars_ten_toDigits]
    · cases h

end Decimal
end ShiftBarrier
