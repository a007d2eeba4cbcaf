import ShiftBarrier.Error

/-!
# Integers and their length

Integers are exact, but there is an end to them: an integer is held as digits behind a header, and
its size in bytes is a 64-bit word with a sign.  A power of two that takes more digits is refused at
once, whatever memory there is.  Powers of two are where that matters, since a short text can ask
for any of them.  A sum, a product or a shifted operand is too long only if an integer of at least
half that length is held already, and how much memory there is is not modelled.

* `Integer.checkBits` passes on a number of bits whose power of two there is.
* `Integer.shiftLeft` and `Integer.shiftRight` multiply and divide by a power of two, and
  `Integer.low` takes the remainder.
-/

set_option autoImplicit false

namespace ShiftBarrier
namespace Integer

/-! ## The longest power of two -/

/-- The bits of a digit, for which 4 bytes are taken. -/
def digitBits : Nat := 30

/-- As many digits of 4 bytes as a signed 64-bit size leaves room for behind a header of 24
bytes. -/
def maxDigits : Nat := (Nat.pow 2 63 - 1 - 24) / 4

/-- The longest power of two is `2 ^ maxBits`: its only one is the lowest bit of the last digit. -/
def maxBits : Nat := digitBits * (maxDigits - 1)

/-- A number of bits, if the power of two with that exponent can be held. -/
def checkBits (bits : Nat) : Except Error Nat :=
  if bits ≤ maxBits then .ok bits else .error (.tooLong bits)

/-- The power of two with an exponent, if it can be held. -/
def powerOfTwo (bits : Nat) : Except Error Nat :=
  if bits ≤ maxBits then .ok (Nat.pow 2 bits) else .error (.tooLong bits)

/-! ## Multiplying and dividing by powers of two -/

/-- `n * 2 ^ count`.  Zero may be shifted by any count. -/
def shiftLeft (n count : Int) : Except Error Int := do
  if count < 0 then throw .negativeShift
  else if n = 0 then return 0
  else return n * (← powerOfTwo count.toNat)

/-- The floor of `n / 2 ^ count`. -/
def shiftRight (n count : Int) : Except Error Int :=
  if count < 0 then .error .negativeShift else .ok (n >>> count.toNat)

/-- The lowest bits of an integer.  One that is no longer than that is left as it is, so that no
power of two is computed for it. -/
def low (bits : Nat) (n : Int) : Int :=
  if n = 0 ∨ 0 < n ∧ n.toNat.log2 < bits then n else n % (Nat.pow 2 bits : Nat)

end Integer
end ShiftBarrier
