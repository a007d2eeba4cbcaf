/-!
# Binary64 numbers

A floating-point number is its 64-bit interchange encoding.  Everything about it is decided in
exact arithmetic on the decoded sign, significand and exponent.

* `Binary64.magnitude` decodes a finite number as `significand * 2 ^ exponent`.
* `Binary64.equal` is numerical equality: zeros of both signs are equal, a NaN equals nothing.
* `Binary64.equalsInt` compares with an integer exactly.
-/

set_option autoImplicit false

namespace ShiftBarrier

/-- A binary64 number, given by its encoding. -/
structure Binary64 where
  bits : UInt64
  deriving DecidableEq, Repr, Inhabited

namespace Binary64

/-- The sign bit.  Zeros and NaNs have one too. -/
def negative (x : Binary64) : Bool := Nat.pow 2 63 ≤ x.bits.toNat

/-- The eleven bits behind the sign. -/
def exponentField (x : Binary64) : Nat := x.bits.toNat / Nat.pow 2 52 % Nat.pow 2 11

/-- The lowest 52 bits. -/
def fractionField (x : Binary64) : Nat := x.bits.toNat % Nat.pow 2 52

/-- Is it no number? -/
def isNaN (x : Binary64) : Bool := x.exponentField == 2047 && x.fractionField != 0

/-- Is it an infinity, of either sign? -/
def isInfinite (x : Binary64) : Bool := x.exponentField == 2047 && x.fractionField == 0

/-- A number without its sign, as `significand * 2 ^ exponent`. -/
structure Magnitude where
  significand : Nat
  exponent : Int
  deriving DecidableEq, Repr

/-- The magnitude of a finite number; subnormal numbers share the least exponent. -/
def magnitude (x : Binary64) : Magnitude :=
  if x.exponentField = 0 then ⟨x.fractionField, -1074⟩
  else ⟨Nat.pow 2 52 + x.fractionField, x.exponentField - 1075⟩

/-- The number of the given sign whose encoding without the sign bit is `magnitude`. -/
def ofFields (negative : Bool) (magnitude : Nat) : Binary64 :=
  ⟨UInt64.ofNat (magnitude + if negative then Nat.pow 2 63 else 0)⟩

/-- The infinity of a sign. -/
def infinity (negative : Bool) : Binary64 := ofFields negative (2047 * Nat.pow 2 52)

/-- The zero of a sign. -/
def zero (negative : Bool) : Binary64 := ofFields negative 0

/-- Is it a zero, of either sign? -/
def isZero (x : Binary64) : Bool := x.exponentField == 0 && x.fractionField == 0

/-- Numerical equality.  Two numbers that are no zeros are equal if their encodings are. -/
def equal (x y : Binary64) : Bool :=
  !x.isNaN && !y.isNaN && (x.bits == y.bits || (x.isZero && y.isZero))

/-- Exact comparison with an integer. -/
def equalsInt (x : Binary64) (n : Int) : Bool :=
  if x.exponentField = 2047 then false
  else
    let signed : Int := if x.negative then -x.magnitude.significand else x.magnitude.significand
    match x.magnitude.exponent with
    | .ofNat e => signed * Nat.pow 2 e == n
    | .negSucc e => signed == n * Nat.pow 2 (e + 1)

end Binary64
end ShiftBarrier
