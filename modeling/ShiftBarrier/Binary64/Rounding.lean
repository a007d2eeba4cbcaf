import ShiftBarrier.Binary64

/-!
# Rounding to binary64

Every number read from text is rounded once, to the nearest binary64 number, a tie going to the
neighbour with an even significand.  Numbers beyond the largest finite one become infinite.

* `Binary64.ofRatio` rounds a quotient of natural numbers.
* `Binary64.ofDecimal` and `Binary64.ofBinary` round a significand scaled by a power of ten or two.
-/

set_option autoImplicit false

namespace ShiftBarrier
namespace Binary64

/-- `num / den` rounded to the nearest natural number, ties to even. -/
def roundDiv (num den : Nat) : Nat :=
  let quotient := num / den
  let twice := 2 * (num % den)
  if den < twice || (twice == den && quotient % 2 == 1) then quotient + 1 else quotient

/-- The numerator and denominator of `num / den / 2 ^ e`. -/
def scaleDown (num den : Nat) : Int → Nat × Nat
  | .ofNat e => (num, den * Nat.pow 2 e)
  | .negSucc e => (num * Nat.pow 2 (e + 1), den)

/-- The exponent of the last place of `num / den`, at least the one of subnormal numbers. -/
def lastPlace (num den : Nat) : Int :=
  let guess : Int := max ((num.log2 : Int) - den.log2 - 53) (-1074)
  let (n, d) := scaleDown num den guess
  if n / d < Nat.pow 2 53 then guess else guess + 1

/-- The binary64 number nearest to `num / den`, for a positive `den`. -/
def ofRatio (negative : Bool) (num den : Nat) : Binary64 :=
  if num = 0 then zero negative
  else
    let e := lastPlace num den
    let (n, d) := scaleDown num den e
    let magnitude := (e + 1074).toNat * Nat.pow 2 52 + roundDiv n d
    if magnitude < 2047 * Nat.pow 2 52 then ofFields negative magnitude else infinity negative

/-- The number nearest to `significand * 10 ^ exponent`.  Scales that put every significand of
this length beyond the range are decided without computing the power. -/
def ofDecimal (negative : Bool) (significand : Nat) (exponent : Int) : Binary64 :=
  let length : Int := (Nat.toDigits 10 significand).length
  if significand = 0 then zero negative
  else if 400 < length + exponent then infinity negative
  else if length + exponent < -400 then zero negative
  else match exponent with
    | .ofNat e => ofRatio negative (significand * Nat.pow 10 e) 1
    | .negSucc e => ofRatio negative significand (Nat.pow 10 (e + 1))

/-- The number nearest to `significand * 2 ^ exponent`. -/
def ofBinary (negative : Bool) (significand : Nat) (exponent : Int) : Binary64 :=
  let length : Int := significand.log2
  if significand = 0 then zero negative
  else if 1100 < length + exponent then infinity negative
  else if length + exponent < -1100 then zero negative
  else match exponent with
    | .ofNat e => ofRatio negative (significand * Nat.pow 2 e) 1
    | .negSucc e => ofRatio negative significand (Nat.pow 2 (e + 1))

end Binary64
end ShiftBarrier
