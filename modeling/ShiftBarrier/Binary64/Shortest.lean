import ShiftBarrier.Binary64

/-!
# The shortest decimal text of a binary64 number

A number is written with the fewest significant digits that read back as the same number, and of
those digits with the ones nearest to it, a tie going to the even digit.

* `Binary64.shortest` finds the digits.
* `Binary64.text` lays them out: positionally from `1e-4` up to below `1e16`, with an exponent of
  at least two digits elsewhere.
-/

set_option autoImplicit false

namespace ShiftBarrier
namespace Binary64

/-- The reals that round to a positive finite number, on the grid of spacing `2 ^ scale`: from `low`
to `high`, ends included if `closed`. -/
structure Basin where
  low : Nat
  middle : Nat
  high : Nat
  scale : Int
  closed : Bool

/-- The basin of `m`.  Below a power of two the spacing halves. -/
def Magnitude.basin (m : Magnitude) : Basin :=
  let below := if m.significand = Nat.pow 2 52 ∧ m.exponent ≠ -1074 then 1 else 2
  { low := 4 * m.significand - below
    middle := 4 * m.significand
    high := 4 * m.significand + 2
    scale := m.exponent - 2
    closed := m.significand % 2 == 0 }

/-- The factors that bring `x * 2 ^ two` and `y * 10 ^ ten` to one scale: `(a, b)` with
`x * a` against `y * b`. -/
def commonScale (two ten : Int) : Nat × Nat :=
  match two, ten with
  | .ofNat p, .ofNat q => (Nat.pow 2 p, Nat.pow 10 q)
  | .ofNat p, .negSucc q => (Nat.pow 2 p * Nat.pow 10 (q + 1), 1)
  | .negSucc p, .ofNat q => (1, Nat.pow 2 (p + 1) * Nat.pow 10 q)
  | .negSucc p, .negSucc q => (Nat.pow 10 (q + 1), Nat.pow 2 (p + 1))

/-- The multiple of `10 ^ ten` nearest to the middle of the basin among those inside it. -/
def Basin.nearestMultiple? (b : Basin) (ten : Int) : Option Nat :=
  let (x, y) := commonScale b.scale ten
  let inside (k : Nat) : Bool :=
    if b.closed then b.low * x ≤ k * y && k * y ≤ b.high * x
    else b.low * x < k * y && k * y < b.high * x
  let lower := b.middle * x / y
  let upper := lower + 1
  match inside lower, inside upper with
  | false, false => none
  | true, false => some lower
  | false, true => some upper
  | true, true =>
    let down := b.middle * x - lower * y
    let up := upper * y - b.middle * x
    some (if down < up || (down == up && lower % 2 == 0) then lower else upper)

/-- The least `k` with `m < 10 ^ k`. -/
def Magnitude.decimalExponent (m : Magnitude) : Int :=
  match m.exponent with
  | .ofNat e => (Nat.toDigits 10 (m.significand * Nat.pow 2 e)).length
  | .negSucc e =>
    -- `significand / 2 ^ (e + 1)` is `significand * 5 ^ (e + 1)` with `e + 1` decimal places
    ((Nat.toDigits 10 (m.significand * Nat.pow 5 (e + 1))).length : Int) - (e + 1)

/-- A decimal number: `digits * 10 ^ exponent`. -/
structure Numeral where
  digits : Nat
  exponent : Int
  deriving DecidableEq, Repr

/-- The first grid, from coarse to fine, that has a point in the basin. -/
def Basin.search (b : Basin) (k : Int) : Nat → Nat → Numeral
  | 0, count => ⟨0, k - count⟩
  | fuel + 1, count =>
    match b.nearestMultiple? (k - count) with
    | some digits => ⟨digits, k - count⟩
    | none => b.search k fuel (count + 1)

/-- The shortest decimal that reads back as `m`; seventeen digits always suffice. -/
def Magnitude.shortest (m : Magnitude) : Numeral :=
  m.basin.search m.decimalExponent 17 1

/-- Drops the final zeros of a run of digits. -/
def trimZeros (digits : List Char) : List Char :=
  (digits.reverse.dropWhile (· == '0')).reverse

/-- Lays out `0.d₁d₂… * 10 ^ point`. -/
def layOut (digits : List Char) (point : Int) : String :=
  if -4 < point ∧ point ≤ 16 then
    if point ≤ 0 then
      "0." ++ String.ofList (List.replicate (-point).toNat '0' ++ digits)
    else
      let whole := point.toNat
      let fraction := digits.drop whole
      let padding := List.replicate (whole - digits.length) '0'
      String.ofList (digits.take whole ++ padding) ++ "."
        ++ (if fraction.isEmpty then "0" else String.ofList fraction)
  else
    let exponent := point - 1
    let size := toString exponent.natAbs
    let padded := if size.length < 2 then "0" ++ size else size
    String.ofList (digits.take 1)
      ++ (if digits.length ≤ 1 then "" else "." ++ String.ofList (digits.drop 1))
      ++ "e" ++ (if exponent < 0 then "-" else "+") ++ padded

/-- The shortest decimal that reads back, or a word for what no decimal stands for. -/
def text (x : Binary64) : String :=
  if x.isNaN then "nan"
  else
    let sign := if x.negative then "-" else ""
    if x.isInfinite then sign ++ "inf"
    else if x.isZero then sign ++ "0.0"
    else
      let d := x.magnitude.shortest
      let digits := Nat.toDigits 10 d.digits
      sign ++ layOut (trimZeros digits) (digits.length + d.exponent)

end Binary64
end ShiftBarrier
