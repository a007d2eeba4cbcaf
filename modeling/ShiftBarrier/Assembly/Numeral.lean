import ShiftBarrier.Binary64.Rounding
import ShiftBarrier.Text.Decimal
import ShiftBarrier.Text.Literal

/-!
# Numerals of an assembly text

Reads the lexemes of the four kinds of number token.

* `Numeral.int`, `Numeral.hex`, `Numeral.float`, `Numeral.hexFloat`
-/

set_option autoImplicit false

namespace ShiftBarrier
namespace Numeral

/-- Takes a leading minus off; a plus is dropped. -/
def splitSign : List Char → Bool × List Char
  | '-' :: cs => (true, cs)
  | '+' :: cs => (false, cs)
  | cs => (false, cs)

/-- A number with its sign. -/
def signed (negative : Bool) (n : Nat) : Int := if negative then -n else n

/-- The number a run of decimal digits stands for, however long it is. -/
def natOfDecimal (digits : List Char) : Nat := Nat.ofDigitChars 10 digits 0

/-- The number a run of hexadecimal digits stands for. -/
def natOfHex (digits : List Char) : Nat :=
  digits.foldl (fun n c => 16 * n + (Literal.hexValue? c).getD 0) 0

/-- A decimal integer, whose length is limited. -/
def int (lexeme : List Char) : Except Decimal.Fault Int := do
  let (negative, digits) := splitSign lexeme
  return signed negative (← Decimal.toNat digits)

/-- A hexadecimal integer, written with `0x`; its length is not limited. -/
def hex (lexeme : List Char) : Int :=
  let (negative, digits) := splitSign lexeme
  signed negative (natOfHex (digits.drop 2))

/-- The exponent behind its mark, 0 if there is none. -/
def exponent : List Char → Int
  | [] => 0
  | _ :: cs => let (negative, digits) := splitSign cs; signed negative (natOfDecimal digits)

/-- Splits a numeral at its point and at its exponent mark. -/
def parts (isMark : Char → Bool) (text : List Char) : List Char × List Char × List Char :=
  let mantissa := text.takeWhile fun c => !isMark c
  (mantissa.takeWhile (· != '.'), (mantissa.dropWhile (· != '.')).drop 1,
    text.dropWhile fun c => !isMark c)

/-- A decimal number, rounded to the nearest binary64. -/
def float (lexeme : List Char) : Binary64 :=
  let (negative, text) := splitSign lexeme
  let (whole, fraction, tail) := parts (fun c => c == 'e' || c == 'E') text
  Binary64.ofDecimal negative (natOfDecimal (whole ++ fraction))
    (exponent tail - fraction.length)

/-- A hexadecimal number, written with `0x`, rounded likewise. -/
def hexFloat (lexeme : List Char) : Binary64 :=
  let (negative, text) := splitSign lexeme
  let (whole, fraction, tail) := parts (fun c => c == 'p' || c == 'P') (text.drop 2)
  Binary64.ofBinary negative (natOfHex (whole ++ fraction))
    (exponent tail - 4 * fraction.length)

end Numeral
end ShiftBarrier
