import ShiftBarrier.Text.Decimal
import ShiftBarrier.Text.Digit

/-!
# Numbers on the command line

* `CommandLine.integer?` reads an integer: blanks around it, a sign, digits of any script, and
  single underscores between digits.
* `CommandLine.looksNegative` recognises arguments that are negative numbers and not options.
-/

set_option autoImplicit false

namespace ShiftBarrier
namespace CommandLine

/-- The digits of a numeral in which single underscores may stand between digits. -/
def digitsOf : List Char → Option (List Nat)
  | [] => none
  | [c] => (Text.digitValue? c).map ([·])
  | c :: '_' :: cs => do return (← Text.digitValue? c) :: (← digitsOf cs)
  | c :: cs => do return (← Text.digitValue? c) :: (← digitsOf cs)

/-- Takes off the blanks on both sides. -/
def trimBlanks (cs : List Char) : List Char :=
  ((cs.dropWhile Text.isBlank).reverse.dropWhile Text.isBlank).reverse

/-- The integer a text stands for.  Its digits are limited in number, as those of a decimal numeral
are. -/
def integer? (s : String) : Option Int :=
  let unsigned (cs : List Char) : Option Nat := do
    let digits ← digitsOf cs
    if digits.length ≤ Decimal.maxDigits then
      return digits.foldl (fun n d => 10 * n + d) 0
    else none
  match trimBlanks s.toList with
  | '-' :: cs => (unsigned cs).map fun n => -(n : Int)
  | '+' :: cs => (unsigned cs).map Int.ofNat
  | cs => (unsigned cs).map Int.ofNat

/-- A minus and digits, or a minus, perhaps digits, a point and digits; perhaps a line feed. -/
def looksNegative (s : String) : Bool :=
  let isDigit (c : Char) : Bool := (Text.digitValue? c).isSome
  let cs := s.toList
  let cs := if cs.getLast? == some '\n' then cs.dropLast else cs
  match cs with
  | '-' :: cs =>
    match cs.dropWhile isDigit with
    | [] => !cs.isEmpty
    | '.' :: fraction => !fraction.isEmpty && fraction.all isDigit
    | _ => false
  | _ => false

end CommandLine
end ShiftBarrier
