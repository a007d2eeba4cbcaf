import ShiftBarrier.Integer

/-!
# Integer operations

Operations work on integers of any size, a negative one standing for its infinite two's complement;
cutting a result to its width comes after.

* `Arithmetic.and`, `Arithmetic.or`, `Arithmetic.xor` are the bitwise operations on integers.
* `Arithmetic.Operation` is an operation with its number of arguments; `Arithmetic.Operation.eval`
  applies it.
-/

set_option autoImplicit false

namespace ShiftBarrier
namespace Arithmetic

/-! ## Bitwise operations

A negative number `-n - 1` has the bits that `n` has not, so all four cases come down to natural
numbers. -/

/-- The bits of `m` that are not in `n`. -/
def clear (m n : Nat) : Nat := m ^^^ (m &&& n)

/-- The bits that both have.  Bits of a negative number are those that its complement has not. -/
def and : Int → Int → Int
  | .ofNat m, .ofNat n => .ofNat (m &&& n)
  | .ofNat m, .negSucc n => .ofNat (clear m n)
  | .negSucc m, .ofNat n => .ofNat (clear n m)
  | .negSucc m, .negSucc n => .negSucc (m ||| n)

/-- The bits that one of the two has. -/
def or : Int → Int → Int
  | .ofNat m, .ofNat n => .ofNat (m ||| n)
  | .ofNat m, .negSucc n => .negSucc (clear n m)
  | .negSucc m, .ofNat n => .negSucc (clear m n)
  | .negSucc m, .negSucc n => .negSucc (m &&& n)

/-- The bits that exactly one of the two has. -/
def xor : Int → Int → Int
  | .ofNat m, .ofNat n => .ofNat (m ^^^ n)
  | .ofNat m, .negSucc n => .negSucc (m ^^^ n)
  | .negSucc m, .ofNat n => .negSucc (m ^^^ n)
  | .negSucc m, .negSucc n => .ofNat (m ^^^ n)

/-- The complement of every bit. -/
def complement (n : Int) : Int := -n - 1

/-! ## Shifts -/

/-- A shift by the width or more leaves nothing. -/
def shiftLeftLogical (width base shift : Int) : Except Error Int :=
  if width ≤ shift then .ok 0 else Integer.shiftLeft base shift

/-- The floor of a quotient.  It fills in zeros, a bit pattern not being negative. -/
def shiftRightLogical (width base shift : Int) : Except Error Int :=
  if width ≤ shift then .ok 0 else Integer.shiftRight base shift

/-- Replaces `count` bits of `base` from `offset` on by the lowest bits of `insert`. -/
def bitFieldInsert (width base insert offset count : Int) : Except Error Int := do
  if width < offset + count then
    throw (.evaluation (.bitfieldRange (← Decimal.ofInt offset)
      (← Decimal.ofInt (offset + count)) (← Decimal.ofInt width)))
  let mask ← Integer.shiftLeft ((← Integer.shiftLeft 1 count) - 1) offset
  return or (and base (complement mask)) (and (← Integer.shiftLeft insert offset) mask)

/-! ## Operations by opcode

Operations are told apart before their arguments are counted. -/

/-- The operations that can be evaluated, copies aside. -/
inductive Operation
  | shiftLeftLogical | shiftRightLogical | add | sub | mul | and | or | xor | bitFieldInsert
  deriving DecidableEq, Repr

namespace Operation

/-- The operation of an opcode. -/
def ofOpcode? : String → Option Operation
  | "OpShiftLeftLogical" => some .shiftLeftLogical
  | "OpShiftRightLogical" => some .shiftRightLogical
  | "OpIAdd" => some .add
  | "OpISub" => some .sub
  | "OpIMul" => some .mul
  | "OpBitwiseAnd" => some .and
  | "OpBitwiseOr" => some .or
  | "OpBitwiseXor" => some .xor
  | "OpBitFieldInsert" => some .bitFieldInsert
  | _ => none

/-- Applies an operation.  Only shifts and insertions look at the width. -/
def eval (width : Int) : Operation → List Int → Except Error Int
  | .shiftLeftLogical, [a, b] => Arithmetic.shiftLeftLogical width a b
  | .shiftRightLogical, [a, b] => Arithmetic.shiftRightLogical width a b
  | .add, [a, b] => .ok (a + b)
  | .sub, [a, b] => .ok (a - b)
  | .mul, [a, b] => .ok (a * b)
  | .and, [a, b] => .ok (Arithmetic.and a b)
  | .or, [a, b] => .ok (Arithmetic.or a b)
  | .xor, [a, b] => .ok (Arithmetic.xor a b)
  | .bitFieldInsert, [a, b, c, d] => Arithmetic.bitFieldInsert width a b c d
  | _, _ => .error .arity

/-- The operation of an opcode, or an error. -/
def named (opcode : String) : Except Error Operation :=
  match ofOpcode? opcode with
  | some operation => .ok operation
  | none => .error .unknownOperation

end Operation
end Arithmetic
end ShiftBarrier
