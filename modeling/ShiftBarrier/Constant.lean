import ShiftBarrier.Ty

/-!
# Constants

* `Constant` is the value of a declared constant.
* `Constant.ofLiteral` reduces an integer to the bit pattern it has in its type, so that `-1` and
  `0xffffffff` of one type are one constant.
* `Constant.same` compares constants by type and value.
-/

set_option autoImplicit false

namespace ShiftBarrier

/-- A constant.  The lanes of a composite are ids, so that its value depends on other
declarations. -/
inductive Constant
  | scalar (type : Ty) (value : Number)
  | bool (type : Ty) (value : Bool)
  | composite (type : Ty) (components : List Id)
  | null (type : Ty)
  deriving DecidableEq, Repr

namespace Constant

/-- The type a constant is declared with. -/
def type : Constant → Ty
  | .scalar t _ | .bool t _ | .composite t _ | .null t => t

/-- The constant of a literal.  An integer type takes only integers, and takes those of any size. -/
def ofLiteral (type : Ty) (value : Number) : Except Error Constant :=
  match type, value with
  | .int w _, .int n => do
    return .scalar type (.int (Integer.low (← Integer.checkBits w) n))
  | .int _ _, .float _ => do
    throw (.moduleFault (.nonIntegerLiteral (← value.text) (← type.name)))
  | _, _ => .ok (.scalar type value)

/-- The zero of an integer type. -/
def zero (width : Nat) (signed : Bool) : Constant := .scalar (.int width signed) (.int 0)

/-- Equality of type and value.  A null constant is not the same as a constant that is zero. -/
def same : Constant → Constant → Bool
  | .scalar t v, .scalar t' v' => t.same t' && v.same v'
  | .bool t b, .bool t' b' => t.same t' && b == b'
  | .composite t is, .composite t' is' => t.same t' && is.isEqv is' Id.same
  | .null t, .null t' => t.same t'
  | _, _ => false

/-- The opcode and the operands of a declaration of the constant. -/
def declaration : Constant → String × List Operand
  | .scalar _ v => ("OpConstant", [.literal v none])
  | .bool _ b => (if b then "OpConstantTrue" else "OpConstantFalse", [])
  | .composite _ is => ("OpConstantComposite", is.map .id)
  | .null _ => ("OpConstantNull", [])

/-- The structure of a constant, for messages. -/
def describe : Constant → Except Decimal.Fault String
  | .scalar t v => do return s!"ScalarConstant(type={← t.describe}, value={← v.text})"
  | .bool t b => do return s!"BoolConstant(type={← t.describe}, value={boolText b})"
  | .composite t is => do
    let components := tupleText (is.map Id.text)
    return s!"CompositeConstant(type={← t.describe}, components={components})"
  | .null t => do return s!"NullConstant(type={← t.describe})"

end Constant
end ShiftBarrier
