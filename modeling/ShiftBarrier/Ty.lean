import ShiftBarrier.Integer
import ShiftBarrier.Text.LowerCase

/-!
# Types

* `Ty` is a declared type.  Types that are not interpreted keep their opcode and operands.
* `Ty.same` is structural equality, up to names and spellings in the operands.
* `Ty.name` is the short name of a type, `Ty.describe` shows its structure.
-/

set_option autoImplicit false

namespace ShiftBarrier

/-- A type.  The width of a float is not checked, so it may be any integer. -/
inductive Ty
  | int (width : Nat) (signed : Bool)
  | float (width : Int)
  | bool
  | void
  | vector (element : Ty) (count : Nat)
  | other (opcode : String) (operands : List Operand)
  deriving DecidableEq, Repr

/-- A tuple of texts in parentheses; a single one is followed by a comma. -/
def tupleText : List String → String
  | [x] => s!"({x},)"
  | xs => "(" ++ String.intercalate ", " xs ++ ")"

/-- A truth value inside of a description. -/
def boolText (b : Bool) : String := if b then "True" else "False"

namespace Ty

/-! ## Making types -/

/-- An integer type, which has at least one bit. -/
def makeInt (width : Int) (signed : Bool) : Except Error Ty :=
  if 0 < width then .ok (.int width.toNat signed)
  else .error (.violation (.integerWidth width))

/-- A vector type, which has at least two lanes. -/
def makeVector (element : Ty) (count : Int) : Except Error Ty :=
  if 2 ≤ count then .ok (.vector element count.toNat)
  else .error (.violation (.vectorCount count))

/-! ## Classes -/

/-- Structural equality.  A type that is not interpreted equals one with the same opcode and
operands. -/
def same : Ty → Ty → Bool
  | .int w s, .int w' s' => w == w' && s == s'
  | .float w, .float w' => w == w'
  | .bool, .bool => true
  | .void, .void => true
  | .vector e n, .vector e' n' => e.same e' && n == n'
  | .other op xs, .other op' xs' => op == op' && xs.isEqv xs' Operand.same
  | _, _ => false

/-- The types that may be elements of a vector. -/
def isScalar : Ty → Bool
  | .int _ _ | .float _ | .bool => true
  | _ => false

/-- Is it a vector type, of whatever elements? -/
def isVector : Ty → Bool
  | .vector _ _ => true
  | _ => false

/-- The integer type of a value or of each of its lanes. -/
def isIntegral : Ty → Bool
  | .int _ _ => true
  | .vector (.int _ _) _ => true
  | _ => false

/-- The bits of an integer type, all set. -/
def mask? : Ty → Except Error (Option Nat)
  | .int w _ => do return some ((← Integer.powerOfTwo w) - 1)
  | _ => .ok none

/-! ## Texts

Widths and counts may be too long to be written, so both texts may fail. -/

/-- A width of 32 goes without saying. -/
private def widthSuffix (width : Int) : Except Decimal.Fault String :=
  if width = 32 then .ok "" else Decimal.ofInt width

/-- A type that is not interpreted goes by its opcode in lower case, without `OpType`. -/
def name : Ty → Except Decimal.Fault String
  | .int w s => (widthSuffix w).map ((if s then "int" else "uint") ++ ·)
  | .float w => (widthSuffix w).map ("float" ++ ·)
  | .bool => .ok "bool"
  | .void => .ok "void"
  | .vector e n => do return "v" ++ (← Decimal.ofNat n) ++ (← e.name)
  | .other op _ =>
    .ok (Text.lower (String.ofList (if Opcode.isType op then op.toList.drop 6 else op.toList)))

/-- The structure of a type, for messages. -/
def describe : Ty → Except Decimal.Fault String
  | .int w s => do return s!"IntegerType(width={← Decimal.ofNat w}, signed={boolText s})"
  | .float w => do return s!"FloatType(width={← Decimal.ofInt w})"
  | .bool => .ok "BoolType()"
  | .void => .ok "VoidType()"
  | .vector e n => do
    return s!"VectorType(element={← e.describe}, count={← Decimal.ofNat n})"
  | .other op xs => do
    let operands := tupleText (← xs.mapM Operand.text)
    return s!"OpaqueType(opcode={Text.quote op}, operands={operands})"

end Ty
end ShiftBarrier
