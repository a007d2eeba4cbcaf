import ShiftBarrier.Opcode
import ShiftBarrier.Operand

/-!
# Instructions

For example `%r = OpShiftLeftLogical %uint %x %uint_3` has the opcode `OpShiftLeftLogical`, the
type `%uint`, the result `%r` and the operands `%x` and `%uint_3`.

* `Instruction.inputs` and `Instruction.uses` are the ids it refers to.
* `Instruction.text` is its line in an assembly listing.
-/

set_option autoImplicit false

namespace ShiftBarrier

/-- An instruction. -/
structure Instruction where
  opcode : String
  type : Option Id := none
  result : Option Id := none
  operands : List Operand := []
  /-- Tells the instructions of a module apart; it survives renaming and never shows in a text. -/
  serial : Nat := 0
  deriving DecidableEq, Repr, Inhabited

namespace Instruction

/-- Does it end its block? -/
def isTerminator (i : Instruction) : Bool := Opcode.isTerminator i.opcode

/-- Does it declare a constant? -/
def isConstant (i : Instruction) : Bool := Opcode.isConstant i.opcode

/-- Does it declare a type? -/
def isType (i : Instruction) : Bool := Opcode.isType i.opcode

/-- The ids among the operands. -/
def inputs (i : Instruction) : List Id := i.operands.filterMap Operand.id?

/-- Every id the instruction refers to, its type first. -/
def uses (i : Instruction) : List Id := i.type.toList ++ i.inputs

/-- The line in a listing: result, opcode, type, operands. -/
def text (i : Instruction) : Except Decimal.Fault String := do
  let result := match i.result with
    | some r => r.text ++ " = "
    | none => ""
  let operands ← i.operands.mapM Operand.text
  return String.intercalate " "
    ((result ++ i.opcode) :: i.type.toList.map Id.text ++ operands)

end Instruction
end ShiftBarrier
