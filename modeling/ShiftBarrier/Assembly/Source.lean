import ShiftBarrier.Assembly.Numeral
import ShiftBarrier.Assembly.Statement

/-!
# Source instructions

A source instruction is a statement whose operand tokens have been given their values, while its
ids are still names.

* `SourceInstruction.ofStatement` converts a statement.
* `SourceInstruction.references` are the names in it, the result first.
-/

set_option autoImplicit false

namespace ShiftBarrier

/-- An operand: a name that is still to be numbered, or a value. -/
inductive SourceOperand
  | name (name : String)
  | value (operand : Operand)
  deriving DecidableEq, Repr

/-- The name, if the operand is one. -/
def SourceOperand.name? : SourceOperand → Option String
  | .name n => some n
  | .value _ => none

/-- An instruction of the text, with the line it stands on. -/
structure SourceInstruction where
  result : Option String
  opcode : String
  operands : List SourceOperand
  line : Nat
  deriving DecidableEq, Repr

/-- The operand a token denotes.  Floating-point numbers keep their spelling. -/
def SourceOperand.ofToken (t : Token) : Except OperandFault SourceOperand :=
  let lexeme := t.text.toList
  match t.kind with
  | .id => .ok (.name (LineState.idName t.text))
  | .hex => .ok (.value (.literal (.int (Numeral.hex lexeme)) none))
  | .hexFloat => .ok (.value (.literal (.float (Numeral.hexFloat lexeme)) (some t.text)))
  | .float => .ok (.value (.literal (.float (Numeral.float lexeme)) (some t.text)))
  | .int => do
    let n ← (Numeral.int lexeme).mapError OperandFault.number
    return .value (.literal (.int n) none)
  | .string => do
    let s ← (Literal.decode lexeme).mapError OperandFault.string
    return .value (.string s)
  | _ => .ok (.value (.enumerant t.text))

namespace SourceInstruction

/-- Gives the operand tokens of a statement their values, up to the first that has none. -/
def ofStatement (s : Statement) : Except OperandFault SourceInstruction := do
  return ⟨s.result, s.opcode, ← s.operands.mapM SourceOperand.ofToken, s.line⟩

/-- The names an instruction mentions, in the order of the text. -/
def references (i : SourceInstruction) : List String :=
  i.result.toList ++ i.operands.filterMap SourceOperand.name?

end SourceInstruction
end ShiftBarrier
