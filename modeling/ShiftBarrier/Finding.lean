import ShiftBarrier.Function

/-!
# Findings

What the validator reports about a module.

* `Finding.text` describes a finding together with the instruction or block it concerns.
-/

set_option autoImplicit false

namespace ShiftBarrier

/-- What may be wrong with a module. -/
inductive Finding
  | notTerminated (block : Block)
  | notDefined (id : Id) (user : Instruction)
  | redefined (id : Id) (again : Instruction)
  deriving DecidableEq, Repr

/-- A finding with the block or instruction it is about. -/
def Finding.text : Finding → Except Decimal.Fault String
  | .notTerminated b => do
    return "basic block is not terminated:\n" ++ unlines (← b.lines)
  | .notDefined i user => do
    return s!"id {i.text} not defined:\n  " ++ (← user.text)
  | .redefined i again => do
    return s!"id {i.text} defined more than once:\n  " ++ (← again.text)

end ShiftBarrier
