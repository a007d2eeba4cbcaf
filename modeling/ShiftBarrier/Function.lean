import ShiftBarrier.Instruction

/-!
# Blocks and functions

* `Block` is a label with the instructions that follow it; `Block.isTerminated` says whether the
  last of them leaves the block.
* `Function` is a definition with its parameters and blocks; one without blocks is a declaration.
-/

set_option autoImplicit false

namespace ShiftBarrier

/-- A basic block. -/
structure Block where
  label : Id
  instructions : List Instruction := []
  deriving DecidableEq, Repr, Inhabited

namespace Block

/-- Does the last instruction leave the block? -/
def isTerminated (b : Block) : Bool := b.instructions.getLast?.any Instruction.isTerminator

/-- The label and the instructions, a line each. -/
def lines (b : Block) : Except Decimal.Fault (List String) := do
  return (b.label.text ++ " = OpLabel") :: (← b.instructions.mapM Instruction.text)

end Block

/-- A function. -/
structure Function where
  /-- The id the function was added under; renaming the definition does not change it. -/
  id : Id
  definition : Instruction
  params : List Instruction := []
  blocks : List Block := []
  deriving DecidableEq, Repr, Inhabited

namespace Function

/-- Is there no body? -/
def isDeclaration (f : Function) : Bool := f.blocks.isEmpty

/-- The labels of the blocks, in order. -/
def labels (f : Function) : List Id := f.blocks.map Block.label

/-- Is there a block under this label? -/
def hasBlock (f : Function) (label : Id) : Bool := f.labels.any label.same

/-- The instructions in order: definition, parameters, blocks. -/
def instructions (f : Function) : List Instruction :=
  f.definition :: f.params ++ f.blocks.flatMap Block.instructions

/-- The definition, the parameters, the blocks and the end. -/
def lines (f : Function) : Except Decimal.Fault (List String) := do
  let header ← (f.definition :: f.params).mapM Instruction.text
  let blocks ← f.blocks.mapM Block.lines
  return header ++ blocks.flatten ++ ["OpFunctionEnd"]

end Function

/-- Joins lines to a text in which each of them is terminated. -/
def unlines (lines : List String) : String := String.join (lines.map (· ++ "\n"))

end ShiftBarrier
