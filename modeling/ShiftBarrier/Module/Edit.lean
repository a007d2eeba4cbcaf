import ShiftBarrier.Module

/-!
# Editing a module by hand

* `Location` names the place of an instruction; positions in a list count from 0, negative ones
  from the end.
* `Module.addFunction`, `Module.addParam`, `Module.addBlock`, `Module.insert`,
  `Module.insertAfter` and `Module.setResult` refuse what would break the structure.
-/

set_option autoImplicit false

namespace ShiftBarrier

/-- The place of an instruction.  A function counts among the functions of the module, a block among
those of its function. -/
inductive Location
  | preamble (index : Int)
  | globals (index : Int)
  | definition (function : Int)
  | param (function index : Int)
  | body (function block index : Int)
  deriving DecidableEq, Repr

/-! ## Elements of a list -/

section Elements

variable {α : Type}

/-- The position an index stands for in a list of the given length. -/
def position? (length : Nat) (index : Int) : Option Nat :=
  let shifted := if index < 0 then index + length else index
  if 0 ≤ shifted ∧ shifted < length then some shifted.toNat else none

/-- The position an index stands for, which has to exist. -/
def position (length : Nat) (index : Int) : Except Error Nat :=
  match position? length index with
  | some n => .ok n
  | none => .error .outOfRange

/-- The place for an insertion: an index beyond either end stands for that end. -/
def insertionPoint (length : Nat) (index : Int) : Nat :=
  let shifted := if index < 0 then index + length else index
  min shifted.toNat length

/-- The element an index stands for. -/
def elementAt (as : List α) (index : Int) : Except Error α := do
  let n ← position as.length index
  match as[n]? with
  | some a => return a
  | none => throw .outOfRange

/-- Changes one element, if the index stands for one. -/
def modifyElement (index : Int) (f : α → α) (as : List α) : List α :=
  match position? as.length index with
  | some n => as.modify n f
  | none => as

end Elements

namespace Module

/-! ## Finding -/

/-- The function an index stands for. -/
def functionAt (m : Module) (function : Int) : Except Error Function :=
  elementAt m.functions function

/-- The block of a function. -/
def blockAt (m : Module) (function block : Int) : Except Error Block := do
  elementAt (← m.functionAt function).blocks block

/-- The instruction at a location. -/
def instructionAt (m : Module) : Location → Except Error Instruction
  | .preamble index => elementAt m.preamble index
  | .globals index => elementAt m.globals index
  | .definition function => do return (← m.functionAt function).definition
  | .param function index => do elementAt (← m.functionAt function).params index
  | .body function block index => do
    elementAt (← m.blockAt function block).instructions index

/-! ## Changing in place -/

/-- Changes a function, if there is one. -/
def modifyFunction (m : Module) (function : Int) (f : Function → Function) : Module :=
  { m with functions := modifyElement function f m.functions }

/-- Changes a block of a function, if there is one. -/
def modifyBlock (m : Module) (function block : Int) (f : Block → Block) : Module :=
  m.modifyFunction function fun fn => { fn with blocks := modifyElement block f fn.blocks }

/-- Changes the instruction at a location, if there is one. -/
def modifyInstruction (m : Module) (f : Instruction → Instruction) : Location → Module
  | .preamble index => { m with preamble := modifyElement index f m.preamble }
  | .globals index => { m with globals := modifyElement index f m.globals }
  | .definition function =>
    m.modifyFunction function fun fn => { fn with definition := f fn.definition }
  | .param function index =>
    m.modifyFunction function fun fn => { fn with params := modifyElement index f fn.params }
  | .body function block index =>
    m.modifyBlock function block fun b =>
      { b with instructions := modifyElement index f b.instructions }

/-! ## Additions

What is inserted is adopted: it gets a serial number of its own in the module. -/

/-- Adds a function under the result id of its definition. -/
def addFunction (m : Module) (i : Instruction) : Except Error Module :=
  if i.opcode = "OpFunction" then
    match i.result with
    | none => .error (.violation .functionWithoutResult)
    | some id =>
      if m.hasFunction id then .error (.violation (.duplicateFunction id))
      else
        let (i, m) := m.adopt i
        .ok { m with functions := m.functions ++ [{ id, definition := i }] }
  else do throw (.violation (.noFunction (← i.text)))

/-- Adds a parameter behind those of a function. -/
def addParam (m : Module) (function : Int) (i : Instruction) : Except Error Module := do
  if i.opcode = "OpFunctionParameter" then
    let (i, m) := m.adopt i
    return m.modifyFunction function fun fn => { fn with params := fn.params ++ [i] }
  else throw (.violation (.noParameter (← i.text)))

/-- Adds an empty block under a label that the function does not have. -/
def addBlock (m : Module) (function : Int) (label : Operand) : Except Error Module := do
  let f ← m.functionAt function
  match label with
  | .id label =>
    if f.hasBlock label then throw (.violation (.duplicateBlock label))
    else return m.modifyFunction function fun fn => { fn with blocks := fn.blocks ++ [{ label }] }
  | _ => throw (.violation .labelNoId)

/-- Inserts an instruction into a block, before the one that the index stands for. -/
def insert (m : Module) (function block index : Int) (i : Instruction) : Module :=
  let (i, m) := m.adopt i
  m.modifyBlock function block fun b =>
    { b with
      instructions := b.instructions.insertIdx (insertionPoint b.instructions.length index) i }

/-- Whether two index pairs name the same block. -/
def isSameBlock (m : Module) (function block function' block' : Int) : Bool :=
  match position? m.functions.length function, position? m.functions.length function' with
  | some n, some n' =>
    match m.functions[n]? with
    | some f =>
      n == n' && position? f.blocks.length block == position? f.blocks.length block'
    | none => false
  | _, _ => false

/-- Inserts an instruction directly behind another one of the block and returns its index. -/
def insertAfter (m : Module) (function block : Int) (after : Location) (i : Instruction) :
    Except Error (Nat × Module) := do
  match after with
  | .body function' block' index =>
    let before ← m.instructionAt after
    if !m.isSameBlock function block function' block' then throw (.violation .otherBlock)
    if before.isTerminator then throw (.violation .afterTerminator)
    let b ← m.blockAt function block
    let n ← position b.instructions.length index
    return (n + 1, m.insert function block (n + 1 : Nat) i)
  | _ => throw .noBlock

/-- Renames the result of an instruction that has one. -/
def setResult (m : Module) (location : Location) (result : Option Id) : Except Error Module := do
  let i ← m.instructionAt location
  if i.result.isNone then throw (.violation (.noResult (← i.text)))
  match result with
  | none => throw .noId
  | some id =>
    if id.isValid then
      return m.modifyInstruction (fun i => { i with result := some id }) location
    else throw (.violation .invalidResult)

end Module
end ShiftBarrier
