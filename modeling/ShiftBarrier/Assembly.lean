import ShiftBarrier.Assembly.Numbering
import ShiftBarrier.Module

/-!
# Reading a module

* `Assembly.parse` reads an assembly text into a module.
* `Assembly.Builder` puts instructions where they belong, in the order of the text.
-/

set_option autoImplicit false

namespace ShiftBarrier
namespace Assembly

/-! ## Instructions -/

/-- Puts the id of a name in its place. -/
def resolveOperand (ids : Numbering) : SourceOperand → Operand
  | .name name => .id (ids.id name)
  | .value operand => operand

/-- With a result, the first operand is the result type, unless the opcode has none. -/
def resolve (ids : Numbering) (i : SourceInstruction) : Except Error Instruction :=
  let operands := i.operands.map (resolveOperand ids)
  match i.result with
  | none => .ok { opcode := i.opcode, operands }
  | some name =>
    let result := some (ids.id name)
    if Opcode.hasResultType i.opcode then
      match operands with
      | .id type :: operands => .ok { opcode := i.opcode, type := some type, result, operands }
      | _ => .error (.syntaxFault (.missingResultType i.opcode i.line))
    else .ok { opcode := i.opcode, result, operands }

/-! ## Structure

The construction takes one instruction at a time.  Between `OpFunction` and `OpFunctionEnd` an
instruction belongs to the open function, elsewhere to the header or to the globals, whatever order
these come in. -/

/-- A module under construction, with the function that is still open. -/
structure Builder where
  built : Module
  current : Option Function := none

namespace Builder

/-- Adds an instruction to the last block. -/
def appendToLast : List Block → Instruction → List Block
  | [], _ => []
  | [b], i => [{ b with instructions := b.instructions ++ [i] }]
  | b :: bs, i => b :: appendToLast bs i

/-- Opens a function. -/
def beginFunction (b : Builder) (i : Instruction) (line : Nat) : Except Error Builder :=
  match b.current, i.result with
  | some _, _ => .error (.syntaxFault (.nestedFunction line))
  | none, none => .error (.syntaxFault (.functionWithoutResult line))
  | none, some id =>
    if b.built.hasFunction id then .error (.moduleFault (.functionTwice id line))
    else
      let (i, built) := b.built.adopt i
      .ok { built, current := some { id, definition := i } }

/-- Closes the open function and adds it to the module. -/
def endFunction (b : Builder) (line : Nat) : Except Error Builder :=
  match b.current with
  | none => .error (.syntaxFault (.strayFunctionEnd line))
  | some f =>
    .ok { built := { b.built with functions := b.built.functions ++ [f] } }

/-- Adds an instruction outside of all functions. -/
def addOutside (b : Builder) (i : Instruction) : Builder :=
  if Opcode.isPreamble i.opcode then { b with built := b.built.addPreamble i }
  else { b with built := b.built.addGlobal i }

/-- Adds an instruction to the open function `f`. -/
def addInside (b : Builder) (f : Function) (i : Instruction) (line : Nat) :
    Except Error Builder :=
  if i.opcode = "OpLabel" then
    match i.result with
    | none => .error (.syntaxFault (.labelWithoutResult line))
    | some label =>
      if f.hasBlock label then .error (.moduleFault (.blockTwice label line))
      else .ok { b with current := some { f with blocks := f.blocks ++ [{ label }] } }
  else
    let (i, built) := b.built.adopt i
    if i.opcode = "OpFunctionParameter" then
      if f.blocks.isEmpty then .ok { built, current := some { f with params := f.params ++ [i] } }
      else .error (.syntaxFault (.lateParameter line))
    else if f.blocks.isEmpty then .error (.syntaxFault (.outsideBlock i.opcode line))
    else .ok { built, current := some { f with blocks := appendToLast f.blocks i } }

/-- Puts one instruction where it belongs. -/
def add (b : Builder) (i : Instruction) (line : Nat) : Except Error Builder :=
  if i.opcode = "OpFunction" then b.beginFunction i line
  else if i.opcode = "OpFunctionEnd" then b.endFunction line
  else match b.current with
    | none => .ok (b.addOutside i)
    | some f => b.addInside f i line

/-- The module, if its last function was closed. -/
def finish (b : Builder) : Except Error Module :=
  match b.current with
  | none => .ok b.built
  | some f => .error (.syntaxFault (.unfinishedFunction f.id))

end Builder

/-- Builds a module from source instructions. -/
def build (settings : Settings) (is : List SourceInstruction) : Except Error Module := do
  let ids ← Numbering.ofInstructions is
  let start : Builder := { built := ids.ids.foldl Module.reserve (Module.empty settings) }
  let done ← is.foldlM (fun b i => do b.add (← resolve ids i) i.line) start
  done.finish

/-- Reads a module from an assembly text. -/
def parse (settings : Settings) (source : String) : Except Error Module := do
  let statements ← (Statement.ofText source).mapError Error.syntaxFault
  let is ← (statements.mapM SourceInstruction.ofStatement).mapError Error.operand
  build settings is

end Assembly
end ShiftBarrier
