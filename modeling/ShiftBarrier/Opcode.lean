/-!
# Opcodes

An opcode is known by its mnemonic.  The set of mnemonics is open; the classes below are those that
decide where an instruction lives and whether it has a result type.

* `Opcode.isTerminator`, `Opcode.isConstant`, `Opcode.isPreamble`, `Opcode.isType`
* `Opcode.hasResultType`
-/

set_option autoImplicit false

namespace ShiftBarrier
namespace Opcode

/-- Opcodes that end a basic block. -/
def terminators : List String :=
  ["OpReturn", "OpReturnValue", "OpBranch", "OpBranchConditional", "OpSwitch", "OpKill",
    "OpTerminateInvocation", "OpUnreachable"]

/-- Opcodes with a result id but no result type, type declarations aside. -/
def untypedResults : List String :=
  ["OpLabel", "OpExtInstImport", "OpString", "OpDecorationGroup"]

/-- Opcodes that declare a constant.  Those of specialisation constants are not among them. -/
def constants : List String :=
  ["OpConstant", "OpConstantTrue", "OpConstantFalse", "OpConstantComposite", "OpConstantNull"]

/-- Opcodes of the module header. -/
def preamble : List String :=
  ["OpCapability", "OpExtension", "OpExtInstImport", "OpMemoryModel", "OpEntryPoint",
    "OpExecutionMode", "OpExecutionModeId", "OpSource", "OpSourceContinued", "OpSourceExtension",
    "OpString", "OpName", "OpMemberName", "OpModuleProcessed", "OpDecorate", "OpMemberDecorate",
    "OpDecorationGroup", "OpGroupDecorate", "OpGroupMemberDecorate"]

/-- Does the instruction end its block? -/
def isTerminator (opcode : String) : Bool := terminators.contains opcode

/-- Does the instruction declare a constant? -/
def isConstant (opcode : String) : Bool := constants.contains opcode

/-- Does the instruction belong to the module header? -/
def isPreamble (opcode : String) : Bool := preamble.contains opcode

/-- Type declarations are told by the beginning of their opcode, interpreted or not. -/
def isType (opcode : String) : Bool := "OpType".toList.isPrefixOf opcode.toList

/-- Whether an instruction with a result id also has a result type. -/
def hasResultType (opcode : String) : Bool := !isType opcode && !untypedResults.contains opcode

end Opcode
end ShiftBarrier
