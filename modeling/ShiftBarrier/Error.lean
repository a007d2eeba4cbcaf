import ShiftBarrier.Assembly.Token
import ShiftBarrier.Diagnostic
import ShiftBarrier.Finding

/-!
# Errors

Every way in which an operation fails, by cause.

* `SyntaxFault` and `ModuleFault` are faults of the input; `EvaluationFault` those of an instruction
  that cannot be evaluated.  They are reported as diagnostics, see `Error.diagnostic?`.
* `Violation` is a broken promise of a caller.
* `Error.message` is the text of an error.
-/

set_option autoImplicit false

namespace ShiftBarrier

/-- The assembly text is malformed. -/
inductive SyntaxFault
  | unexpectedToken (token : Token)
  | unexpectedCharacter (c : Char) (position : Position)
  | idOutOfRange (name : String) (line : Nat)
  | missingResultType (opcode : String) (line : Nat)
  | nestedFunction (line : Nat)
  | functionWithoutResult (line : Nat)
  | strayFunctionEnd (line : Nat)
  | lateParameter (line : Nat)
  | labelWithoutResult (line : Nat)
  | outsideBlock (opcode : String) (line : Nat)
  | unfinishedFunction (id : Id)
  deriving DecidableEq, Repr

/-- The module is structurally invalid. -/
inductive ModuleFault
  | functionTwice (id : Id) (line : Nat)
  | blockTwice (label : Id) (line : Nat)
  | nonIntegerLiteral (value type : String)
  | constantOfUnknownType (type : Option Id) (text : String)
  | noLiteral (text : String)
  | booleanOfOtherType (type text : String)
  | nonConstantComponent (component text : String)
  | noIntegerLiteral (index : Nat) (text : String)
  | nonScalarElement (element text : String)
  deriving DecidableEq, Repr

/-- The instruction, or a value it needs, cannot be evaluated. -/
inductive EvaluationFault
  | notInteger (type : String)
  | valuelessConstant (constant : String)
  | noValue (operand : String)
  | unsupported (text : String)
  | vectorOperand (text : String)
  | bitfieldRange (first last width : String)
  deriving DecidableEq, Repr

/-- A promise that the caller of an operation did not keep. -/
inductive Violation
  | negativeId (number : Int)
  | badEnumerant (word : String)
  | integerWidth (width : Int)
  | vectorCount (count : Int)
  | settingKind
  | settingRange (value : String)
  | noFunction (text : String)
  | functionWithoutResult
  | duplicateFunction (id : Id)
  | noParameter (text : String)
  | labelNoId
  | duplicateBlock (label : Id)
  | otherBlock
  | afterTerminator
  | noResult (text : String)
  | invalidResult
  | declarationWithoutResult
  | nestedLane
  | zeroOfOtherType (type : String)
  | incompleteCandidate (text : String)
  deriving DecidableEq, Repr

/-- An operand whose text does not denote a value. -/
inductive OperandFault
  | string (fault : Literal.Fault)
  | number (fault : Decimal.Fault)
  deriving DecidableEq, Repr

/-- Why an operation failed. -/
inductive Error
  | syntaxFault (fault : SyntaxFault)
  | moduleFault (fault : ModuleFault)
  | unknownPass (name : String) (known : List String)
  | evaluation (fault : EvaluationFault)
  | operand (fault : OperandFault)
  | violation (promise : Violation)
  | findings (findings : List Finding)
  /-- A numeral is too long to be written or read. -/
  | numeral (fault : Decimal.Fault)
  /-- An integer of too many bits. -/
  | tooLong (bits : Nat)
  | tooManyLanes (count : Nat)
  | negativeShift
  | unknownLogLevel (name : String)
  | outOfRange
  /-- An operation on a number of arguments that is not its own. -/
  | arity
  | unknownOperation
  /-- The tables of an analysis that failed before making them. -/
  | noTables
  /-- An instruction that belongs to no block. -/
  | noBlock
  /-- No id where one is needed. -/
  | noId
  | nestedTooDeep
  | notImplemented (operation : String)
  | setLookup
  /-- A command line option whose value is none. -/
  | valuelessOutput
  | valuelessLevel
  deriving DecidableEq, Repr

instance : MonadLift (Except Decimal.Fault) (Except Error) where
  monadLift := Except.mapError Error.numeral

/-! ## Messages

Every fault has its own text.  Texts that quote an instruction or a type get it as it was written
down when the fault was found. -/

/-- The characters at which a message is cut to its first line. -/
def isLineSeparator (c : Char) : Bool :=
  (0x0a ≤ c.toNat && c.toNat ≤ 0x0d) || (0x1c ≤ c.toNat && c.toNat ≤ 0x1e) || c.toNat == 0x85
    || c.toNat == 0x2028 || c.toNat == 0x2029

/-- A diagnostic that belongs to a line as a whole. -/
def Diagnostic.onLine (line : Nat) (message : String) : Diagnostic :=
  { message := message, line := some line }

/-- A diagnostic that belongs to a place in a line. -/
def Diagnostic.atPosition (p : Position) (message : String) : Diagnostic :=
  { message := message, line := some p.line, column := some p.column }

/-- What is reported of malformed text.  Faults of a token give its column, others their line. -/
def SyntaxFault.diagnostic : SyntaxFault → Diagnostic
  | .unexpectedToken ⟨kind, text, p⟩ =>
    .atPosition p (s!"Unexpected token Token({Text.quote kind.name}, {Text.quote text})"
      ++ s!" at line {p.line}, column {p.column}.")
  | .unexpectedCharacter c p =>
    .atPosition p (if isLineSeparator c then "No terminal matches '"
      else s!"No terminal matches '{c}' in the current parser context,"
        ++ s!" at line {p.line} col {p.column}")
  | .idOutOfRange name line => .onLine line s!"id out of range: %{name}"
  | .missingResultType opcode line => .onLine line s!"{opcode} requires a result type id"
  | .nestedFunction line => .onLine line "OpFunction inside of a function"
  | .functionWithoutResult line => .onLine line "OpFunction requires a result id"
  | .strayFunctionEnd line => .onLine line "OpFunctionEnd outside of a function"
  | .lateParameter line => .onLine line "OpFunctionParameter after the first block"
  | .labelWithoutResult line => .onLine line "OpLabel requires a result id"
  | .outsideBlock opcode line => .onLine line s!"{opcode} outside of a basic block"
  | .unfinishedFunction id => { message := s!"missing OpFunctionEnd for function {id.text}" }

/-- The text of an id that may be missing. -/
def optionalText : Option Id → String
  | some i => i.text
  | none => "None"

/-- What is reported of an invalid structure.  Only what the reader of the text finds has a line. -/
def ModuleFault.diagnostic : ModuleFault → Diagnostic
  | .functionTwice id line => .onLine line s!"function {id.text} defined twice"
  | .blockTwice label line => .onLine line s!"block {label.text} defined twice"
  | .nonIntegerLiteral value type => { message := s!"non-integer literal {value} for {type}" }
  | .constantOfUnknownType type text =>
    { message := s!"constant of unknown type {optionalText type}: {text}" }
  | .noLiteral text => { message := s!"expected a literal value: {text}" }
  | .booleanOfOtherType type text => { message := s!"boolean constant of type {type}: {text}" }
  | .nonConstantComponent component text =>
    { message := s!"composite component {component} is not a constant: {text}" }
  | .noIntegerLiteral index text =>
    { message := s!"expected an integer literal at operand {index}: {text}" }
  | .nonScalarElement element text =>
    { message := s!"vector of non-scalar type {element}: {text}" }

/-- What is reported of an instruction that cannot be evaluated. -/
def EvaluationFault.diagnostic : EvaluationFault → Diagnostic
  | .notInteger type => { message := s!"not an integer or integer vector type: {type}" }
  | .valuelessConstant constant => { message := s!"cannot evaluate constant {constant}" }
  | .noValue operand => { message := s!"no value for {operand}" }
  | .unsupported text => { message := s!"unsupported instruction: {text}" }
  | .vectorOperand text => { message := s!"vector operand of scalar instruction: {text}" }
  | .bitfieldRange first last width =>
    { message := s!"bitfield [{first}, {last}) out of {width} bits" }

/-- The text of a broken promise, which mostly is the value that broke it. -/
def Violation.message : Violation → String
  | .negativeId number => toString number
  | .badEnumerant word => word
  | .integerWidth width => toString width
  | .vectorCount count => toString count
  | .settingKind => ""
  | .settingRange value => value
  | .noFunction text => text
  | .functionWithoutResult => ""
  | .duplicateFunction id => s!"duplicate function {id.text}"
  | .noParameter text => text
  | .labelNoId => "label must be an IRId"
  | .duplicateBlock label => label.text
  | .otherBlock => "position must be in this basic block"
  | .afterTerminator => "cannot insert after a terminator"
  | .noResult text => s!"instruction has no result: {text}"
  | .invalidResult => "cannot set an invalid result id"
  | .declarationWithoutResult => ""
  | .nestedLane => ""
  | .zeroOfOtherType type => type
  | .incompleteCandidate text => text

/-- The text of a fault in an operand. -/
def OperandFault.message : OperandFault → String
  | .string fault => fault.message
  | .number fault => fault.message

namespace Error

/-- The errors that are reported with a place and a hint. -/
def diagnostic? : Error → Option Diagnostic
  | .syntaxFault fault => some fault.diagnostic
  | .moduleFault fault => some fault.diagnostic
  | .unknownPass name known =>
    let names := String.intercalate ", " known
    some { message := s!"unknown pass: {name}", hint := some s!"available passes: {names}" }
  | .evaluation fault => some fault.diagnostic
  | _ => none

/-- The text of an error, which may be empty. -/
def message (e : Error) : String :=
  match e.diagnostic? with
  | some d => d.render
  | none =>
    match e with
    | .operand fault => fault.message
    | .violation promise => promise.message
    | .findings [_] => "module semantic errors (1 sub-exception)"
    | .findings fs => s!"module semantic errors ({fs.length} sub-exceptions)"
    | .numeral fault => fault.message
    | .negativeShift => "negative shift count"
    | .unknownLogLevel name => s!"unrecognized log level: {name}"
    | .notImplemented operation => operation
    | .setLookup => "OrderedSet has no get()"
    | _ => ""

end Error
end ShiftBarrier
