import ShiftBarrier.Module
import ShiftBarrier.Ty

/-!
# Declared types

* `TypeTable` lists the declared types with their ids, in the order of declaration.
* `TypeTable.type?` finds the type of an id, the last declaration winning; `TypeTable.id?` finds the
  id of a type, the first declaration winning.
* `TypeTable.analyze` reads the declarations of a global section, up to the first that is wrong.
-/

set_option autoImplicit false

namespace ShiftBarrier

/-- The declared types, in the order of declaration. -/
structure TypeTable where
  entries : List (Id × Ty) := []
  deriving DecidableEq, Repr, Inhabited

namespace TypeTable

/-- The type that an id was declared as last. -/
def type? (t : TypeTable) (id : Id) : Option Ty :=
  (t.entries.findRev? (·.1.same id)).map (·.2)

/-- The id that a type was declared under first. -/
def id? (t : TypeTable) (type : Ty) : Option Id :=
  (t.entries.find? (·.2.same type)).map (·.1)

/-- Enters one more declaration. -/
def add (t : TypeTable) (id : Id) (type : Ty) : TypeTable := ⟨t.entries ++ [(id, type)]⟩

theorem type?_add (t : TypeTable) (id key : Id) (type : Ty) :
    (t.add id type).type? key = if id.same key then some type else t.type? key := by
  simp only [type?, add, List.findRev?_eq_find?_reverse, List.reverse_append,
    List.reverse_singleton, List.singleton_append, List.find?_cons]
  cases id.same key <;> rfl

theorem id?_add (t : TypeTable) (id : Id) (type wanted : Ty) :
    (t.add id type).id? wanted =
      (t.id? wanted).or (if type.same wanted then some id else none) := by
  rw [id?, id?, add, List.find?_append, Option.map_or, List.find?_singleton]
  split <;> rfl

/-! ## Reading declarations

The element type of a vector has to be declared before it, so declarations are read in order and
with the table that was made by then. -/

/-- The integer literal at an operand. -/
def literal (i : Instruction) (index : Nat) : Except Error Int :=
  match i.operands[index]? with
  | none => .error .outOfRange
  | some (.literal (.int n) _) => .ok n
  | some _ => do throw (.moduleFault (.noIntegerLiteral index (← i.text)))

/-- The element type of a vector declaration. -/
def element (t : TypeTable) (i : Instruction) : Except Error Ty :=
  match i.operands[0]? with
  | none => .error .outOfRange
  | some operand => do
    match operand.id?.bind t.type? with
    | some type => if type.isScalar then return type
    | none => pure ()
    throw (.moduleFault (.nonScalarElement (← operand.text) (← i.text)))

/-- The type an instruction declares. -/
def declared (t : TypeTable) (i : Instruction) : Except Error Ty :=
  match i.opcode with
  | "OpTypeInt" => do
    let width ← literal i 0
    let signed ← literal i 1
    Ty.makeInt width (signed != 0)
  | "OpTypeFloat" => do return .float (← literal i 0)
  | "OpTypeBool" => .ok .bool
  | "OpTypeVoid" => .ok .void
  | "OpTypeVector" => do
    let element ← t.element i
    Ty.makeVector element (← literal i 1)
  | _ => .ok (.other i.opcode i.operands)

/-- Reads one instruction; only type declarations matter. -/
def read (t : TypeTable) (i : Instruction) : Except Error TypeTable :=
  if i.isType then
    match i.result with
    | none => .error (.violation .declarationWithoutResult)
    | some id => do return t.add id (← t.declared i)
  else .ok t

/-- Reads declarations in order.  What was read before a failure stays. -/
def readAll (t : TypeTable) : List Instruction → Except Error Unit × TypeTable
  | [] => (.ok (), t)
  | i :: is =>
    match t.read i with
    | .ok t => t.readAll is
    | .error e => (.error e, t)

/-- The types that the global section of a module declares. -/
def analyze (m : Module) : Except Error Unit × TypeTable := readAll {} m.globals

end TypeTable
end ShiftBarrier
