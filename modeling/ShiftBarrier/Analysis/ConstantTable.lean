import ShiftBarrier.Analysis.TypeTable
import ShiftBarrier.Constant

/-!
# Declared constants

Specialisation constants are not declared constants: their values may change later.

* `ConstantTable` lists the declared constants with their ids, in the order of declaration.
* `ConstantTable.constant?` finds the constant of an id, the last declaration winning;
  `ConstantTable.id?` finds the id of a constant, the first declaration winning.
* `ConstantTable.analyze` reads the declarations of a global section, up to the first that is wrong.
-/

set_option autoImplicit false

namespace ShiftBarrier

/-- The declared constants, in the order of declaration. -/
structure ConstantTable where
  entries : List (Id × Constant) := []
  deriving DecidableEq, Repr, Inhabited

namespace ConstantTable

/-- The constant that an id was declared as last. -/
def constant? (t : ConstantTable) (id : Id) : Option Constant :=
  (t.entries.findRev? (·.1.same id)).map (·.2)

/-- The id that a constant was declared under first. -/
def id? (t : ConstantTable) (c : Constant) : Option Id :=
  (t.entries.find? (·.2.same c)).map (·.1)

/-- Is the id that of a declared constant? -/
def isDeclared (t : ConstantTable) (id : Id) : Bool := t.entries.any (·.1.same id)

/-- Enters one more declaration. -/
def add (t : ConstantTable) (id : Id) (c : Constant) : ConstantTable := ⟨t.entries ++ [(id, c)]⟩

theorem constant?_add (t : ConstantTable) (id key : Id) (c : Constant) :
    (t.add id c).constant? key = if id.same key then some c else t.constant? key := by
  simp only [constant?, add, List.findRev?_eq_find?_reverse, List.reverse_append,
    List.reverse_singleton, List.singleton_append, List.find?_cons]
  cases id.same key <;> rfl

theorem id?_add (t : ConstantTable) (id : Id) (c wanted : Constant) :
    (t.add id c).id? wanted = (t.id? wanted).or (if c.same wanted then some id else none) := by
  rw [id?, id?, add, List.find?_append, Option.map_or, List.find?_singleton]
  split <;> rfl

theorem isSome_constant? (t : ConstantTable) (id : Id) :
    (t.constant? id).isSome = t.isDeclared id := by
  rw [constant?, isDeclared, Option.isSome_map, List.findRev?_eq_find?_reverse,
    List.isSome_find?, List.any_reverse]

/-! ## Reading declarations

A composite may only be made of what is declared before it, so declarations are read in order and
with the table that was made by then. -/

/-- The components of a composite, which are constants declared before it. -/
def components (t : ConstantTable) (i : Instruction) : Except Error (List Id) :=
  i.operands.mapM fun operand => do
    match operand.id? with
    | some id => if t.isDeclared id then return id
    | none => pure ()
    throw (.moduleFault (.nonConstantComponent (← operand.text) (← i.text)))

/-- The constant of the given type that an instruction declares. -/
def declared (t : ConstantTable) (i : Instruction) (type : Ty) : Except Error Constant :=
  match i.opcode with
  | "OpConstant" =>
    match i.operands[0]? with
    | none => .error .outOfRange
    | some (Operand.literal value _) => Constant.ofLiteral type value
    | some _ => do throw (.moduleFault (.noLiteral (← i.text)))
  | "OpConstantTrue" | "OpConstantFalse" =>
    match type with
    | .bool => .ok (.bool type (i.opcode == "OpConstantTrue"))
    | _ => do throw (.moduleFault (.booleanOfOtherType (← type.name) (← i.text)))
  | "OpConstantComposite" => do return .composite type (← t.components i)
  | _ => .ok (.null type)

/-- Reads one instruction; only constant declarations matter. -/
def read (types : TypeTable) (t : ConstantTable) (i : Instruction) :
    Except Error ConstantTable :=
  if i.isConstant then
    match i.result with
    | none => .error (.violation .declarationWithoutResult)
    | some id => do
      match i.type.bind types.type? with
      | none => throw (.moduleFault (.constantOfUnknownType i.type (← i.text)))
      | some type => return t.add id (← t.declared i type)
  else .ok t

/-- Reads declarations in order.  What was read before a failure stays. -/
def readAll (types : TypeTable) (t : ConstantTable) :
    List Instruction → Except Error Unit × ConstantTable
  | [] => (.ok (), t)
  | i :: is =>
    match t.read types i with
    | .ok t => t.readAll types is
    | .error e => (.error e, t)

/-- The constants that the global section of a module declares. -/
def analyze (types : TypeTable) (m : Module) : Except Error Unit × ConstantTable :=
  readAll types {} m.globals

end ConstantTable
end ShiftBarrier
