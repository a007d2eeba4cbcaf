import ShiftBarrier.Analysis.ConstantTable
import ShiftBarrier.Log

/-!
# Declaring types and constants

A registry is a module together with the tables of its types and constants.  What is missing is
declared at the end of the global section, and entered in the tables at the same time.

* `TypeRegistry.typeId` and `TypeRegistry.vectorId` find or declare a type.
* `Registry.ofModule` reads the tables of a module.
* `Registry.constantId` and `Registry.compositeId` find or declare a constant.

All of them return the invalid id if that is impossible, most often for want of ids.
-/

set_option autoImplicit false

namespace ShiftBarrier

/-- A module with the table of its types, and what was logged while it was changed. -/
structure TypeRegistry where
  target : Module
  types : TypeTable
  log : Log := []

namespace TypeRegistry

/-- A fresh id.  When ids are used up the id is invalid, and only the log tells. -/
def takeId (r : TypeRegistry) : Id × TypeRegistry :=
  let (id, target) := r.target.takeId
  if id.isValid then (id, { r with target }) else (id, { r with log := r.log ++ [.idOverflow] })

/-- Declares a type that is not declared yet. -/
def declare (r : TypeRegistry) (type : Ty) (opcode : String) (operands : List Operand) :
    Id × TypeRegistry :=
  let (id, r) := r.takeId
  if id.isValid then
    (id, { r with
      target := r.target.addGlobal { opcode, result := some id, operands }
      types := r.types.add id type })
  else (Id.invalid, r)

/-- An integer operand without a spelling of its own. -/
def number (n : Int) : Operand := .literal (.int n) none

/-- Types that are not interpreted cannot be declared. -/
def typeId : Ty → TypeRegistry → Id × TypeRegistry
  | type, r =>
    match r.types.id? type with
    | some id => (id, r)
    | none =>
      match type with
      | .int w s => r.declare type "OpTypeInt" [number w, number (if s then 1 else 0)]
      | .float w => r.declare type "OpTypeFloat" [number w]
      | .bool => r.declare type "OpTypeBool" []
      | .void => r.declare type "OpTypeVoid" []
      | .vector element count =>
        let (elementId, r) := typeId element r
        if elementId.isValid then
          r.declare type "OpTypeVector" [.id elementId, number count]
        else (Id.invalid, r)
      | .other _ _ => (Id.invalid, r)

/-- Finds or declares a vector type. -/
def vectorId (element : Ty) (count : Int) (r : TypeRegistry) : Id × TypeRegistry :=
  if element.isScalar ∧ 2 ≤ count then typeId (.vector element count.toNat) r
  else (Id.invalid, r)

end TypeRegistry

/-- A module with the tables of its types and constants. -/
structure Registry extends TypeRegistry where
  constants : ConstantTable

namespace Registry

/-- The registry of a module whose declarations are all sound. -/
def ofModule (m : Module) : Except Error Registry :=
  match TypeTable.analyze m with
  | (.error e, _) => .error e
  | (.ok (), types) =>
    match ConstantTable.analyze types m with
    | (.error e, _) => .error e
    | (.ok (), constants) => .ok { target := m, types, constants }

/-- Runs an operation that concerns types alone. -/
def onTypes {α : Type} (f : TypeRegistry → α × TypeRegistry) (r : Registry) : α × Registry :=
  let (a, types) := f r.toTypeRegistry
  (a, { r with toTypeRegistry := types })

/-- A fresh id, as for types. -/
def takeId (r : Registry) : Id × Registry := r.onTypes TypeRegistry.takeId

/-- Finds or declares a constant, its type before it. -/
def constantId (c : Constant) (r : Registry) : Id × Registry :=
  match r.constants.id? c with
  | some id => (id, r)
  | none =>
    let (type, r) := r.onTypes (TypeRegistry.typeId c.type)
    if type.isValid then
      let (id, r) := r.takeId
      if id.isValid then
        let (opcode, operands) := c.declaration
        (id, { r with
          target := r.target.addGlobal
            { opcode, type := some type, result := some id, operands }
          constants := r.constants.add id c })
      else (Id.invalid, r)
    else (Id.invalid, r)

/-- The constant zero of an integer type. -/
def zeroScalarId (width : Nat) (signed : Bool) (r : Registry) : Id × Registry :=
  constantId (.zero width signed) r

/-- A vector constant.  The type must be a vector type of as many lanes as there are components,
and the components must be declared constants. -/
def compositeId (type : Id) (components : List Id) (r : Registry) : Id × Registry :=
  match r.types.type? type with
  | some (.vector element count) =>
    if count = components.length ∧ components.all r.constants.isDeclared then
      constantId (.composite (.vector element count) components) r
    else (Id.invalid, r)
  | _ => (Id.invalid, r)

/-- The zero of a vector type, all of whose lanes are the same scalar zero.  The lanes are collected
one by one, so there is no count at which that is refused. -/
def zeroVectorId (width : Nat) (signed : Bool) (count : Nat) (r : Registry) : Id × Registry :=
  let (zero, r) := zeroScalarId width signed r
  if zero.isValid then
    let (type, r) := r.onTypes (TypeRegistry.vectorId (.int width signed) count)
    if type.isValid then compositeId type (List.replicate count zero) r
    else (Id.invalid, r)
  else (Id.invalid, r)

/-- The zero of the type with the given id, an integer or an integer vector type. -/
def zeroId (type : Id) (r : Registry) : Id × Registry :=
  match r.types.type? type with
  | some (.int width signed) => zeroScalarId width signed r
  | some (.vector (.int width signed) count) => zeroVectorId width signed count r
  | _ => (Id.invalid, r)

end Registry
end ShiftBarrier
