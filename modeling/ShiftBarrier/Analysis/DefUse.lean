import ShiftBarrier.Module
import ShiftBarrier.OrderedSet

/-!
# Definitions and uses

The tables refer to instructions by serial number, so that they follow an instruction when its
result is renamed.

* `DefUse.analyze` goes through all instructions of a module in order.
* `DefUse.definition?` is the first definition of an id, `DefUse.uses` all its users.
* `DefUse.redefinitions` are the instructions whose result was defined before.
-/

set_option autoImplicit false

namespace ShiftBarrier

/-- The tables of definitions and uses.  Ids are looked up by number. -/
structure DefUse where
  definitions : List (Id × Nat) := []
  users : List (Id × OrderedSet Nat) := []
  redefinitions : List Nat := []

namespace DefUse

/-- The first instruction that defines an id. -/
def definition? (t : DefUse) (id : Id) : Option Nat :=
  (t.definitions.find? (·.1.same id)).map (·.2)

/-- Has an id a definition? -/
def isDefined (t : DefUse) (id : Id) : Bool := t.definitions.any (·.1.same id)

/-- The instructions that use an id, in order and each of them once. -/
def uses (t : DefUse) (id : Id) : List Nat :=
  match t.users.find? (·.1.same id) with
  | some (_, serials) => serials.toList
  | none => []

/-- Adds a user to the set of an id. -/
def addUser (id : Id) (serial : Nat) :
    List (Id × OrderedSet Nat) → List (Id × OrderedSet Nat)
  | [] => [(id, OrderedSet.empty.insert serial)]
  | (key, serials) :: rest =>
    if key.same id then (key, serials.insert serial) :: rest
    else (key, serials) :: addUser id serial rest

/-- Enters one instruction: its uses, then its result. -/
def record (t : DefUse) (i : Instruction) : DefUse :=
  let users := i.uses.foldl (fun users id => addUser id i.serial users) t.users
  match i.result with
  | none => { t with users }
  | some id =>
    if t.isDefined id then { t with users, redefinitions := t.redefinitions ++ [i.serial] }
    else { t with users, definitions := t.definitions ++ [(id, i.serial)] }

/-- The tables of a module. -/
def analyze (m : Module) : DefUse := m.instructions.foldl record {}

end DefUse
end ShiftBarrier
