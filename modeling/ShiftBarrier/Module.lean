import ShiftBarrier.Settings

/-!
# Modules

A module is a header, a global section of types, constants and variables, and functions.  They
share one range of ids, handed out in ascending order below the settings' limit.

* `Module.instructions` lists all instructions in order; `Module.bySerial?` finds one again.
* `Module.takeId` hands out a fresh id, or the invalid one when they are used up.
* `Module.text` is the assembly listing.
-/

set_option autoImplicit false

namespace ShiftBarrier

/-- A module.  Serial numbers tell instructions apart that look alike. -/
structure Module where
  preamble : List Instruction := []
  globals : List Instruction := []
  functions : List Function := []
  /-- All ids handed out so far are below the bound. -/
  bound : Nat := 1
  settings : Settings := {}
  nextSerial : Nat := 0
  deriving DecidableEq, Repr, Inhabited

namespace Module

/-- The module of an empty text. -/
def empty (settings : Settings) : Module := { settings }

/-! ## Contents -/

/-- All blocks, function by function. -/
def blocks (m : Module) : List Block := m.functions.flatMap Function.blocks

/-- The labels of all blocks. -/
def labels (m : Module) : List Id := m.functions.flatMap Function.labels

/-- All instructions in the order of the listing: the header, the global section, the functions. -/
def instructions (m : Module) : List Instruction :=
  m.preamble ++ m.globals ++ m.functions.flatMap Function.instructions

/-- The instruction with a serial number. -/
def bySerial? (m : Module) (serial : Nat) : Option Instruction :=
  m.instructions.find? (·.serial == serial)

/-- Is there a function with this id? -/
def hasFunction (m : Module) (id : Id) : Bool := m.functions.any (id.same ·.id)

/-- Every mention of an id: instruction by instruction, then the labels. -/
def mentions (m : Module) : List Id :=
  m.instructions.flatMap (fun i => i.result.toList ++ i.uses) ++ m.labels

/-- The id with a friendly name. -/
def named? (m : Module) (name : String) : Option Id := m.mentions.find? (·.name == some name)

/-! ## Listing -/

/-- The lines of the listing, unless a number is too long to be written. -/
def lines (m : Module) : Except Decimal.Fault (List String) := do
  let header ← (m.preamble ++ m.globals).mapM Instruction.text
  let functions ← m.functions.mapM Function.lines
  return header ++ functions.flatten

/-- The assembly listing.  An empty module is one empty line. -/
def text (m : Module) : Except Decimal.Fault String := do
  let lines ← m.lines
  return if lines.isEmpty then "\n" else unlines lines

/-! ## Ids -/

/-- The limit below which all ids stay. -/
def maxIdBound (m : Module) : Nat := m.settings.maxIdBound

/-- Hands out the bound as a fresh id, or the invalid id once the bound has reached its limit. -/
def takeId (m : Module) : Id × Module :=
  if m.maxIdBound ≤ m.bound then (Id.invalid, m)
  else (⟨m.bound, none⟩, { m with bound := m.bound + 1 })

theorem takeId_of_lt {m : Module} (h : m.bound < m.maxIdBound) :
    m.takeId = (⟨m.bound, none⟩, { m with bound := m.bound + 1 }) :=
  if_neg (Nat.not_le.2 h)

theorem takeId_of_le {m : Module} (h : m.maxIdBound ≤ m.bound) : m.takeId = (Id.invalid, m) :=
  if_pos h

/-- Puts an id that is in use below the bound. -/
def reserve (m : Module) (id : Id) : Module := { m with bound := max m.bound (id.number + 1) }

/-! ## Additions -/

/-- Makes an instruction one of the module's own. -/
def adopt (m : Module) (i : Instruction) : Instruction × Module :=
  ({ i with serial := m.nextSerial }, { m with nextSerial := m.nextSerial + 1 })

/-- Puts an instruction at the end of the header. -/
def addPreamble (m : Module) (i : Instruction) : Module :=
  let (i, m) := m.adopt i
  { m with preamble := m.preamble ++ [i] }

/-- Puts an instruction at the end of the global section. -/
def addGlobal (m : Module) (i : Instruction) : Module :=
  let (i, m) := m.adopt i
  { m with globals := m.globals ++ [i] }

end Module
end ShiftBarrier
