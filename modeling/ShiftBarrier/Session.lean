import ShiftBarrier.Analysis.Cache
import ShiftBarrier.Registry

/-!
# Sessions

A session is a module that is being worked on, with its cached analyses and what was logged.

* `Action` is an operation on a session that may fail; what it changed before it failed stays.
* `Session.onTypes` and `Session.onRegistry` run an operation on the cached tables.
-/

set_option autoImplicit false

namespace ShiftBarrier

/-- A module with its cached analyses and its log. -/
structure Session where
  target : Module
  cache : Cache := {}
  log : Log := []

/-- An operation on a session.  The state is outside the failure: an operation that fails returns
the session as it was at that moment. -/
abbrev Action := ExceptT Error (StateM Session)

namespace Session

/-- Applies an operation to the cache. -/
def onCache {α : Type} (f : Module → Cache → Except Error α × Cache) : Action α := do
  let s ← get
  let (result, cache) := f s.target s.cache
  set { s with cache }
  MonadExcept.ofExcept result

/-- Asks for an analysis, which is then cached. -/
def request (kind : AnalysisKind) : Action Unit := onCache fun m c => c.request m kind

/-- Drops an analysis with what depends on it. -/
def invalidate (kind : AnalysisKind) : Action Unit :=
  onCache fun _ c => (.ok (), c.invalidate kind)

/-- Drops all analyses but those to keep. -/
def invalidateExcept (keep : List AnalysisKind) : Action Unit :=
  onCache fun _ c => (.ok (), c.invalidateExcept keep)

/-! ## Types and constants

Every operation asks for the tables it needs.  They are analysed once, and then kept up to date by
the operations themselves. -/

/-- The table of types. -/
def types : Action TypeTable := onCache fun m c => c.requestTypes m

/-- The table may be missing. -/
def constants? : Action (Option ConstantTable) := onCache fun m c => c.requestConstants m

/-- The table of constants, or the failure of every operation on a missing table. -/
def constants : Action ConstantTable := do
  match ← constants? with
  | some t => return t
  | none => throw .noTables

/-- Runs an operation that may declare types.  The cache gets the new table, the session the new
module. -/
def onTypes {α : Type} (f : TypeRegistry → α × TypeRegistry) : Action α := do
  let types ← types
  let s ← get
  let (a, r) := f ⟨s.target, types, s.log⟩
  set { target := r.target, cache := s.cache.setTypes r.types, log := r.log : Session }
  return a

/-- Runs an operation that may declare types and constants.  Both tables are asked for first, the
constants before the types. -/
def onRegistry {α : Type} (f : Registry → α × Registry) : Action α := do
  let constants ← constants
  let types ← types
  let s ← get
  let (a, r) := f ⟨⟨s.target, types, s.log⟩, constants⟩
  set { target := r.target, log := r.log,
        cache := (s.cache.setTypes r.types).setConstants r.constants : Session }
  return a

/-- The constant an operand names, if it names one. -/
def constantOf? (operand : Operand) : Action (Option Constant) := do
  let table ← constants?
  match operand.id?, table with
  | none, _ => return none
  | some id, some t => return t.constant? id
  | some _, none => throw .noTables

/-- The zero constant of an integer type. -/
def zeroScalarId (type : Ty) : Action Id := do
  match type with
  | .int width signed => onRegistry (Registry.zeroScalarId width signed)
  | _ => throw (.violation (.zeroOfOtherType (← type.name)))

/-- A composite constant, the invalid id if the type or a component is none. -/
def compositeId (type : Option Id) (components : List (Option Id)) : Action Id :=
  onRegistry fun r =>
    match type, components.mapM id with
    | some type, some components => r.compositeId type components
    | _, _ => (Id.invalid, r)

/-- The zero of a type, the invalid id if the type is neither integer nor integer vector. -/
def zeroId (type : Option Id) : Action Id := do
  let types ← types
  match type with
  | none => return Id.invalid
  | some id =>
    if (types.type? id).any Ty.isIntegral then onRegistry (Registry.zeroId id)
    else return Id.invalid

/-! ## Definitions and uses

The table has serial numbers only.  An instruction that was renamed since is given as it is now, and
one that is no longer in the module is left out. -/

/-- The table of definitions and uses. -/
def defUse : Action DefUse := onCache fun m c => let (t, c) := c.requestDefUse m; (.ok t, c)

/-- The instructions with the given serial numbers, as they are now. -/
def current (serials : List Nat) : Action (List Instruction) := do
  let s ← get
  return serials.filterMap s.target.bySerial?

/-- The instruction that defines an operand, none if the operand is no id. -/
def definition? (operand : Operand) : Action (Option Instruction) := do
  let t ← defUse
  return (← current (operand.id?.bind t.definition?).toList).head?

/-- The instructions that use an id. -/
def uses (id : Option Id) : Action (List Instruction) := do
  let t ← defUse
  current (id.elim [] t.uses)

/-- Has an id a definition? -/
def isDefined (id : Option Id) : Action Bool := do
  let t ← defUse
  return id.any t.isDefined

/-- The instructions that define an id once more. -/
def redefinitions : Action (List Instruction) := do
  let t ← defUse
  current t.redefinitions

/-! ## Ids -/

/-- A fresh id.  When ids are used up the id is invalid, and only the log tells. -/
def takeId : Action Id := do
  let s ← get
  let (id, target) := s.target.takeId
  set (if id.isValid then { s with target } else { s with log := s.log ++ [.idOverflow] })
  return id

end Session
end ShiftBarrier
