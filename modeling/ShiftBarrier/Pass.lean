import ShiftBarrier.Barrier
import ShiftBarrier.Session
import ShiftBarrier.Validation

/-!
# Passes

* `Pass` is an operation on a session that reports how it went, with the analyses that are still
  valid after it changed the module.
* `Pass.barrier` is the barrier pass; `Pass.named` finds a pass by its name.
* `Pass.runAll` runs passes in order, dropping analyses that a pass made stale, up to the first
  that fails.
* `Session.optimize` runs passes by name on a cache of its own and validates the result on demand.
-/

set_option autoImplicit false

namespace ShiftBarrier

/-- How a pass ended that did not raise an error. -/
inductive PassStatus
  | failure
  | changed
  | unchanged
  deriving DecidableEq, Repr

/-- The name of a status in messages. -/
def PassStatus.name : PassStatus → String
  | .failure => "FAILURE"
  | .changed => "SUCCESS_WITH_CHANGE"
  | .unchanged => "SUCCESS_WITHOUT_CHANGE"

/-- What a pass did: how it ended, and how many barriers it added if it came to count them. -/
structure PassRun where
  result : Except Error PassStatus
  guards : Option Barrier.GuardCount := none

/-- A pass: the analyses that survive a change it makes, and what it does. -/
structure Pass where
  preserved : List AnalysisKind
  run : Session → PassRun × Session

namespace Pass

/-! ## The barrier pass -/

/-- How a run that has come to its end or to a stop is reported. -/
def barrierEnd (stop : Option Barrier.Stop) (s : Barrier.State) :
    Except Error PassStatus × Barrier.State :=
  match stop with
  | some (.raised e) => (.error e, s)
  | some .failed => (.ok .failure, s)
  | none =>
    if s.count.total = 0 then (.ok .unchanged, s)
    else
      let n := s.count
      (.ok .changed, s.write (Barrier.record .info
        s!"guarded {n.total} shifts (scalar={n.scalar}, vector={n.vector})"))

/-- Runs on a session whose tables are at hand. -/
def barrierOn (types : TypeTable) (constants : ConstantTable) (s : Session) :
    PassRun × Session :=
  let (stop, done) := Barrier.run ⟨⟨s.target, types, s.log⟩, constants⟩
  let (result, done) := barrierEnd stop done
  let r := done.registry
  (⟨result, some done.count⟩,
    { target := r.target, log := r.log,
      cache := (s.cache.setTypes r.types).setConstants r.constants })

/-- The barrier pass.  It asks for the types and for the constants, in this order, before it looks
at the module. -/
def runBarrier (s : Session) : PassRun × Session :=
  let tables : Action (TypeTable × Option ConstantTable) := do
    return (← Session.types, ← Session.constants?)
  match tables.run.run s with
  | (.error e, s) => (⟨.error e, none⟩, s)
  | (.ok (types, some constants), s) => barrierOn types constants s
  | (.ok (_, none), s) =>
    let result := (Barrier.runWithoutConstants s.target).map fun _ => PassStatus.unchanged
    (⟨result, some {}⟩, s)

/-- The barrier pass declares types and constants as it goes, and still no analysis counts as
preserved. -/
def barrier : Pass := { preserved := [], run := runBarrier }

/-- The candidate that the barrier pass sees in an instruction. -/
def candidateIn (types : TypeTable) (constants : Option ConstantTable) (i : Instruction) :
    Except Error (Option Barrier.Candidate) :=
  match constants with
  | some constants => Barrier.candidate? types constants i
  | none => do
    if (← Barrier.shiftAmount? i).isSome then throw .noTables else return none

/-! ## Names -/

/-- The name of the barrier pass, which is that of its option too. -/
def barrierName : String := "mali-optimization-barrier"

/-- The passes that have a name. -/
def registered : List (String × Pass) := [(barrierName, barrier)]

/-- The pass of a name. -/
def named (name : String) : Except Error Pass :=
  match registered.lookup name with
  | some pass => .ok pass
  | none => .error (.unknownPass name (registered.map (·.1)))

/-! ## Running passes

A pass that changed the module makes analyses stale, and those it does not preserve are dropped
before the next pass.  A pass that fails ends the run at once. -/

/-- A pass, or the name of one. -/
inductive Choice
  | name (key : String)
  | pass (given : Pass)

/-- The pass that is meant. -/
def Choice.resolve : Choice → Except Error Pass
  | .name key => named key
  | .pass given => .ok given

/-- Runs resolved passes, given the status so far.  Every pass that was started is listed. -/
def runResolved : PassStatus → List Pass → Session →
    (Except Error PassStatus × List PassRun) × Session
  | status, [], s => ((.ok status, []), s)
  | status, p :: ps, s =>
    let (done, s) := p.run s
    match done.result with
    | .error e => ((.error e, [done]), s)
    | .ok .failure => ((.ok .failure, [done]), s)
    | .ok .unchanged =>
      let ((result, runs), s) := runResolved status ps s
      ((result, done :: runs), s)
    | .ok .changed =>
      let s := { s with cache := s.cache.invalidateExcept p.preserved }
      let ((result, runs), s) := runResolved .changed ps s
      ((result, done :: runs), s)

/-- Resolves all names before running anything, so that a wrong one leaves the module alone. -/
def runAll (choices : List Choice) (s : Session) :
    (Except Error PassStatus × List PassRun) × Session :=
  match choices.mapM Choice.resolve with
  | .error e => ((.error e, []), s)
  | .ok passes => runResolved .unchanged passes s

end Pass

/-! ## Optimising -/

namespace Session

/-- Runs passes by name with fresh analyses; the session's own cache stays as it is. -/
def optimize (names : List String) : Action PassStatus := do
  let s ← get
  let ((result, _), done) := Pass.runAll (names.map .name) { s with cache := {} }
  set { done with cache := s.cache }
  let status ← MonadExcept.ofExcept result
  if status ≠ .failure ∧ s.target.settings.validate then
    MonadExcept.ofExcept (Validation.check done.target)
  return status

end Session
end ShiftBarrier
