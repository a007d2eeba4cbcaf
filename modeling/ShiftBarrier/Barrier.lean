import ShiftBarrier.Registry

/-!
# Barriers behind constant shifts

Some drivers fold a left shift by a constant wrongly into the arithmetic that uses its result.  A
barrier hides the pattern: the result goes through a bit field insert of no bits, which changes
nothing.  From

    %r = OpShiftLeftLogical %uint %x %uint_3

comes

    %t = OpShiftLeftLogical %uint %x %uint_3
    %r = OpBitFieldInsert %uint %t %uint_0 %uint_0 %uint_0

and the users of `%r` stay as they are.

* `Barrier.candidate?` tells which instructions need a barrier.
* `Barrier.guard` puts one behind a candidate.
* `Barrier.run` goes through all blocks of a module.  At the first failure it stops, and the
  barriers added by then stay.
-/

set_option autoImplicit false

namespace ShiftBarrier
namespace Barrier

/-! ## Candidates

Candidates are found with the tables at hand, so that a zero which the run declares on its way is
one of the declared constants for the shifts behind it. -/

/-- A shift that needs a barrier. -/
structure Candidate where
  shift : Instruction
  type : Id
  result : Id
  isVector : Bool
  deriving DecidableEq, Repr

/-- The id of the shift amount, if the instruction is a left shift by an id. -/
def shiftAmount? (i : Instruction) : Except Error (Option Id) :=
  if i.opcode = "OpShiftLeftLogical" then
    match i.operands[1]? with
    | some amount => .ok amount.id?
    | none => .error .outOfRange
  else .ok none

/-- A left shift by a declared constant of integer or integer vector type is a candidate. -/
def candidate? (types : TypeTable) (constants : ConstantTable) (i : Instruction) :
    Except Error (Option Candidate) := do
  let some amount ← shiftAmount? i | return none
  let some constant := constants.constant? amount | return none
  if constant.type.isIntegral then
    match i.type, i.result with
    | some type, some result =>
      return some ⟨i, type, result, (types.type? type).any Ty.isVector⟩
    | _, _ => throw (.violation (.incompleteCandidate (← i.text)))
  else return none

/-! ## Guards

A guard takes a zero and a new id, in this order.  If one of them cannot be had the run fails, and
the failure is logged.  The text of the instruction is needed for that, as it is for the report of a
success: if it cannot be written the run is stopped by an error. -/

/-- How many barriers were added, for scalars and for vectors. -/
structure GuardCount where
  scalar : Nat := 0
  vector : Nat := 0
  deriving DecidableEq, Repr

namespace GuardCount

/-- All barriers. -/
def total (n : GuardCount) : Nat := n.scalar + n.vector

/-- Counts one more. -/
def add (n : GuardCount) (isVector : Bool) : GuardCount :=
  if isVector then { n with vector := n.vector + 1 } else { n with scalar := n.scalar + 1 }

end GuardCount

/-- A run in progress: the module with its tables and log, and the barriers added so far. -/
structure State where
  registry : Registry
  count : GuardCount := {}

/-- Why a run stops before its end. -/
inductive Stop
  | failed
  | raised (e : Error)

/-- A record of the barrier pass. -/
def record (level : LogLevel) (message : String) : LogRecord :=
  ⟨level, "OptimizationBarrierPass: " ++ message⟩

/-- Adds a record to the log. -/
def State.write (s : State) (r : LogRecord) : State :=
  { s with registry := { s.registry with log := s.registry.log ++ [r] } }

/-- Logs a message about an instruction, whose text must be writable. -/
def State.report (s : State) (level : LogLevel) (message : String) (i : Instruction) :
    Option Stop × State :=
  match i.text with
  | .ok text => (none, s.write (record level (message ++ text)))
  | .error fault => (some (.raised (.numeral fault)), s)

/-- A failure that is logged on the way out. -/
def State.fail (s : State) (message : String) (i : Instruction) : Stop × State :=
  let (stop, s) := s.report .error message i
  (stop.getD .failed, s)

/-- The bit field insert that passes `temporary` on as the result of `c`. -/
def guardInstruction (c : Candidate) (temporary zero : Id) : Instruction :=
  { opcode := "OpBitFieldInsert"
    type := some c.type
    result := some c.result
    operands := [.id temporary, .id zero, .id zero, .id zero] }

/-- Replaces a candidate by the renamed shift and its guard. -/
def guard (c : Candidate) (s : State) : List Instruction × Option Stop × State :=
  let (zero, registry) := s.registry.zeroId c.type
  let s := { s with registry }
  if zero.isValid then
    let (temporary, registry) := s.registry.takeId
    let s := { s with registry }
    if temporary.isValid then
      let shift := { c.shift with result := some temporary }
      let (barrier, target) := s.registry.target.adopt (guardInstruction c temporary zero)
      let s : State :=
        { registry := { s.registry with target }, count := s.count.add c.isVector }
      let (stop, s) := s.report .debug "guarded " shift
      ([shift, barrier], stop, s)
    else
      let (stop, s) := s.fail "failed to allocate a temp result id for " c.shift
      ([c.shift], some stop, s)
  else
    let (stop, s) :=
      s.fail s!"failed to get or create a zero constant of type {c.type.text} for " c.shift
    ([c.shift], some stop, s)

/-! ## Going through a module

Functions, blocks and instructions are gone through in the same way, by `sweep`: what a step puts in
the place of an element goes to the result, and the state goes on to the next. -/

/-- Replaces the elements of a list from left to right.  Those behind a stop stay. -/
def sweep {α σ : Type} (step : α → σ → List α × Option Stop × σ) :
    List α → σ → List α × Option Stop × σ
  | [], s => ([], none, s)
  | a :: as, s =>
    match step a s with
    | (done, some stop, s) => (done ++ as, some stop, s)
    | (done, none, s) =>
      let (rest, stop, s) := sweep step as s
      (done ++ rest, stop, s)

/-- Guards an instruction if it is a candidate. -/
def onInstruction (i : Instruction) (s : State) : List Instruction × Option Stop × State :=
  match candidate? s.registry.types s.registry.constants i with
  | .error e => ([i], some (.raised e), s)
  | .ok none => ([i], none, s)
  | .ok (some c) => guard c s

/-- Guards the candidates of a block. -/
def onBlock (b : Block) (s : State) : List Block × Option Stop × State :=
  let (instructions, stop, s) := sweep onInstruction b.instructions s
  ([{ b with instructions }], stop, s)

/-- Guards the candidates of a function. -/
def onFunction (f : Function) (s : State) : List Function × Option Stop × State :=
  let (blocks, stop, s) := sweep onBlock f.blocks s
  ([{ f with blocks }], stop, s)

/-- Adds barriers in all functions of the module of a registry. -/
def run (r : Registry) : Option Stop × State :=
  let (functions, stop, s) := sweep onFunction r.target.functions { registry := r }
  (stop, { s with registry := { s.registry with target := { s.registry.target with functions } } })

/-- Without tables of constants a run can only find out that it needs them. -/
def runWithoutConstants (m : Module) : Except Error Unit :=
  m.blocks.forM fun b => b.instructions.forM fun i => do
    if (← shiftAmount? i).isSome then throw .noTables

end Barrier
end ShiftBarrier
