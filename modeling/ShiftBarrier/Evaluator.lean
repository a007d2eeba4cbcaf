import ShiftBarrier.Evaluator.Arithmetic
import ShiftBarrier.Registry

/-!
# Evaluation of straight-line integer code

Integers are bit patterns; a vector is the list of its lanes.

* `Evaluator.ofModule` reads the types and constants that an evaluation needs.
* `Evaluator.instruction` evaluates one instruction in an environment.
* `Evaluator.block` runs a block up to its terminator, given values for the ids it reads that are
  not constants.
-/

set_option autoImplicit false

namespace ShiftBarrier

/-- The value of an id. -/
inductive Value
  | scalar (n : Int)
  | vector (lanes : List Int)
  deriving DecidableEq, Repr

/-- Values of ids, in the order in which the ids were first bound. -/
abbrev Environment := List (Id × Value)

namespace Environment

/-- The value of an id. -/
def value? (env : Environment) (id : Id) : Option Value :=
  (env.find? (·.1.same id)).map (·.2)

/-- Binds an id.  One that is bound already keeps its place and gets a new value. -/
def bind (id : Id) (v : Value) : Environment → Environment
  | [] => [(id, v)]
  | (key, old) :: rest =>
    if key.same id then (key, v) :: rest else (key, old) :: bind id v rest

theorem value?_bind (env : Environment) (id key : Id) (v : Value) :
    (bind id v env).value? key = if id.same key then some v else env.value? key := by
  induction env with
  | nil => simp only [bind, value?, List.find?]; split <;> simp_all
  | cons entry rest ih =>
    simp only [bind]
    simp only [value?] at ih ⊢
    simp only [Id.same, beq_iff_eq] at *
    split <;> simp only [List.find?_cons] <;> grind

end Environment

/-- The tables an evaluation works with.  Those of constants may be missing. -/
structure Evaluator where
  types : TypeTable
  constants : Option ConstantTable

namespace Evaluator

/-- The evaluator of a module whose declarations are all sound. -/
def ofModule (m : Module) : Except Error Evaluator := do
  let r ← Registry.ofModule m
  return ⟨r.types, some r.constants⟩

/-! ## Operands

Constants may be nested and may even contain themselves, so the value of a constant is found with
fuel. -/

/-- The constant an operand names, if it names one. -/
def constant? (ev : Evaluator) (operand : Operand) : Except Error (Option Constant) :=
  match operand.id?, ev.constants with
  | none, _ => .ok none
  | some id, some table => .ok (table.constant? id)
  | some _, none => .error .noTables

/-- How deep composites may be nested for their lanes to be looked at. -/
def maxNesting : Nat := 980

/-- How many lanes a vector may have for its zeros to be made in one go: the count is then an index,
which is a signed 64-bit word.  Lanes that are made one by one have no such limit. -/
def maxLanes : Nat := Nat.pow 2 63 - 1

/-- The value of the null constant of a vector type, all of whose lanes are there at once. -/
def zeros (count : Nat) : Except Error Value :=
  if count ≤ maxLanes then .ok (.vector (List.replicate count 0))
  else .error (.tooManyLanes count)

/-- The value of a constant that contains no composites deeper than the fuel. -/
def constantValue (ev : Evaluator) : Nat → Option Constant → Except Error Value
  | _, some (.scalar _ (.int n)) => .ok (.scalar n)
  | _, some (.null (.vector _ count)) => zeros count
  | _, some (.null _) => .ok (.scalar 0)
  | 0, some (.composite _ _) => .error .nestedTooDeep
  | fuel + 1, some (.composite _ components) => do
    let lanes ← components.mapM fun id => do
      match ← ev.constantValue fuel (← ev.constant? (.id id)) with
      | .scalar n => return n
      | .vector _ => throw (.violation .nestedLane)
    return .vector lanes
  | _, some c => do throw (.evaluation (.valuelessConstant (← c.describe)))
  | _, none => .error (.evaluation (.valuelessConstant "None"))

/-- The environment goes before the constants. -/
def operandValue (ev : Evaluator) (env : Environment) (operand : Operand) :
    Except Error Value := do
  match operand.id?.bind env.value? with
  | some v => return v
  | none =>
    match ← ev.constant? operand with
    | none => throw (.evaluation (.noValue (← operand.text)))
    | some c => ev.constantValue maxNesting (some c)

/-! ## Instructions -/

/-- The width of an integer type or of the lanes of an integer vector type, if it is within
bounds. -/
def laneWidth : Option Ty → Except Error Nat
  | some (.int w _) => Integer.checkBits w
  | some (.vector (.int w _) _) => Integer.checkBits w
  | some type => do throw (.evaluation (.notInteger (← type.name)))
  | none => .error (.evaluation (.notInteger "None"))

/-- What an argument contributes to a lane; a scalar contributes to every lane. -/
def lane (index : Nat) : Value → Except Error Int
  | .scalar n => .ok n
  | .vector lanes =>
    match lanes[index]? with
    | some n => .ok n
    | none => .error .outOfRange

/-- Computes the lanes of a vector from the first on, up to the first that fails. -/
def lanes (f : Nat → Except Error Int) (count : Nat) : Except Error (List Int) :=
  go count 0 []
where
  go : Nat → Nat → List Int → Except Error (List Int)
    | 0, _, done => .ok done.reverse
    | n + 1, index, done => do go n (index + 1) ((← f index) :: done)

theorem lanes_go (f : Nat → Except Error Int) (n index : Nat) (done : List Int) :
    lanes.go f n index done = do return done.reverse ++ (← (List.range' index n).mapM f) := by
  induction n generalizing index done with
  | zero => simp [lanes.go, bind, Except.bind, pure, Except.pure]
  | succ n ih =>
    rw [lanes.go, List.range'_succ, List.mapM_cons]
    cases h : f index with
    | error e => rfl
    | ok x =>
      show lanes.go f n (index + 1) (x :: done) = _
      rw [ih]
      cases h' : List.mapM f (List.range' (index + 1) n) with
      | error e => simp [bind, Except.bind]
      | ok xs => simp [bind, Except.bind, pure, Except.pure]

theorem lanes_eq_mapM (f : Nat → Except Error Int) (count : Nat) :
    lanes f count = (List.range count).mapM f := by
  rw [lanes, lanes_go, ← List.range_eq_range']
  cases h : List.mapM f (List.range count) <;> rfl

/-- The value of an argument that has no lanes. -/
def scalarArgument? : Value → Option Int
  | .scalar n => some n
  | .vector _ => none

/-- Applies an operation, cutting the result to the width. -/
def apply (operation : Arithmetic.Operation) (width : Nat) (args : List Int) :
    Except Error Int := do
  return Integer.low width (← operation.eval width args)

/-- Evaluates an instruction: its type first, then its arguments, then its opcode.  A copy passes on
its first argument as it is.  A vector result is computed lane by lane. -/
def instruction (ev : Evaluator) (env : Environment) (i : Instruction) : Except Error Value := do
  let type := i.type.bind ev.types.type?
  let width ← laneWidth type
  let args ← i.operands.mapM (ev.operandValue env)
  if i.opcode = "OpCopyObject" then
    match args with
    | v :: _ => return v
    | [] => throw .outOfRange
  match Arithmetic.Operation.ofOpcode? i.opcode with
  | none => throw (.evaluation (.unsupported (← i.text)))
  | some operation =>
    match type with
    | some (.vector _ count) =>
      return .vector (← lanes (fun i => do apply operation width (← args.mapM (lane i))) count)
    | _ =>
      match args.mapM scalarArgument? with
      | some args => return .scalar (← apply operation width args)
      | none => throw (.evaluation (.vectorOperand (← i.text)))

/-! ## Blocks -/

/-- Runs instructions up to a terminator.  Results that are given are not computed. -/
def run (ev : Evaluator) (inputs : Environment) :
    Environment → List Instruction → Except Error Environment
  | env, [] => .ok env
  | env, i :: is =>
    if i.isTerminator then .ok env
    else
      match i.result with
      | none => run ev inputs env is
      | some id =>
        if (inputs.value? id).isSome then run ev inputs env is
        else do
          let v ← ev.instruction env i
          run ev inputs (env.bind id v) is

/-- Runs a block, starting from the values that are given. -/
def block (ev : Evaluator) (inputs : Environment) (b : Block) : Except Error Environment :=
  ev.run inputs inputs b.instructions

end Evaluator
end ShiftBarrier
