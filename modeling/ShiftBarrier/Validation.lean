import ShiftBarrier.Analysis.DefUse

/-!
# Validation

A valid module defines every id once, uses only ids that are defined where they are used, and ends
every block.

* `Validation.findings` lists what is wrong with a module.
* In the preamble an id may be defined anywhere; among the globals it must be defined before, or be
  a function; in a function it must be a global, a label of the function, or defined before.  Only
  `OpPhi` may refer to what the function defines later.
-/

set_option autoImplicit false

namespace ShiftBarrier
namespace Validation

/-- Is the id among the known ones? -/
def isKnown (known : List Id) (id : Id) : Bool := known.any id.same

/-- The ids an instruction uses that are not known, once for each use. -/
def undefinedUses (known : List Id) (i : Instruction) : List Finding :=
  (i.uses.filter fun id => !isKnown known id).map (Finding.notDefined · i)

/-- The ids that instructions define. -/
def results (is : List Instruction) : List Id := is.filterMap Instruction.result

/-- Checks instructions in order, each result being known to those that follow. -/
def inOrder (later : List Id) : List Id → List Instruction → List Finding
  | _, [] => []
  | known, i :: is =>
    undefinedUses (if i.opcode = "OpPhi" then later ++ known else known) i
      ++ inOrder later (i.result.toList ++ known) is

/-- The instructions whose result was defined before, in order. -/
def redefined (m : Module) : List Finding :=
  (DefUse.analyze m).redefinitions.filterMap fun serial => do
    let i ← m.bySerial? serial
    return .redefined (← i.result) i

/-- The header may refer to whatever the module defines, labels included. -/
def inPreamble (m : Module) : List Finding :=
  let known := results m.instructions ++ m.labels
  m.preamble.flatMap (undefinedUses known)

/-- What every global and every function may use. -/
def shared (m : Module) : List Id :=
  (results m.preamble).filter Id.isValid ++ m.functions.map Function.id

/-- What the globals use without its being defined. -/
def inGlobals (m : Module) : List Finding := inOrder [] (shared m) m.globals

/-- The blocks that fall off their end. -/
def unterminated (f : Function) : List Finding :=
  (f.blocks.filter fun b => !b.isTerminated).map .notTerminated

/-- What is wrong in a function, given what is defined outside of it. -/
def inFunction (known : List Id) (f : Function) : List Finding :=
  unterminated f ++ inOrder (results f.instructions) (f.labels ++ known) f.instructions

/-- Everything that is wrong with a module, part by part. -/
def findings (m : Module) : List Finding :=
  let known := results m.globals ++ shared m
  redefined m ++ inPreamble m ++ inGlobals m ++ m.functions.flatMap (inFunction known)

/-- Fails with all findings, unless there are none. -/
def check (m : Module) : Except Error Unit :=
  match findings m with
  | [] => .ok ()
  | fs => .error (.findings fs)

end Validation
end ShiftBarrier
