import ShiftBarrier.CommandLine

/-!
# Main program
-/

set_option autoImplicit false

namespace ShiftBarrier
namespace CommandLine

/-- The reason that is given for an unreadable file. -/
def whyUnreadable : IO.Error → String
  | .noFileOrDirectory .. => FileFault.message .notFound
  | .inappropriateType .. => FileFault.message .isDirectory
  | e => toString e

/-- Reads the input.  A terminal counts as no input. -/
def readInput (options : Options) : IO Input := do
  match options.input with
  | some name =>
    try return .ofText (← IO.FS.readFile name)
    catch e => return .unreadable name (whyUnreadable e)
  | none =>
    let stdin ← IO.getStdin
    if ← stdin.isTty then return .missing else return .ofText (← stdin.readToEnd)

/-- The limit of the ids that the environment gives for modules without one. -/
def readFallback : IO Nat := do
  match ← IO.getEnv "SPVGUARD_MAX_ID_BOUND" with
  | none => return Settings.defaultMaxIdBound
  | some text =>
    match integer? text with
    | some bound => return bound.toNat
    | none => throw (IO.userError s!"invalid literal: {text}")

/-- Writes what there is to say, then the listing, and ends as the outcome tells. -/
def perform (o : Outcome) : IO UInt32 := do
  IO.print o.stdout
  IO.eprint o.stderr
  match o.emission with
  | some ⟨none, .ok text⟩ => IO.print text
  | some ⟨some name, .ok text⟩ => IO.FS.writeFile name text
  | some ⟨none, .error e⟩ => throw (IO.userError e.message)
  | some ⟨some name, .error e⟩ =>
    IO.FS.writeFile name ""
    throw (IO.userError e.message)
  | none => pure ()
  match o.ending with
  | .exit code => return code.toUInt32
  | .error e => throw (IO.userError e.message)
  | .file fault => throw (IO.userError fault.message)

end CommandLine
end ShiftBarrier

open ShiftBarrier.CommandLine in
/-- Reads the arguments, then the input, and answers. -/
def main (arguments : List String) : IO UInt32 := do
  match Request.ofArguments arguments (← readFallback) with
  | .error o => perform o
  | .ok request => perform (request.finish (← readInput request.options))
