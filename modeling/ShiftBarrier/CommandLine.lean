import ShiftBarrier.Assembly
import ShiftBarrier.CommandLine.Options
import ShiftBarrier.CommandLine.Usage

/-!
# The command line program

The program reads a module from a file or from standard input, runs the passes asked for, and writes
the module to a file or to standard output.

* `CommandLine.Request.ofArguments` reads the arguments, `CommandLine.Request.finish` answers them
  for a given input.
* `CommandLine.run` puts both together for an environment whose files are known.
* `CommandLine.Outcome` is everything an invocation leaves behind.
-/

set_option autoImplicit false

namespace ShiftBarrier
namespace CommandLine

/-! ## Input -/

/-- Why a path cannot be opened. -/
inductive FileFault
  | notFound
  | isDirectory
  | notDirectory
  | nameTooLong
  /-- No path holds a null character. -/
  | nullCharacter
  deriving DecidableEq, Repr

/-- The reason as the system words it. -/
def FileFault.message : FileFault → String
  | .notFound => "No such file or directory"
  | .isDirectory => "Is a directory"
  | .notDirectory => "Not a directory"
  | .nameTooLong => "File name too long"
  | .nullCharacter => "embedded null byte"

/-- What there is to read, or why there is nothing: no input, a file that cannot be read, or a name
that no file has. -/
inductive Input
  | text (source : String)
  | missing
  | unreadable (name : String) (why : String)
  | unnameable (fault : FileFault)

/-- Ends every line with a line feed, however it was ended. -/
def plainLineEnds : List Char → List Char
  | '\r' :: '\n' :: cs => '\n' :: plainLineEnds cs
  | '\r' :: cs => '\n' :: plainLineEnds cs
  | c :: cs => c :: plainLineEnds cs
  | [] => []

/-- The text of a file or of standard input, as the program gets to see it. -/
def Input.ofText (text : String) : Input := .text (String.ofList (plainLineEnds text.toList))

/-! ## Outcomes -/

/-- Where a listing goes, and the listing itself unless it cannot be written. -/
structure Emission where
  file : Option String
  text : Except Error String

/-- Why the program ends: an exit code, an error it does not report, or a file it cannot open. -/
inductive Ending
  | exit (code : Nat)
  | error (e : Error)
  | file (fault : FileFault)

/-- What the program has to say before it ends, perhaps with a listing still to be written. -/
structure Outcome where
  stdout : String := ""
  stderr : String := ""
  ending : Ending := .exit 0
  emission : Option Emission := none

/-- The error output of a log, from a level up. -/
def logText (level : LogLevel) (log : Log) : String :=
  String.join ((log.filter fun r => level.severity ≤ r.level.severity).map (·.text ++ "\n"))

/-- A line of the error output. -/
def errorLine (message : String) : String := s!"Error: {message}\n"

/-- The program ends because there is nothing to work on. -/
def Outcome.failed (message : String) : Outcome :=
  { stderr := errorLine message, ending := .exit 1 }

/-- The program ends because of its arguments, of which the usage text reminds. -/
def Outcome.misused (fault : Fault) : Outcome :=
  { stderr := s!"{usage}{programName}: error: {fault.message}\n", ending := .exit 2 }

/-- The program ends before it starts. -/
def Outcome.ofExit : Exit → Outcome
  | .help => { stdout := help }
  | .version => { stdout := version ++ "\n" }
  | .fault fault => .misused fault

/-! ## Stages

An invocation has three stages, and each of them may be the last: the arguments are read, then the
request is answered for its input, then the listing is written. -/

/-- A run that is asked for correctly. -/
structure Request where
  options : Options
  level : LogLevel
  settings : Settings

/-- The value offered for the setting by an option that may have been given without one. -/
def settingOf : Given Nat → Option SettingValue
  | .absent => none
  | .empty => some .other
  | .value n => some (.number n)

/-- The level from which on records are shown. -/
def levelOf : Given String → Except Outcome LogLevel
  | .absent => .ok .warning
  | .empty => .error { ending := .error .valuelessLevel }
  | .value name => (LogLevel.ofName name).mapError fun _ => .misused (.unknownLevel name)

/-- Reads the arguments.  The environment of the program gives the limit of the ids that holds where
they give none. -/
def Request.ofArguments (arguments : List String)
    (fallback : Nat := Settings.defaultMaxIdBound) : Except Outcome Request := do
  let options ← (Options.ofArguments arguments).mapError Outcome.ofExit
  let level ← levelOf options.logLevel
  let validate := if options.validate then some (SettingValue.flag true) else none
  match Settings.ofValues (settingOf options.maxIdBound) validate fallback with
  | .ok settings => return { options, level, settings }
  | .error e => throw { ending := .error e }

/-- Findings are reported one by one, as far as they can be written. -/
def reportFindings : List Finding → String × Ending
  | [] => ("", .exit 1)
  | f :: fs =>
    match f.text with
    | .error fault => ("", .error (.numeral fault))
    | .ok text =>
      let (rest, ending) := reportFindings fs
      (errorLine text ++ rest, ending)

/-- How the program ends on an error: faults of the input are reported, others are not its own. -/
def reportError (e : Error) : String × Ending :=
  match e with
  | .findings fs => reportFindings fs
  | e =>
    match e.diagnostic? with
    | some d => (errorLine d.render, .exit 1)
    | none => ("", .error e)

/-- Parses and optimises a source text. -/
def optimizeSource (settings : Settings) (passes : List String) (source : String) :
    Except Error PassStatus × Session :=
  match Assembly.parse settings source with
  | .error e => (.error e, { target := Module.empty settings })
  | .ok m => (Session.optimize passes).run.run { target := m }

/-- A module that was optimised goes to the output file, or to standard output if none is named. -/
def Outcome.listing (output : Given String) (m : Module) : Outcome :=
  let text := m.text.mapError Error.numeral
  match output with
  | .absent => { emission := some { file := none, text } }
  | .empty => { ending := .error .valuelessOutput }
  | .value name => { emission := some { file := some name, text } }

/-- Answers a request, given its input. -/
def Request.finish (request : Request) : Input → Outcome
  | .missing => .failed "No input provided"
  | .unreadable name why => .failed s!"Unable to read file '{name}': {why}"
  | .unnameable fault => { ending := .file fault }
  | .text source =>
    let (result, s) := optimizeSource request.settings request.options.passes source
    let logged := logText request.level s.log
    match result with
    | .error e =>
      let (report, ending) := reportError e
      { stderr := logged ++ report, ending }
    | .ok .failure =>
      { stderr := logged ++ errorLine "optimization failed", ending := .exit 1 }
    | .ok _ => { Outcome.listing request.options.output s.target with stderr := logged }

/-! ## Running in a known environment

What a program reads and where it may write are given here as functions, so that everything an
invocation leaves behind is a value. -/

/-- The files a program can see. -/
structure Files where
  read : String → Except FileFault String
  /-- Why a file cannot be opened for writing. -/
  obstacle : String → Option FileFault

/-- What an invocation leaves behind. -/
structure Result where
  stdout : String
  stderr : String
  written : Option (String × String)
  ending : Ending

/-- The input of a run: the file if one is named, else standard input. -/
def inputFor (files : Files) (stdin : Option String) (options : Options) : Input :=
  match options.input with
  | some name =>
    match files.read name with
    | .ok text => .ofText text
    | .error .nullCharacter => .unnameable .nullCharacter
    | .error fault => .unreadable name fault.message
  | none =>
    match stdin with
    | some text => .ofText text
    | none => .missing

/-- Writes the listing.  A file is opened, and so emptied, before the listing is made. -/
def emit (files : Files) (o : Outcome) : Result :=
  let result : Result :=
    { stdout := o.stdout, stderr := o.stderr, written := none, ending := o.ending }
  match o.emission with
  | none => result
  | some ⟨none, .ok text⟩ => { result with stdout := text }
  | some ⟨none, .error e⟩ => { result with ending := .error e }
  | some ⟨some name, text⟩ =>
    match files.obstacle name, text with
    | some fault, _ => { result with ending := .file fault }
    | none, .ok text => { result with written := some (name, text) }
    | none, .error e => { result with written := some (name, ""), ending := .error e }

/-- An invocation as a whole: what it reads, what it is asked for, and what it leaves behind. -/
def run (files : Files) (stdin : Option String) (arguments : List String)
    (fallback : Nat := Settings.defaultMaxIdBound) : Result :=
  match Request.ofArguments arguments fallback with
  | .error o => emit files o
  | .ok request => emit files (request.finish (inputFor files stdin request.options))

end CommandLine
end ShiftBarrier
