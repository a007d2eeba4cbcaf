import ShiftBarrier.CommandLine.Number
import ShiftBarrier.Pass

/-!
# Command line options

Long options may be shortened to any beginning that no other option shares, and may have their
value behind an equals sign.  Short options may be run together.  Behind `--` nothing is an option,
and `--` itself is never a value: an option that has it for a value is given without one.

* `CommandLine.classify` tells options from other arguments.
* `CommandLine.OptionUse.cluster` takes apart options that are run together.
* `CommandLine.Options.ofArguments` reads all arguments, from left to right.
-/

set_option autoImplicit false

namespace ShiftBarrier
namespace CommandLine

/-- The options of the program. -/
inductive Switch
  | help | output | version | barrier | validate | maxIdBound | logLevel
  deriving DecidableEq, Repr

namespace Switch

/-- All option names in the order in which they are listed. -/
def names : List (String × Switch) :=
  [("-h", .help), ("--help", .help), ("-o", .output), ("--version", .version),
    ("--" ++ Pass.barrierName, .barrier), ("--validate", .validate),
    ("--max-id-bound", .maxIdBound), ("--log-level", .logLevel)]

/-- Is the option used with a value? -/
def takesValue : Switch → Bool
  | .output | .maxIdBound | .logLevel => true
  | _ => false

/-- The name of an option in messages: all its names. -/
def title (s : Switch) : String :=
  String.intercalate "/" ((names.filter (·.2 == s)).map (·.1))

end Switch

/-- What may be wrong with the arguments. -/
inductive Fault
  | ambiguous (argument : String) (candidates : List String)
  | valueExpected (option : Switch)
  | valueIgnored (option : Switch) (value : String)
  | invalidBound (value : String)
  | boundOutOfRange (value : String)
  | unrecognized (arguments : List String)
  | unknownLevel (name : String)
  deriving DecidableEq, Repr

/-- A message that names the option it is about. -/
private def aboutOption (option : Switch) (message : String) : String :=
  s!"argument {option.title}: {message}"

/-- The line of the error report, without the name of the program. -/
def Fault.message : Fault → String
  | .ambiguous argument candidates =>
    let names := String.intercalate ", " candidates
    s!"ambiguous option: {argument} could match {names}"
  | .valueExpected option => aboutOption option "expected one argument"
  | .valueIgnored option value =>
    aboutOption option s!"ignored explicit argument {Text.quote value}"
  | .invalidBound value => aboutOption .maxIdBound s!"invalid id bound: {value}"
  | .boundOutOfRange value =>
    aboutOption .maxIdBound s!"id bound out of range (1..{Settings.maxIdWord}): {value}"
  | .unrecognized arguments =>
    "unrecognized arguments: " ++ String.intercalate " " arguments
  | .unknownLevel name => Error.message (.unknownLogLevel name)

/-! ## Telling options from other arguments

Every argument is looked at on its own and before any option is read, so an ambiguous one is
reported before all other faults. -/

/-- An option as it was written: which one, with the text behind it if there is any. -/
structure OptionUse where
  option : Switch
  isShort : Bool
  value : Option (List Char) := none
  deriving DecidableEq, Repr

/-- An argument as the first round of reading sees it. -/
inductive Argument
  | plain (text : String)
  /-- The first `--`. -/
  | separator
  | option (use : OptionUse)
  | unknownOption (text : String)
  deriving DecidableEq, Repr

/-- Splits at the first equals sign. -/
def splitEquals (cs : List Char) : List Char × Option (List Char) :=
  match cs.dropWhile (· != '=') with
  | [] => (cs, none)
  | _ :: value => (cs.takeWhile (· != '='), some value)

/-- The options a text may stand for that is not exactly the name of one. -/
def interpretations (cs : List Char) : List (String × OptionUse) :=
  match cs with
  | '-' :: '-' :: _ =>
    let (stem, value) := splitEquals cs
    (Switch.names.filter fun (name, _) => stem.isPrefixOf name.toList).map fun (name, option) =>
      (name, { option, isShort := false, value })
  | _ =>
    (Switch.names.filter fun (name, _) => name.toList == cs.take 2).map fun (name, option) =>
      (name, { option, isShort := true, value := some (cs.drop 2) })

/-- Is there one dash in front? -/
def isShortName (cs : List Char) : Bool := cs.drop 1 |>.head?.any (· != '-')

/-- An argument is an option if it is the name of one, or is the name of one before an equals sign,
or can be completed to exactly one.  Negative numbers and texts with a blank are not taken for
misspelt options. -/
def classifyOne (argument : String) : Except Fault Argument :=
  let cs := argument.toList
  match cs with
  | '-' :: _ :: _ =>
    match Switch.names.lookup argument, splitEquals cs with
    | some option, _ => .ok (.option { option, isShort := isShortName cs })
    | none, (stem, value) =>
      match value.bind fun _ => Switch.names.lookup (String.ofList stem) with
      | some option => .ok (.option { option, isShort := isShortName cs, value })
      | none =>
        match interpretations cs with
        | [(_, use)] => .ok (.option use)
        | [] =>
          if looksNegative argument || cs.contains ' ' then .ok (.plain argument)
          else .ok (.unknownOption argument)
        | several => .error (.ambiguous argument (several.map (·.1)))
  | _ => .ok (.plain argument)

/-- Nothing behind the first `--` is an option. -/
def classify : List String → Except Fault (List Argument)
  | [] => .ok []
  | argument :: rest =>
    if argument = "--" then .ok (.separator :: rest.map .plain)
    else do return (← classifyOne argument) :: (← classify rest)

/-! ## Options that are run together

The text behind a short option without a value is more short options, the last of which may have a
value. -/

/-- What one argument asks for: options with their values, and perhaps an option whose value is the
next argument. -/
structure Cluster where
  taken : List (Switch × Option String) := []
  pending : Option Switch := none
  deriving DecidableEq, Repr

namespace Cluster

/-- An option with no text behind it. -/
def bare (option : Switch) : Cluster :=
  if option.takesValue then { pending := some option } else { taken := [(option, none)] }

/-- An option with text behind it.  The text is its value, or, for a short option without value, the
letters of more short options. -/
def withText (option : Switch) (isShort : Bool) (text : List Char) : Except Fault Cluster :=
  if option.takesValue then .ok { taken := [(option, some (String.ofList text))] }
  else
    let ignored := Fault.valueIgnored option (String.ofList text)
    match text with
    | [] => .error ignored
    | c :: rest =>
      if !isShort then .error ignored
      else
        match Switch.names.lookup (String.ofList ['-', c]) with
        | none => .error ignored
        | some next => do
          let more ← if rest.isEmpty then .ok (bare next) else withText next true rest
          return { more with taken := (option, none) :: more.taken }

end Cluster

/-- All options of an argument are found before any of them acts. -/
def OptionUse.cluster (u : OptionUse) : Except Fault Cluster :=
  match u.value with
  | none => .ok (.bare u.option)
  | some text => Cluster.withText u.option u.isShort text

/-! ## Reading all arguments

Options act in the order in which they are given, up to the first that ends the reading: a fault, or
a request for help or for the version. -/

/-- What an option was given: it was not used, or used without a value, or with one. -/
inductive Given (α : Type)
  | absent
  | empty
  | value (a : α)
  deriving DecidableEq, Repr

/-- What the arguments ask for. -/
structure Options where
  input : Option String := none
  output : Given String := .absent
  passes : List String := []
  validate : Bool := false
  maxIdBound : Given Nat := .absent
  logLevel : Given String := .absent
  deriving DecidableEq, Repr

/-- Why the arguments ask for no run. -/
inductive Exit
  | help
  | version
  | fault (fault : Fault)
  deriving DecidableEq, Repr

/-- The options read so far.  The input is taken once; what else is not an option is extra. -/
structure Progress where
  options : Options := {}
  inputTaken : Bool := false
  extras : List String := []

/-- The limit of ids has to be a number that an id can be. -/
def bound (value : String) : Except Fault Nat :=
  match integer? value with
  | none => .error (.invalidBound value)
  | some n =>
    if 0 < n ∧ n ≤ Settings.maxIdWord then .ok n.toNat else .error (.boundOutOfRange value)

namespace Given

/-- The text `--` is no value. -/
def ofText (text : String) : Given String := if text = "--" then .empty else .value text

/-- Reads the value, if there is one. -/
def mapM {α β ε : Type} (f : α → Except ε β) : Given α → Except ε (Given β)
  | .absent => .ok .absent
  | .empty => .ok .empty
  | .value a => (f a).map .value

end Given

/-- The effect of one option.  A second use of `-o` or of a level replaces the first; passes add
up. -/
def Options.take (o : Options) : Switch × Option String → Except Exit Options
  | (.help, _) => .error .help
  | (.version, _) => .error .version
  | (.barrier, _) => .ok { o with passes := o.passes ++ [Pass.barrierName] }
  | (.validate, _) => .ok { o with validate := true }
  | (.output, text) => .ok { o with output := .ofText (text.getD "") }
  | (.logLevel, text) => .ok { o with logLevel := .ofText (text.getD "") }
  | (.maxIdBound, text) => do
    let maxIdBound ← ((Given.ofText (text.getD "")).mapM bound).mapError Exit.fault
    return { o with maxIdBound }

namespace Progress

/-- Keeps an argument there is no place for. -/
def extra (p : Progress) (argument : String) : Progress :=
  { p with extras := p.extras ++ [argument] }

/-- Fills the place of the input.  `none` fills it too: a second input is then one too many. -/
def takeInput (p : Progress) (input : Option String) : Progress :=
  { p with options := { p.options with input }, inputTaken := true }

/-- The effect of options in turn. -/
def takeAll (p : Progress) (taken : List (Switch × Option String)) : Except Exit Progress := do
  return { p with options := ← taken.foldlM Options.take p.options }

/-- Reads arguments; `--` next to the input belongs to it. -/
def read : List Argument → Progress → Except Exit Progress
  | [], p => .ok p
  | .plain text :: .separator :: rest, p =>
    if p.inputTaken then read rest ((p.extra text).extra "--")
    else read rest (p.takeInput (some text))
  | .plain text :: rest, p =>
    if p.inputTaken then read rest (p.extra text) else read rest (p.takeInput (some text))
  | .separator :: .plain text :: rest, p =>
    if p.inputTaken then read rest ((p.extra "--").extra text)
    else read rest (p.takeInput (some text))
  | .separator :: rest, p =>
    if p.inputTaken then read rest (p.extra "--") else read rest (p.takeInput none)
  | .unknownOption text :: rest, p => read rest (p.extra text)
  | .option use :: rest, p => do
    let cluster ← use.cluster.mapError Exit.fault
    match cluster.pending with
    | none => read rest (← p.takeAll cluster.taken)
    | some option =>
      match rest with
      | .plain value :: rest => read rest (← p.takeAll (cluster.taken ++ [(option, some value)]))
      | _ => throw (.fault (.valueExpected option))

end Progress

/-- Reads all arguments.  Left-over arguments are reported last, so any other fault comes first. -/
def Options.ofArguments (arguments : List String) : Except Exit Options := do
  let classified ← (classify arguments).mapError Exit.fault
  let p ← Progress.read classified {}
  if p.extras.isEmpty then return p.options else throw (.fault (.unrecognized p.extras))

end CommandLine
end ShiftBarrier
