import ShiftBarrier.Error

/-!
# Log records

* `LogLevel.ofName` reads a level name without regard to case; `LogLevel.severity` orders levels.
* `LogRecord.text` is the line a record is written as.
-/

set_option autoImplicit false

namespace ShiftBarrier

/-- The levels of a record, `notset` being below all others. -/
inductive LogLevel
  | notset | debug | info | warning | error | critical
  deriving DecidableEq, Repr

namespace LogLevel

/-- The number a level is compared by. -/
def severity : LogLevel → Nat
  | .notset => 0
  | .debug => 10
  | .info => 20
  | .warning => 30
  | .error => 40
  | .critical => 50

/-- The name a level is shown by. -/
def name : LogLevel → String
  | .notset => "NOTSET"
  | .debug => "DEBUG"
  | .info => "INFO"
  | .warning => "WARNING"
  | .error => "ERROR"
  | .critical => "CRITICAL"

/-- The names a level may be given by.  Two levels have a second name. -/
def names : List (String × LogLevel) :=
  [("NOTSET", .notset), ("DEBUG", .debug), ("INFO", .info), ("WARN", .warning),
    ("WARNING", .warning), ("ERROR", .error), ("CRITICAL", .critical), ("FATAL", .critical)]

/-- Upper case as far as level names go: the dotless `ı` and the long `ſ` have ASCII capitals. -/
def upper (c : Char) : Char :=
  if c == 'ı' then 'I' else if c == 'ſ' then 'S' else c.toUpper

/-- The level of a name. -/
def ofName (name : String) : Except Error LogLevel :=
  match names.lookup (name.map upper) with
  | some level => .ok level
  | none => .error (.unknownLogLevel name)

end LogLevel

/-- One line of a log. -/
structure LogRecord where
  level : LogLevel
  message : String
  deriving DecidableEq, Repr

/-- Records, the oldest first. -/
abbrev Log := List LogRecord

namespace LogRecord

/-- The line as it is written. -/
def text (r : LogRecord) : String := s!"{r.level.name}: {r.message}"

/-- What is logged when ids are used up. -/
def idOverflow : LogRecord := ⟨.error, "ID overflow. Try running compact-ids."⟩

end LogRecord
end ShiftBarrier
