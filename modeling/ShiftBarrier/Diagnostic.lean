/-!
# Diagnostics

What a fault in the input is reported as: a message, the place in the assembly text it belongs to,
and a hint.

* `Diagnostic.body` is the message with its hint, `Diagnostic.render` puts the place in front.
-/

set_option autoImplicit false

namespace ShiftBarrier

/-- A report about the input. -/
structure Diagnostic where
  message : String := "Error Message not found."
  line : Option Int := none
  column : Option Int := none
  hint : Option String := none
  deriving DecidableEq, Repr

namespace Diagnostic

/-- An empty hint is left out. -/
def body (d : Diagnostic) : String :=
  match d.hint with
  | some hint => if hint.isEmpty then d.message else s!"{d.message}\n\n  (hint: {hint})"
  | none => d.message

/-- The report as it is shown.  A column is shown only together with a line. -/
def render (d : Diagnostic) : String :=
  match d.line with
  | some line =>
    let column := (d.column.map toString).getD ""
    s!"line {line}:{column} {d.body}"
  | none => d.body

end Diagnostic
end ShiftBarrier
