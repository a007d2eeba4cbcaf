import ShiftBarrier.Binary64.Shortest
import ShiftBarrier.Text.Decimal
import ShiftBarrier.Text.Literal

/-!
# Ids and operands

* `Id` is a result id: a number, 0 being no id at all, with the friendly name it was given.
* `Number` is an immediate integer or floating-point value.
* `Operand` is anything an instruction operates on.

Each comes with its own equality `same`, in which friendly names and spellings take no part, and
with the text it has in an assembly listing.
-/

set_option autoImplicit false

namespace ShiftBarrier

/-- A result id.  The friendly name only shows in texts, and only in place of the number. -/
structure Id where
  number : Nat
  name : Option String := none
  deriving DecidableEq, Repr, Inhabited

namespace Id

/-- The reserved number that is no id. -/
def invalid : Id := ⟨0, none⟩

/-- Is it an id at all? -/
def isValid (i : Id) : Bool := i.number != 0

/-- Ids are the same by number alone. -/
def same (i j : Id) : Bool := i.number == j.number

theorem same_iff {i j : Id} : i.same j = true ↔ i.number = j.number := by
  simp only [same, beq_iff_eq]

theorem same_eq_false_iff {i j : Id} : i.same j = false ↔ i.number ≠ j.number := by
  rw [Bool.eq_false_iff, ne_eq, same_iff]

theorem same_refl (i : Id) : i.same i = true := same_iff.2 rfl

theorem same_comm (i j : Id) : i.same j = j.same i := by
  rw [Bool.eq_iff_iff, same_iff, same_iff, eq_comm]

/-- The friendly name of an id, or its number. -/
def text (i : Id) : String := "%" ++ i.name.getD (toString i.number)

end Id

/-- An immediate value, an integer of any size or a floating-point number. -/
inductive Number
  | int (value : Int)
  | float (value : Binary64)
  deriving DecidableEq, Repr

namespace Number

/-- Exact numerical equality, also between an integer and a floating-point value. -/
def same : Number → Number → Bool
  | .int m, .int n => m == n
  | .int m, .float y => y.equalsInt m
  | .float x, .int n => x.equalsInt n
  | .float x, .float y => x.equal y

/-- The text of a number that was not read from a text. -/
def text : Number → Except Decimal.Fault String
  | .int n => Decimal.ofInt n
  | .float x => .ok x.text

end Number

/-- What an instruction operates on: an id, a number, a word for a choice or a set of flags, a
string. -/
inductive Operand
  | id (i : Id)
  /-- A number, with its spelling if it has one of its own. -/
  | literal (value : Number) (spelling : Option String)
  | enumerant (word : String)
  | string (value : List CodePoint)
  deriving DecidableEq, Repr

namespace Operand

/-- Operands of different kinds are never the same; literals go by value, however they were
spelt. -/
def same : Operand → Operand → Bool
  | .id i, .id j => i.same j
  | .literal m _, .literal n _ => m.same n
  | .enumerant v, .enumerant w => v == w
  | .string s, .string t => s == t
  | _, _ => false

/-- The id, if the operand is one. -/
def id? : Operand → Option Id
  | .id i => some i
  | _ => none

/-- Only the reserved id counts as absent. -/
def isPresent : Operand → Bool
  | .id i => i.isValid
  | _ => true

/-- The text of an operand in a listing. -/
def text : Operand → Except Decimal.Fault String
  | .id i => .ok i.text
  | .literal _ (some spelling) => .ok spelling
  | .literal value none => value.text
  | .enumerant word => .ok word
  | .string value => .ok (String.ofList (Literal.encode value))

end Operand

/-- A word starts with a letter or an underscore; bars join words. -/
def isEnumerant (word : String) : Bool :=
  match word.toList with
  | [] => false
  | c :: cs => (c.isAlpha || c == '_') && cs.all fun c => c.isAlphanum || c == '_' || c == '|'

end ShiftBarrier
