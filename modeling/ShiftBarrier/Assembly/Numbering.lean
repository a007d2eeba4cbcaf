import ShiftBarrier.Assembly.Source
import ShiftBarrier.Settings

/-!
# Numbering of ids

A name made of digits is a number and keeps it.  The other names take the lowest numbers that no
such name takes, in the order of their first appearance.

* `Numbering.ofInstructions` numbers the names of a text.
* `Numbering.id` looks a name up, `Numbering.ids` lists what was assigned.
-/

set_option autoImplicit false

namespace ShiftBarrier

/-- The id of every name. -/
structure Numbering where
  entries : List (String × Id) := []
  deriving DecidableEq, Repr

namespace Numbering

/-- The ids that were assigned, those of names made of digits first. -/
def ids (n : Numbering) : List Id := n.entries.map (·.2)

/-- The id of a name. -/
def id (n : Numbering) (name : String) : Id := (n.entries.lookup name).getD Id.invalid

/-- A name that is made of digits, and of at least one. -/
def isNumeric (name : String) : Bool := !name.toList.isEmpty && name.toList.all Char.isDigit

/-- The id of a name made of digits. -/
def numericId (name : String) (line : Nat) : Except Error Id := do
  let number ← Decimal.toNat name.toList
  if 0 < number ∧ number ≤ Settings.maxIdWord then return ⟨number, none⟩
  else throw (.syntaxFault (.idOutOfRange name line))

/-- The least number from `n` on that is not among the `count` taken ones. -/
def nextFree : (count : Nat) → (taken : List Nat) → Nat → Nat
  | 0, _, n => n
  | count + 1, taken, n => if n ∈ taken then nextFree count (taken.erase n) (n + 1) else n

theorem le_nextFree (count : Nat) (taken : List Nat) (n : Nat) : n ≤ nextFree count taken n := by
  induction count generalizing taken n with
  | zero => exact Nat.le_refl n
  | succ count ih =>
    rw [nextFree]
    split
    · exact Nat.le_of_succ_le (ih _ _)
    · exact Nat.le_refl n

theorem nextFree_not_mem {count : Nat} {taken : List Nat} (h : taken.length ≤ count) (n : Nat) :
    nextFree count taken n ∉ taken := by
  induction count generalizing taken n with
  | zero =>
    obtain rfl := List.length_eq_zero_iff.1 (Nat.le_zero.1 h)
    simp
  | succ count ih =>
    rw [nextFree]
    split
    · next hmem =>
      have hlength := List.length_erase_of_mem hmem
      have hne : n ≠ nextFree count (taken.erase n) (n + 1) :=
        Nat.ne_of_lt (le_nextFree count _ (n + 1))
      intro hin
      exact ih (by omega) _ ((List.mem_erase_of_ne hne.symm).2 hin)
    · assumption

/-- Gives the names free numbers in ascending order, from `n` on. -/
def assign (taken : List Nat) : List String → Nat → List (String × Id)
  | [], _ => []
  | name :: names, n =>
    let number := nextFree taken.length taken n
    (name, ⟨number, some name⟩) :: assign taken names (number + 1)

/-- Numbers all names of a text.  The numbers that names spell out are read before any other is
handed out, wherever they stand. -/
def ofInstructions (is : List SourceInstruction) : Except Error Numbering := do
  let references := is.flatMap fun i => i.references.map (·, i.line)
  let (numeric, others) := references.partition fun (name, _) => isNumeric name
  let numbers ← numeric.mapM fun (name, line) => return (name, ← numericId name line)
  let taken := numbers.map fun (_, id) => id.number
  return ⟨numbers ++ assign taken (others.map (·.1)).eraseDups 1⟩

end Numbering
end ShiftBarrier
