import ShiftBarrier.Error

/-!
# Sets in order of insertion

* `OrderedSet` is a list without repetitions; `OrderedSet.insert` adds at its end.
-/

set_option autoImplicit false

namespace ShiftBarrier

/-- A set that lists its members in the order in which they were inserted. -/
structure OrderedSet (α : Type) where
  toList : List α
  nodup : toList.Nodup

namespace OrderedSet

variable {α : Type}

/-- The set without members. -/
def empty : OrderedSet α := ⟨[], List.nodup_nil⟩

instance : Inhabited (OrderedSet α) := ⟨empty⟩

instance [DecidableEq α] : Membership α (OrderedSet α) := ⟨fun s a => a ∈ s.toList⟩

instance [DecidableEq α] (a : α) (s : OrderedSet α) : Decidable (a ∈ s) :=
  inferInstanceAs (Decidable (a ∈ s.toList))

/-- The number of members. -/
def size (s : OrderedSet α) : Nat := s.toList.length

/-- Adds a member, unless it is one already. -/
def insert [DecidableEq α] (s : OrderedSet α) (a : α) : OrderedSet α :=
  if h : a ∈ s.toList then s
  else
    ⟨s.toList ++ [a], List.nodup_append.2 ⟨s.nodup, by simp, by
      intro b hb c hc heq
      rw [List.mem_singleton] at hc
      exact h (hc ▸ heq ▸ hb)⟩⟩

/-- The members of a list, each at its first place. -/
def ofList [DecidableEq α] (items : List α) : OrderedSet α := items.foldl insert empty

/-- Members have no values, so there is nothing to look up. -/
def lookup (_ : OrderedSet α) (_ : α) : Except Error α := .error .setLookup

/-- The members between braces. -/
def text [ToString α] (s : OrderedSet α) : String :=
  "\x7b" ++ String.intercalate ", " (s.toList.map toString) ++ "\x7d"

/-! ## The members after an insertion -/

variable [DecidableEq α]

theorem mem_insert {s : OrderedSet α} {a b : α} :
    b ∈ (s.insert a).toList ↔ b ∈ s.toList ∨ b = a := by
  rw [insert]
  split
  · next h => exact ⟨Or.inl, fun hb => hb.elim id fun he => he ▸ h⟩
  · simp

theorem toList_insert_of_not_mem {s : OrderedSet α} {a : α} (h : a ∉ s.toList) :
    (s.insert a).toList = s.toList ++ [a] := by
  rw [insert, dif_neg h]

end OrderedSet
end ShiftBarrier
