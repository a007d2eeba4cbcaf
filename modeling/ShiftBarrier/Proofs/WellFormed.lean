import Mathlib.Data.List.Nodup
import Mathlib.Data.List.Perm.Basic
import ShiftBarrier.Module

/-!
# Well-formed modules

In a well-formed module every id that is mentioned anywhere is a valid id below the bound, so that
an id handed out next is fresh, and the serial numbers tell the instructions apart.

* `Module.WellFormed` is the property.
* `Module.WellFormed.addInstruction` keeps it when one instruction is added, wherever that is.
* `Module.DefinedOnce` is what the validator asks for on top of that: no id is defined twice.
-/

set_option autoImplicit false

namespace ShiftBarrier

/-- Every id an instruction mentions, its result first. -/
def Instruction.mentions (i : Instruction) : List Id := i.result.toList ++ i.uses

/-- A valid id below a bound. -/
def Id.Below (bound : Nat) (id : Id) : Prop := 0 < id.number ∧ id.number < bound

theorem Id.Below.mono {b b' : Nat} {id : Id} (h : id.Below b) (hb : b ≤ b') : id.Below b' :=
  ⟨h.1, Nat.lt_of_lt_of_le h.2 hb⟩

namespace Module

/-- A module as it is read from a text, and as runs of the pass leave it: all that it mentions is
below its bound, and its instructions are told apart by their serial numbers. -/
structure WellFormed (m : Module) : Prop where
  bound_pos : 0 < m.bound
  /-- Ids of instructions are below the bound. -/
  below : ∀ i ∈ m.instructions, ∀ id ∈ i.mentions, id.Below m.bound
  /-- So are labels. -/
  labels_below : ∀ id ∈ m.labels, id.Below m.bound
  nodup_serials : (m.instructions.map Instruction.serial).Nodup
  serial_lt : ∀ i ∈ m.instructions, i.serial < m.nextSerial

theorem mentions_eq (m : Module) :
    m.mentions = m.instructions.flatMap Instruction.mentions ++ m.labels := rfl

namespace WellFormed

variable {m m' : Module}

theorem mentions_below (h : m.WellFormed) {id : Id} (hid : id ∈ m.mentions) :
    id.Below m.bound := by
  rw [mentions_eq, List.mem_append, List.mem_flatMap] at hid
  rcases hid with ⟨i, hi, hmem⟩ | hlabel
  · exact h.below i hi id hmem
  · exact h.labels_below id hlabel

theorem nodup_instructions (h : m.WellFormed) : m.instructions.Nodup :=
  List.Nodup.of_map _ h.nodup_serials

/-- One more instruction, with the next serial number and ids below the bound. -/
theorem addInstruction (h : m.WellFormed) {i : Instruction}
    (hperm : m'.instructions.Perm (i :: m.instructions)) (hlabels : m'.labels = m.labels)
    (hbound : m.bound ≤ m'.bound) (hserial : i.serial = m.nextSerial)
    (hnext : m'.nextSerial = m.nextSerial + 1) (hi : ∀ id ∈ i.mentions, id.Below m'.bound) :
    m'.WellFormed where
  bound_pos := Nat.lt_of_lt_of_le h.bound_pos hbound
  below j hj := by
    rcases List.mem_cons.1 (hperm.mem_iff.1 hj) with rfl | hj
    · exact hi
    · exact fun id hid => (h.below j hj id hid).mono hbound
  labels_below id hid := (h.labels_below id (hlabels ▸ hid)).mono hbound
  nodup_serials := by
    rw [(hperm.map _).nodup_iff, List.map_cons, List.nodup_cons]
    refine ⟨fun hmem => ?_, h.nodup_serials⟩
    obtain ⟨j, hj, heq⟩ := List.mem_map.1 hmem
    have hlt := h.serial_lt j hj
    omega
  serial_lt j hj := by
    rcases List.mem_cons.1 (hperm.mem_iff.1 hj) with rfl | hj
    · omega
    · have hlt := h.serial_lt j hj
      omega

end WellFormed

theorem instructions_addPreamble (m : Module) (i : Instruction) :
    (m.addPreamble i).instructions.Perm ({ i with serial := m.nextSerial } :: m.instructions) := by
  simp only [addPreamble, adopt, instructions, List.append_assoc, List.singleton_append]
  exact List.perm_middle

theorem instructions_addGlobal (m : Module) (i : Instruction) :
    (m.addGlobal i).instructions.Perm ({ i with serial := m.nextSerial } :: m.instructions) := by
  simp only [addGlobal, adopt, instructions]
  rw [← List.append_assoc m.preamble, List.append_assoc, List.singleton_append]
  exact List.perm_middle

theorem WellFormed.addPreamble {m : Module} (h : m.WellFormed) {i : Instruction}
    (hi : ∀ id ∈ i.mentions, id.Below m.bound) : (m.addPreamble i).WellFormed :=
  h.addInstruction (m.instructions_addPreamble i) rfl (Nat.le_refl _) rfl rfl hi

theorem WellFormed.addGlobal {m : Module} (h : m.WellFormed) {i : Instruction}
    (hi : ∀ id ∈ i.mentions, id.Below m.bound) : (m.addGlobal i).WellFormed :=
  h.addInstruction (m.instructions_addGlobal i) rfl (Nat.le_refl _) rfl rfl hi

/-- No id is defined twice, be it as a result or as a label. -/
def DefinedOnce (m : Module) : Prop :=
  ((m.instructions.filterMap Instruction.result ++ m.labels).map Id.number).Nodup

theorem DefinedOnce.nodup_results {m : Module} (h : m.DefinedOnce) :
    ((m.instructions.filterMap Instruction.result).map Id.number).Nodup :=
  h.sublist ((List.sublist_append_left _ _).map _)

theorem DefinedOnce.nodup_globals {m : Module} (h : m.DefinedOnce) :
    ((m.globals.filterMap Instruction.result).map Id.number).Nodup := by
  refine h.nodup_results.sublist (List.Sublist.map _ (List.Sublist.filterMap _ ?_))
  exact (List.sublist_append_right _ _).trans (List.sublist_append_left _ _)

/-- No instruction of a function has the result of a global. -/
theorem DefinedOnce.same_eq_false {m : Module} (h : m.DefinedOnce) {i : Instruction}
    (hi : i ∈ m.functions.flatMap Function.instructions) {result id : Id}
    (hresult : i.result = some result) (hid : id ∈ m.globals.filterMap Instruction.result) :
    id.same result = false := by
  have hnodup := h.nodup_results
  rw [instructions, List.filterMap_append, List.map_append, List.nodup_append] at hnodup
  rw [Id.same_eq_false_iff]
  refine hnodup.2.2 _ (List.mem_map_of_mem ?_) _ (List.mem_map_of_mem ?_)
  · rw [List.filterMap_append]
    exact List.mem_append_right _ hid
  · exact List.mem_filterMap.2 ⟨i, hi, hresult⟩

/-- A module with one more function. -/
def withFunction (m : Module) (f : Function) : Module :=
  { m with functions := m.functions ++ [f] }

theorem instructions_withFunction (m : Module) (f : Function) :
    (m.withFunction f).instructions = m.instructions ++ f.instructions := by
  simp only [withFunction, instructions, List.flatMap_append, List.flatMap_singleton,
    List.append_assoc]

theorem labels_withFunction (m : Module) (f : Function) :
    (m.withFunction f).labels = m.labels ++ f.labels := by
  simp only [withFunction, labels, List.flatMap_append, List.flatMap_singleton]

/-- After ids have been reserved, they are below the bound. -/
theorem bound_foldl_reserve (m : Module) (ids : List Id) :
    m.bound ≤ (ids.foldl reserve m).bound ∧
      ∀ id ∈ ids, id.number < (ids.foldl reserve m).bound := by
  induction ids generalizing m with
  | nil => exact ⟨Nat.le_refl _, fun id hid => absurd hid List.not_mem_nil⟩
  | cons id ids ih =>
    obtain ⟨hle, hall⟩ := ih (m.reserve id)
    have hreserve : (m.reserve id).bound = max m.bound (id.number + 1) := rfl
    refine ⟨by rw [List.foldl_cons]; omega, fun id' hid' => ?_⟩
    rcases List.mem_cons.1 hid' with rfl | hid'
    · rw [List.foldl_cons]
      omega
    · exact hall id' hid'

end Module
end ShiftBarrier
