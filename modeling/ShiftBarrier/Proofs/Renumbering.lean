import Mathlib.Logic.Equiv.Basic
import ShiftBarrier.Proofs.Failure
import ShiftBarrier.Proofs.WellFormed

/-!
# Renumbering

Modules that say the same may number their ids differently.

* `Module.content` is what a module says: the bound and the serial numbers are left out.
* `Module.renumber` gives every id another number and keeps its friendly name.
* `exists_perm` makes a renumbering from the numbers of some ids before and after.
-/

set_option autoImplicit false

namespace ShiftBarrier

/-- Numbers that correspond one to one do so under a permutation. -/
theorem exists_perm (pairs : List (Nat × Nat))
    (h : ∀ p ∈ pairs, ∀ q ∈ pairs, p.1 = q.1 ↔ p.2 = q.2) :
    ∃ ρ : Equiv.Perm Nat, ∀ p ∈ pairs, ρ p.1 = p.2 := by
  induction pairs with
  | nil => exact ⟨Equiv.refl Nat, fun _ hp => absurd hp List.not_mem_nil⟩
  | cons p pairs ih =>
    obtain ⟨ρ, hρ⟩ := ih fun q hq r hr =>
      h q (List.mem_cons_of_mem _ hq) r (List.mem_cons_of_mem _ hr)
    refine ⟨ρ.trans (Equiv.swap (ρ p.1) p.2), fun q hq => ?_⟩
    rw [Equiv.trans_apply]
    by_cases heq : q.1 = p.1
    · rw [heq, Equiv.swap_apply_left]
      exact ((h q hq p List.mem_cons_self).1 heq).symm
    · have hmem : q ∈ pairs := (List.mem_cons.1 hq).resolve_left fun hqp => heq (by rw [hqp])
      rw [Equiv.swap_apply_of_ne_of_ne (fun hne => heq (ρ.injective hne)), hρ q hmem]
      rw [hρ q hmem]
      exact fun hne => heq ((h q hq p List.mem_cons_self).2 hne)

/-! ## What a module says -/

/-- An instruction without its serial number. -/
def Instruction.content (i : Instruction) : Instruction := { i with serial := 0 }

/-- A block without serial numbers. -/
def Block.content (b : Block) : Block :=
  { b with instructions := b.instructions.map Instruction.content }

/-- A function without serial numbers. -/
def Function.content (f : Function) : Function :=
  { f with
    definition := f.definition.content
    params := f.params.map Instruction.content
    blocks := f.blocks.map Block.content }

/-- A module without its bound and without serial numbers. -/
def Module.content (m : Module) : Module :=
  { m with
    preamble := m.preamble.map Instruction.content
    globals := m.globals.map Instruction.content
    functions := m.functions.map Function.content
    bound := 0
    nextSerial := 0 }

/-! ## Other numbers

A renumbering is a permutation, so it can be undone, and no two ids fall together. -/

section Renumber

variable (ρ : Equiv.Perm Nat)

/-- The friendly name stays with the id. -/
def Id.renumber (i : Id) : Id := { i with number := ρ i.number }

/-- Only ids are renumbered. -/
def Operand.renumber : Operand → Operand
  | .id i => .id (i.renumber ρ)
  | operand => operand

/-- An instruction keeps its serial number. -/
def Instruction.renumber (i : Instruction) : Instruction :=
  { i with
    type := i.type.map (Id.renumber ρ)
    result := i.result.map (Id.renumber ρ)
    operands := i.operands.map (Operand.renumber ρ) }

/-- The label is renumbered with the instructions. -/
def Block.renumber (b : Block) : Block :=
  ⟨b.label.renumber ρ, b.instructions.map (Instruction.renumber ρ)⟩

/-- The id a function was added under is renumbered with its definition. -/
def Function.renumber (f : Function) : Function :=
  ⟨f.id.renumber ρ, f.definition.renumber ρ, f.params.map (Instruction.renumber ρ),
    f.blocks.map (Block.renumber ρ)⟩

/-- Every mention of an id is renumbered. -/
def Module.renumber (m : Module) : Module :=
  { m with
    preamble := m.preamble.map (Instruction.renumber ρ)
    globals := m.globals.map (Instruction.renumber ρ)
    functions := m.functions.map (Function.renumber ρ) }

@[simp] theorem Id.name_renumber (i : Id) : (i.renumber ρ).name = i.name := rfl

@[simp] theorem Id.number_renumber (i : Id) : (i.renumber ρ).number = ρ i.number := rfl

theorem Id.same_renumber (i j : Id) : (i.renumber ρ).same (j.renumber ρ) = i.same j := by
  rw [Bool.eq_iff_iff, Id.same_iff, Id.same_iff]
  exact ρ.injective.eq_iff

end Renumber

section Congr

variable {ρ σ : Equiv.Perm Nat}

theorem Operand.id?_renumber (x : Operand) : (x.renumber ρ).id? = x.id?.map (Id.renumber ρ) := by
  cases x <;> rfl

theorem Instruction.mentions_renumber (i : Instruction) :
    (i.renumber ρ).mentions = i.mentions.map (Id.renumber ρ) := by
  have hinputs : (i.renumber ρ).inputs = i.inputs.map (Id.renumber ρ) := by
    rw [inputs, inputs, renumber, List.filterMap_map, List.map_filterMap]
    exact List.filterMap_congr fun x _ => Operand.id?_renumber x
  have htoList : ∀ id : Option Id, (id.map (Id.renumber ρ)).toList
      = id.toList.map (Id.renumber ρ) := by
    intro id
    cases id <;> rfl
  rw [mentions, mentions, uses, uses, hinputs, List.map_append, List.map_append, ← htoList,
    ← htoList]
  rfl

theorem Id.renumber_congr {i : Id} (h : ρ i.number = σ i.number) : i.renumber ρ = i.renumber σ := by
  rw [renumber, renumber, h]

/-- Only the numbers of the ids that are mentioned matter. -/
theorem Instruction.renumber_congr {i : Instruction}
    (h : ∀ id ∈ i.mentions, ρ id.number = σ id.number) : i.renumber ρ = i.renumber σ := by
  have hresult : i.result.map (Id.renumber ρ) = i.result.map (Id.renumber σ) :=
    Option.map_congr fun id hid => Id.renumber_congr (h id (List.mem_append_left _ (by simp [hid])))
  have htype : i.type.map (Id.renumber ρ) = i.type.map (Id.renumber σ) :=
    Option.map_congr fun id hid => Id.renumber_congr
      (h id (List.mem_append_right _ (List.mem_append_left _ (by simp [hid]))))
  have hoperands : i.operands.map (Operand.renumber ρ) = i.operands.map (Operand.renumber σ) := by
    refine List.map_congr_left fun x hx => ?_
    cases x with
    | id id =>
      refine congrArg Operand.id (Id.renumber_congr (h id ?_))
      exact List.mem_append_right _ (List.mem_append_right _ (List.mem_filterMap.2 ⟨_, hx, rfl⟩))
    | _ => rfl
  rw [renumber, renumber, hresult, htype, hoperands]

/-- A function goes by the result of its definition. -/
theorem Module.renumber_congr {m : Module}
    (hids : ∀ f ∈ m.functions, f.definition.result = some f.id)
    (h : ∀ id ∈ m.mentions, ρ id.number = σ id.number) : m.renumber ρ = m.renumber σ := by
  have hinstruction : ∀ i ∈ m.instructions, i.renumber ρ = i.renumber σ := fun i hi =>
    Instruction.renumber_congr fun id hid =>
      h id (List.mem_append_left _ (List.mem_flatMap.2 ⟨i, hi, hid⟩))
  have hmap : ∀ {is : List Instruction}, is ⊆ m.instructions →
      is.map (Instruction.renumber ρ) = is.map (Instruction.renumber σ) := fun his =>
    List.map_congr_left fun i hi => hinstruction i (his hi)
  have hfunctions : m.functions.map (Function.renumber ρ)
      = m.functions.map (Function.renumber σ) := by
    refine List.map_congr_left fun f hf => ?_
    have hf' : f.instructions ⊆ m.instructions := fun i hi =>
      List.mem_append_right _ (List.mem_flatMap.2 ⟨f, hf, hi⟩)
    have hdefinition : f.definition ∈ m.instructions := hf' List.mem_cons_self
    have hid : f.id.renumber ρ = f.id.renumber σ := by
      refine Id.renumber_congr (h f.id (List.mem_append_left _ (List.mem_flatMap.2
        ⟨f.definition, hdefinition, List.mem_append_left _ ?_⟩)))
      simp [hids f hf]
    have hparams : f.params ⊆ f.instructions := fun i hi =>
      List.mem_append_left _ (List.mem_cons_of_mem _ hi)
    have hblocks : f.blocks.map (Block.renumber ρ) = f.blocks.map (Block.renumber σ) := by
      refine List.map_congr_left fun b hb => ?_
      have hlabel : b.label.renumber ρ = b.label.renumber σ := by
        refine Id.renumber_congr (h b.label (List.mem_append_right _ (List.mem_flatMap.2
          ⟨f, hf, ?_⟩)))
        exact List.mem_map_of_mem hb
      have hbody : b.instructions ⊆ f.instructions := fun i hi =>
        List.mem_append_right _ (List.mem_flatMap.2 ⟨b, hb, hi⟩)
      rw [Block.renumber, Block.renumber, hlabel, hmap (List.Subset.trans hbody hf')]
    rw [Function.renumber, Function.renumber, hid, hinstruction _ hdefinition,
      hmap (List.Subset.trans hparams hf'), hblocks]
  rw [renumber, renumber, hfunctions,
    hmap (fun i hi => List.mem_append_left _ (List.mem_append_left _ hi)),
    hmap (fun i hi => List.mem_append_left _ (List.mem_append_right _ hi))]

end Congr

section Text

variable {ρ : Equiv.Perm Nat}

/-- An id that keeps its number, or that has a friendly name, is written as before. -/
theorem Id.text_renumber {i : Id} (h : i.name = none → ρ i.number = i.number) :
    (i.renumber ρ).text = i.text := by
  rw [text, text, name_renumber, number_renumber]
  cases hname : i.name with
  | none => rw [h hname]
  | some name => rfl

theorem Operand.text_renumber {operand : Operand}
    (h : ∀ i, operand.id? = some i → i.name = none → ρ i.number = i.number) :
    (operand.renumber ρ).text = operand.text := by
  cases operand with
  | id i => exact congrArg Except.ok (Id.text_renumber (h i rfl))
  | literal value spelling => rfl
  | enumerant word => rfl
  | string s => rfl

/-- **The listing does not show the numbers of ids with friendly names.** -/
theorem Instruction.text_renumber {i : Instruction}
    (h : ∀ id ∈ i.mentions, id.name = none → ρ id.number = id.number) :
    (i.renumber ρ).text = i.text := by
  have hresult : ∀ r, i.result = some r → (r.renumber ρ).text = r.text := fun r hr =>
    Id.text_renumber (h r (List.mem_append_left _ (by simp [hr])))
  have htype : ∀ t, i.type = some t → (t.renumber ρ).text = t.text := fun t ht =>
    Id.text_renumber (h t (List.mem_append_right _ (List.mem_append_left _ (by simp [ht]))))
  have hoperands : (i.operands.map (Operand.renumber ρ)).mapM Operand.text
      = i.operands.mapM Operand.text := by
    rw [List.mapM_map]
    refine mapM_congr fun operand hoperand => Operand.text_renumber fun id hid => ?_
    refine h id (List.mem_append_right _ (List.mem_append_right _ ?_))
    exact List.mem_filterMap.2 ⟨operand, hoperand, hid⟩
  rw [text, text, renumber]
  dsimp only
  rw [hoperands]
  cases hr : i.result with
  | none => cases ht : i.type with
    | none => rfl
    | some t => simp [htype t ht]
  | some r => cases ht : i.type with
    | none => simp [hresult r hr]
    | some t => simp [hresult r hr, htype t ht]

end Text
end ShiftBarrier
