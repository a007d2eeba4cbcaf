import ShiftBarrier.Proofs.Barrier.Steps

/-!
# Guards in a module

What becomes of a module when guards are put behind some of its instructions: every guarded shift is
replaced by the renamed shift and the bit field insert, and nothing else changes.  The instructions
of a module are told apart by their serial numbers, so a list of guards says all of it.

* `guarded`, `guardedBlock`, `guardedFunction` are the instructions, blocks and functions after it.
* `renamedBy` is what an instruction is renamed to; by `perm_guarded` the new instructions are the
  old ones renamed, and the inserted ones.
-/

set_option autoImplicit false

namespace ShiftBarrier
namespace Barrier

/-- The guard of an instruction. -/
def guardOf? (gs : List Guard) (i : Instruction) : Option Guard := gs.find? (·.shift == i)

/-- What stands in the place of an instruction. -/
def guarded (gs : List Guard) (i : Instruction) : List Instruction :=
  match guardOf? gs i with
  | some g => [g.renamed, g.insertion]
  | none => [i]

/-- A block with the guards in their places. -/
def guardedBlock (gs : List Guard) (b : Block) : Block :=
  { b with instructions := b.instructions.flatMap (guarded gs) }

/-- A function with the guards in their places. -/
def guardedFunction (gs : List Guard) (f : Function) : Function :=
  { f with blocks := f.blocks.map (guardedBlock gs) }

variable {gs gs' : List Guard} {i : Instruction} {g : Guard}

theorem guardOf?_eq_none_iff : guardOf? gs i = none ↔ i ∉ gs.map Guard.shift := by
  rw [guardOf?, List.find?_eq_none, List.mem_map]
  constructor
  · rintro h ⟨g, hg, rfl⟩
    exact h g hg (beq_self_eq_true _)
  · intro h g hg heq
    exact h ⟨g, hg, eq_of_beq heq⟩

theorem guardOf?_append_left (h : i ∉ gs'.map Guard.shift) :
    guardOf? (gs ++ gs') i = guardOf? gs i := by
  have hnone := guardOf?_eq_none_iff.2 h
  rw [guardOf?] at hnone ⊢
  rw [List.find?_append, hnone, Option.or_none, guardOf?]

theorem guardOf?_append_right (h : i ∉ gs.map Guard.shift) :
    guardOf? (gs ++ gs') i = guardOf? gs' i := by
  have hnone := guardOf?_eq_none_iff.2 h
  rw [guardOf?] at hnone ⊢
  rw [List.find?_append, hnone, Option.none_or, guardOf?]

theorem mem_of_guardOf? (h : guardOf? gs i = some g) : g ∈ gs ∧ g.shift = i := by
  rw [guardOf?] at h
  exact ⟨List.mem_of_find?_eq_some h,
    eq_of_beq (List.find?_some (p := fun g : Guard => g.shift == i) h)⟩

theorem guardOf?_of_mem (hnodup : (gs.map Guard.shift).Nodup) (hg : g ∈ gs) :
    guardOf? gs g.shift = some g := by
  cases h : guardOf? gs g.shift with
  | none => exact absurd (List.mem_map_of_mem hg) (guardOf?_eq_none_iff.1 h)
  | some g' =>
    obtain ⟨hg', hshift⟩ := mem_of_guardOf? h
    rw [List.inj_on_of_nodup_map hnodup hg' hg hshift]

theorem guarded_of_not_mem (h : i ∉ gs.map Guard.shift) : guarded gs i = [i] := by
  rw [guarded, guardOf?_eq_none_iff.2 h]

theorem guarded_of_guardOf? (h : guardOf? gs i = some g) :
    guarded gs i = [g.renamed, g.insertion] := by
  rw [guarded, h]

/-- Guards only matter to the instructions they are for. -/
theorem guarded_congr (h : guardOf? gs i = guardOf? gs' i) : guarded gs i = guarded gs' i := by
  rw [guarded, guarded, h]

theorem guardedBlock_congr {b : Block}
    (h : ∀ i ∈ b.instructions, guardOf? gs i = guardOf? gs' i) :
    guardedBlock gs b = guardedBlock gs' b := by
  have hmap : b.instructions.flatMap (guarded gs) = b.instructions.flatMap (guarded gs') :=
    List.flatMap_congr fun i hi => guarded_congr (h i hi)
  rw [guardedBlock, guardedBlock, hmap]

theorem guardedFunction_congr {f : Function}
    (h : ∀ i ∈ f.blocks.flatMap Block.instructions, guardOf? gs i = guardOf? gs' i) :
    guardedFunction gs f = guardedFunction gs' f := by
  have hmap : f.blocks.map (guardedBlock gs) = f.blocks.map (guardedBlock gs') :=
    List.map_congr_left fun b hb =>
      guardedBlock_congr fun i hi => h i (List.mem_flatMap.2 ⟨b, hb, hi⟩)
  rw [guardedFunction, guardedFunction, hmap]

theorem guardedBlock_nil (b : Block) : guardedBlock [] b = b := by
  have hflat : b.instructions.flatMap (guarded []) = b.instructions := List.flatMap_singleton' _
  rw [guardedBlock, hflat]

theorem guardedFunction_nil (f : Function) : guardedFunction [] f = f := by
  have hmap : f.blocks.map (guardedBlock []) = f.blocks := by
    rw [List.map_congr_left fun b _ => guardedBlock_nil b, List.map_id']
  rw [guardedFunction, hmap]

/-! ## The same up to order -/

/-- An instruction with the result its guard leaves to it. -/
def renamedBy (gs : List Guard) (i : Instruction) : Instruction :=
  ((guardOf? gs i).map Guard.renamed).getD i

theorem renamedBy_of_not_mem (h : i ∉ gs.map Guard.shift) : renamedBy gs i = i := by
  rw [renamedBy, guardOf?_eq_none_iff.2 h]
  rfl

/-- Only the result of an instruction ever changes. -/
theorem renamedBy_cases (gs : List Guard) (i : Instruction) :
    (i ∉ gs.map Guard.shift ∧ renamedBy gs i = i) ∨
      ∃ g ∈ gs, g.shift = i ∧ renamedBy gs i = { i with result := some g.temporary } := by
  cases h : guardOf? gs i with
  | none =>
    have hi := guardOf?_eq_none_iff.1 h
    exact .inl ⟨hi, renamedBy_of_not_mem hi⟩
  | some g =>
    obtain ⟨hg, rfl⟩ := mem_of_guardOf? h
    exact .inr ⟨g, hg, rfl, by rw [renamedBy, h]; rfl⟩

@[simp] theorem serial_renamedBy (gs : List Guard) (i : Instruction) :
    (renamedBy gs i).serial = i.serial := by
  rcases renamedBy_cases gs i with ⟨-, heq⟩ | ⟨g, -, -, heq⟩ <;> rw [heq]

@[simp] theorem uses_renamedBy (gs : List Guard) (i : Instruction) :
    (renamedBy gs i).uses = i.uses := by
  rcases renamedBy_cases gs i with ⟨-, heq⟩ | ⟨g, -, -, heq⟩
  · rw [heq]
  · rw [heq]
    rfl

/-- **The instructions are the old ones renamed, and the inserted ones.** -/
theorem perm_guarded (gs : List Guard) (is : List Instruction) :
    (is.flatMap (guarded gs)).Perm
      (is.map (renamedBy gs) ++ (is.filterMap (guardOf? gs)).map Guard.insertion) := by
  induction is with
  | nil => exact .nil
  | cons i is ih =>
    rw [List.flatMap_cons, List.map_cons, List.filterMap_cons, guarded, renamedBy]
    cases h : guardOf? gs i with
    | none => exact ih.cons i
    | some g =>
      refine .cons g.renamed ((ih.cons g.insertion).trans ?_)
      exact List.perm_middle.symm

/-- Guards of some of the instructions, in order, are the guards found for them. -/
theorem filterMap_guardOf? {is : List Instruction} (hnodup : is.Nodup)
    (h : (gs.map Guard.shift).Sublist is) : is.filterMap (guardOf? gs) = gs := by
  induction is generalizing gs with
  | nil =>
    rw [List.sublist_nil, List.map_eq_nil_iff] at h
    rw [h]
    rfl
  | cons i is ih =>
    obtain ⟨hi, htail⟩ := List.nodup_cons.1 hnodup
    cases gs with
    | nil => exact List.filterMap_eq_nil_iff.2 fun _ _ => rfl
    | cons g gs =>
      rw [List.map_cons] at h
      cases h with
      | cons _ h =>
        have hnone : guardOf? (g :: gs) i = none :=
          guardOf?_eq_none_iff.2 fun hmem => hi (h.subset hmem)
        rw [List.filterMap_cons, hnone]
        exact ih htail h
      | cons_cons _ h =>
        have hsome : guardOf? (g :: gs) g.shift = some g :=
          List.find?_cons_of_pos (by simp)
        have hrest : is.filterMap (guardOf? (g :: gs)) = is.filterMap (guardOf? gs) := by
          refine List.filterMap_congr fun j hj => ?_
          refine List.find?_cons_of_neg ?_
          rw [beq_iff_eq]
          rintro rfl
          exact hi hj
        rw [List.filterMap_cons, hsome, hrest]
        exact congrArg _ (ih htail h)

end Barrier
end ShiftBarrier
