import ShiftBarrier.Proofs.Asking
import ShiftBarrier.Proofs.Barrier.Allocation
import ShiftBarrier.Proofs.Evaluation

/-!
# Zeros on demand

The zero of an integer type is a constant, that of an integer vector type a composite with one such
constant in all of its lanes.  Whatever was asked of a session before, it finds them or declares
them, if there are ids enough.

* `Registry.Proper` is what holds of the tables if only proper types and constants are declared.
* `Registry.Takes` says that so many declarations were missing, and what came of it.
* `Registry.zeroId_takes` counts what is missing for the zero of a type.
* `Registry.ZeroAt` says that an id stands for the zero of a type, and `ZeroAt.operandValue` that it
  has that value.
* `Session.zeroId_spec` is the theorem.
-/

set_option autoImplicit false

namespace ShiftBarrier

open Barrier (hasZero needs missing)

/-! ## Proper tables

What the tables list is sound: vectors have lanes, integers fit their widths, composites are made of
declared constants.  So the value of a zero can be computed from the tables alone. -/

/-- Vectors have two lanes or more, as `Ty.makeVector` asks for.  Any type may be that of lanes. -/
def Ty.Sound : Ty → Prop
  | .vector element n => element.Sound ∧ 2 ≤ n
  | _ => True

/-- What is declared are sound types, zeros, and composites of declared constants. -/
def Policy.sound : Policy where
  type := Ty.Sound
  constant := ConstantTable.Formed
  element h := h.1
  zero _ w _ := .integer (Int.le_refl 0) (Int.pow_pos (by decide) : (0 : Int) < 2 ^ w)
  composite _ _ h := .composite h

theorem TypeTable.Formed.sound {t : TypeTable} {type : Ty} (h : t.Formed type) : type.Sound := by
  cases h with
  | @vector element n key hscalar hn hmem =>
    refine ⟨?_, hn⟩
    cases element with
    | vector => cases hscalar
    | _ => trivial
  | _ => trivial

/-- Constants that are the same as a zero of an integer type are that zero. -/
theorem ConstantTable.Formed.eq_zero {t : ConstantTable} {c : Constant} {w : Nat} {s : Bool}
    (h : t.Formed c) (hsame : c.same (.zero w s) = true) : c = .zero w s := by
  cases h with
  | integer h0 hn =>
    rw [Constant.zero, Constant.same, Bool.and_eq_true, Ty.same_int_iff] at hsame
    rw [Constant.zero, hsame.1, eq_of_beq hsame.2]
  | scalar htype =>
    rw [Constant.zero, Constant.same, Bool.and_eq_true, Ty.same_int_iff] at hsame
    exact absurd hsame.1 (htype w s)
  | _ => cases hsame

namespace Registry

/-- The tables are in order, and what they list is proper. -/
structure Proper (r : Registry) : Prop extends Indexed r where
  sound : ∀ entry ∈ r.types.entries, entry.2.Sound
  formed : ∀ entry ∈ r.constants.entries, r.constants.Formed entry.2

namespace Proper

variable {r r' : Registry} {c : Constant} {w n : Nat} {s : Bool} {z : Id}

theorem adds (h : Proper r) (hadds : Adds .sound r r') : Proper r' := by
  have hindexed := h.toIndexed.adds hadds
  cases hadds with
  | log log => exact ⟨hindexed, h.sound, h.formed⟩
  | type hi hself helement hp =>
    refine ⟨hindexed, List.forall_mem_append.2 ⟨h.sound, fun _ hentry => ?_⟩, h.formed⟩
    rw [List.mem_singleton.1 hentry]
    exact hp
  | constant hi hself hp =>
    refine ⟨hindexed, h.sound, List.forall_mem_append.2 ⟨fun _ hentry => ?_, ?_⟩⟩
    · exact (h.formed _ hentry).add _ _
    · exact List.forall_mem_singleton.2 (hp.add _ _)

theorem builds (h : Proper r) (hbuilds : Builds .sound r r') : Proper r' := by
  induction hbuilds with
  | refl => exact h
  | tail _ hadds ih => exact ih.adds hadds

/-- The tables of a module that is read are proper. -/
theorem start {m : Module} {log : Log} (h : Indexed (Registry.start m log)) :
    Proper (Registry.start m log) where
  toIndexed := h
  sound entry hentry := ((TypeTable.readFrom_analyze m).formed entry hentry).sound
  formed := (ConstantTable.readFrom_analyze m.declaredTypes m).formed

/-- The id of a zero stands for that very constant. -/
theorem constant?_zero (h : Proper r) (hz : r.constants.id? (.zero w s) = some z) :
    r.constants.constant? z = some (.zero w s) := by
  obtain ⟨found, hsame, hmem⟩ := ConstantTable.mem_of_id? hz
  rw [ConstantTable.constant?_of_mem h.constants_once hmem]
  exact congrArg some ((h.formed _ hmem).eq_zero hsame)

/-- The id of a vector of zeros stands for a vector with that zero in all of its lanes. -/
theorem constant?_zeros (h : Proper r) {lane : Id}
    (hz : r.constants.id? (zeros w s n lane) = some z) :
    ∃ ids, r.constants.constant? z = some (.composite (.vector (.int w s) n) ids) ∧
      ids.length = n ∧ ∀ id ∈ ids, id.same lane = true := by
  obtain ⟨found, hsame, hmem⟩ := ConstantTable.mem_of_id? hz
  cases found with
  | composite type ids =>
    rw [zeros, Constant.same, Bool.and_eq_true, Ty.same_vector_int_iff] at hsame
    obtain ⟨rfl, hids⟩ := hsame
    exact ⟨ids, ConstantTable.constant?_of_mem h.constants_once hmem, isEqv_replicate_iff.1 hids⟩
  | _ => cases hsame

/-- A declared vector type has two lanes or more. -/
theorem two_le (h : Proper r) {element : Ty} {id : Id}
    (htype : r.types.type? id = some (.vector element n)) : 2 ≤ n := by
  obtain ⟨key, -, hmem⟩ := TypeTable.mem_of_type? htype
  exact (h.sound _ hmem).2

/-- No vector is made of an id that was not handed out yet. -/
theorem id?_fresh (h : Proper r) (type : Ty) (hn : 0 < n) :
    r.constants.id? (.composite type (List.replicate n ⟨r.target.bound, none⟩)) = none := by
  rw [ConstantTable.id?, Option.map_eq_none_iff, List.find?_eq_none]
  rintro ⟨key, found⟩ hentry hsame
  cases found with
  | composite type' ids =>
    rw [Constant.same, Bool.and_eq_true, isEqv_replicate_iff] at hsame
    obtain ⟨-, hlength, hids⟩ := hsame
    obtain ⟨id, hid⟩ := List.exists_mem_of_length_pos (hlength ▸ hn)
    cases h.formed _ hentry with
    | composite hdeclared =>
      obtain ⟨entry, hmem, hkey⟩ := ConstantTable.isDeclared_iff.1 (hdeclared id hid)
      have hbelow := h.anchored.constants entry hmem
      rw [Id.Below, Id.same_iff.1 hkey, Id.same_iff.1 (hids id hid)] at hbelow
      exact Nat.lt_irrefl _ hbelow.2
  | _ => cases hsame

end Proper

/-! ## The zeros of types -/

/-- An id stands for the zero of a type. -/
inductive ZeroAt (r : Registry) : Ty → Id → Prop
  | scalar {w : Nat} {s : Bool} {z : Id} (h : r.constants.constant? z = some (.zero w s)) :
      ZeroAt r (.int w s) z
  /-- All lanes are one and the same zero. -/
  | vector {w n : Nat} {s : Bool} {z lane : Id} {ids : List Id}
      (h : r.constants.constant? z = some (.composite (.vector (.int w s) n) ids))
      (hlength : ids.length = n) (hids : ∀ id ∈ ids, id.same lane = true)
      (hlane : r.constants.constant? lane = some (.zero w s)) : ZeroAt r (.vector (.int w s) n) z

namespace ZeroAt

variable {r : Registry} {type : Ty} {c : Constant} {z : Id}

theorem of_zero? (h : Proper r) (hzero : Query.zero? r type = some c)
    (hz : r.constants.id? c = some z) : ZeroAt r type z := by
  obtain ⟨w, s, rfl, rfl⟩ | ⟨w, s, n, lane, rfl, -, -, hlane, rfl⟩ :=
    Query.zero?_eq_some_iff.1 hzero
  · exact .scalar (h.constant?_zero hz)
  · obtain ⟨ids, hids, hlength, hsame⟩ := h.constant?_zeros hz
    exact .vector hids hlength hsame (h.constant?_zero hlane)

/-- It is a constant of that type. -/
theorem constant? (h : ZeroAt r type z) :
    ∃ c, r.constants.constant? z = some c ∧ c.type = type := by
  cases h with
  | scalar h => exact ⟨_, h, rfl⟩
  | vector h => exact ⟨_, h, rfl⟩

/-- **It has the value zero** where it has no other value. -/
theorem operandValue (h : ZeroAt r type z) {env : Environment} (henv : env.value? z = none) :
    Evaluator.operandValue ⟨r.types, some r.constants⟩ env (.id z)
      = .ok (Evaluator.zeroOf type) := by
  cases h with
  | scalar h =>
    rw [Evaluator.operandValue_of_constant? henv h]
    exact Evaluator.constantValue_integer
  | @vector w n s z lane ids h hlength hids hlane =>
    have hlanes : ∀ id ∈ ids, r.constants.constant? id = some (.scalar (.int w s) (.int 0)) := by
      intro id hid
      rw [ConstantTable.constant?_congr (hids id hid)]
      exact hlane
    rw [Evaluator.operandValue_of_constant? henv h, Evaluator.zeroOf, ← hlength]
    exact Evaluator.constantValue_zeros hlanes

end ZeroAt

/-! ## What is missing

The ids that a zero takes are counted before it is asked for.  That many are taken if there are as
many left, and all that are left otherwise. -/

/-- How many ids may still be handed out. -/
def room (r : Registry) : Nat := r.target.maxIdBound - r.target.bound

/-- How many declarations are missing for the zero of a type. -/
def shortage (r : Registry) (type : Option Ty) : Nat :=
  (missing r.constants (type.elim [] needs)).card

/-- A declaration that the tables have, either way. -/
def Registers (r : Registry) (i : Instruction) : Prop :=
  ∃ (e : Entity) (id : Id), e.isOfKind i = true ∧ i.result = some id ∧ e.id? r = some id ∧
    e.hasId r id = true

/-- Nothing but declarations is added to a module, and the tables have them all. -/
def Gains (r : Registry) (count : Nat) (r' : Registry) : Prop :=
  ∃ new : List Instruction, new.length = count ∧
    r'.target = { r.target with
      globals := r.target.globals ++ new
      bound := r.target.bound + new.length
      nextSerial := r.target.nextSerial + new.length } ∧
    ∀ i ∈ new, r'.Registers i

/-- What comes of asking for something for which so many declarations are missing: as many of them
are made as there are ids for, and if that is all of them, an id is given. -/
structure Takes (r : Registry) (wanted : Nat) (id : Id) (r' : Registry) : Prop where
  gains : Gains r (min wanted r.room) r'
  valid_iff : id.isValid = true ↔ wanted ≤ r.room

/-- Nothing is missing for other types, as they have no zeros. -/
theorem shortage_of_not_isIntegral (r : Registry) {type : Option Ty}
    (h : ¬ type.any Ty.isIntegral = true) : r.shortage type = 0 := by
  have hneeds : type.elim [] needs = [] := by
    cases type with
    | none => rfl
    | some t =>
      cases t with
      | int => exact absurd rfl h
      | vector element n =>
        cases element with
        | int => exact absurd rfl h
        | _ => rfl
      | _ => rfl
  rw [shortage, hneeds, Barrier.missing_nil, Finset.card_empty]

section Takes

variable {r r' r₁ : Registry} {a b : Nat} {c : Constant} {id id' z : Id} {w n : Nat} {s : Bool}

theorem Registers.mono (hextends : Extends r r') (h : Indexed r') {i : Instruction}
    (hi : r.Registers i) : r'.Registers i := by
  obtain ⟨e, id, hkind, hresult, hid, -⟩ := hi
  have hid' := e.id?_extends hextends hid
  exact ⟨e, id, hkind, hresult, hid', e.hasId_of_id? h hid'⟩

theorem Gains.nothing (log : Log) : Gains r 0 { r with log } :=
  ⟨[], rfl, by simp, List.forall_mem_nil _⟩

theorem Gains.room_eq (h : Gains r a r') : r'.room = r.room - a := by
  obtain ⟨new, rfl, htarget, -⟩ := h
  rw [room, htarget, room, Nat.sub_sub]
  rfl

theorem Gains.trans (h : Gains r a r₁) (h' : Gains r₁ b r') (hextends : Extends r₁ r')
    (hindexed : Indexed r') : Gains r (a + b) r' := by
  obtain ⟨new, rfl, htarget, hnew⟩ := h
  obtain ⟨new', rfl, htarget', hnew'⟩ := h'
  refine ⟨new ++ new', List.length_append, ?_, List.forall_mem_append.2 ⟨fun i hi => ?_, hnew'⟩⟩
  · simp [htarget', htarget, Nat.add_assoc]
  · exact (hnew i hi).mono hextends hindexed

/-- What is there need not be declared. -/
theorem Takes.found (hvalid : id.isValid = true) : Takes r 0 id r where
  gains := by
    rw [Nat.zero_min]
    exact .nothing r.log
  valid_iff := iff_of_true hvalid (Nat.zero_le _)

/-- One thing after the other. -/
theorem Takes.trans (h : Takes r a id r₁) (hvalid : id.isValid = true) (h' : Takes r₁ b id' r')
    (hextends : Extends r₁ r') (hindexed : Indexed r') : Takes r (a + b) id' r' := by
  have hle := h.valid_iff.1 hvalid
  have hroom := h.gains.room_eq
  rw [Nat.min_eq_left hle] at hroom
  have hcount : min a r.room + min b r₁.room = min (a + b) r.room := by omega
  refine ⟨hcount ▸ h.gains.trans h'.gains hextends hindexed, h'.valid_iff.trans ?_⟩
  omega

/-- If the first thing cannot be had, the second is not asked for. -/
theorem Takes.stop (h : Takes r a id r') (hinvalid : ¬ id.isValid = true) (b : Nat) :
    Takes r (a + b) Id.invalid r' := by
  have hlt := mt h.valid_iff.2 hinvalid
  have hcount : min a r.room = min (a + b) r.room := by omega
  exact ⟨hcount ▸ h.gains, iff_of_false Id.absurd_invalid (by omega)⟩

/-- **A constant of a declared type** is found, or one declaration is missing for it. -/
theorem constantId_takes (h : Indexed r) (hself : c.same c = true)
    (htype : (r.types.id? c.type).isSome = true) (hrun : constantId c r = (id, r')) :
    Takes r (if (r.constants.id? c).isSome then 0 else 1) id r' := by
  obtain ⟨typeId, htypeId⟩ := Option.isSome_iff_exists.1 htype
  obtain ⟨hbuilds, hfound⟩ := constantId_obtains (p := .anything) hself (.inr htype) trivial hrun
  have hindexed := h.builds hbuilds
  rcases Barrier.constantId_cases htypeId hrun with ⟨hid, rfl⟩ | ⟨hmissing, hlt, rfl, rfl⟩ |
    ⟨hmissing, rfl, ⟨log, rfl⟩, hfull⟩
  · rw [hid, Option.isSome_some, if_pos rfl]
    exact .found (h.isValid_of_constant hid)
  · have hvalid : (⟨r.target.bound, .none⟩ : Id).isValid = true :=
      Indexed.isValid_of_below ⟨h.bound_pos, Nat.lt_succ_self _⟩
    have hroom : 1 ≤ r.room := Nat.sub_pos_of_lt hlt
    rw [hmissing, Option.isSome_none, if_neg Bool.false_ne_true]
    refine ⟨?_, iff_of_true hvalid hroom⟩
    rw [Nat.min_eq_left hroom]
    refine ⟨[_], rfl, rfl, List.forall_mem_singleton.2 ⟨.constant c, _, ?_, rfl, hfound hvalid, ?_⟩⟩
    · exact List.contains_iff_mem.2 (opcode_mem_constants c)
    · exact Entity.hasId_of_id? (e := .constant c) hindexed (hfound hvalid)
  · have hroom : r.room = 0 := Nat.sub_eq_zero_of_le (hfull (h.isValid_of_type htypeId) h.bound_pos)
    rw [hmissing, Option.isSome_none, if_neg Bool.false_ne_true]
    refine ⟨?_, iff_of_false Id.absurd_invalid (by omega)⟩
    rw [hroom, Nat.min_zero]
    exact .nothing log

theorem zeroScalarId_takes (h : Indexed r) (htype : (r.types.id? (.int w s)).isSome = true)
    (hrun : zeroScalarId w s r = (z, r')) :
    Takes r (missing r.constants [.int w s]).card z r' := by
  rw [Barrier.card_missing_singleton, Barrier.hasZero_int]
  exact constantId_takes h (Barrier.zero_same_iff.2 ⟨rfl, rfl⟩) htype hrun

/-- A new scalar zero is in no vector. -/
theorem hasZero_vector_of_zeroScalarId (h : Proper r) (hn : 0 < n)
    (htype : (r.types.id? (.int w s)).isSome = true) (hrun : zeroScalarId w s r = (z, r')) :
    hasZero r'.constants (.vector (.int w s) n) = hasZero r.constants (.vector (.int w s) n) := by
  obtain ⟨typeId, htypeId⟩ := Option.isSome_iff_exists.1 htype
  rcases Barrier.constantId_cases htypeId hrun with ⟨-, rfl⟩ | ⟨hmissing, -, rfl, rfl⟩ |
    ⟨-, -, ⟨log, rfl⟩, -⟩
  · rfl
  · have hz : (r.constants.add ⟨r.target.bound, .none⟩ (.zero w s)).id? (.zero w s)
        = some ⟨r.target.bound, .none⟩ := by
      rw [ConstantTable.id?_add, hmissing, Option.none_or,
        if_pos (Barrier.zero_same_iff.2 ⟨rfl, rfl⟩)]
    rw [Barrier.hasZero_vector_of_none hmissing, Barrier.declare, Barrier.nextDeclaration,
      Barrier.hasZero_vector hz, ConstantTable.id?_add, h.id?_fresh _ hn]
    rfl
  · rfl

/-- **A vector of zeros** may want for its lanes as well. -/
theorem zeroVectorId_takes (h : Proper r) (hn : 2 ≤ n)
    (hscalar : (r.types.id? (.int w s)).isSome = true)
    (hvector : (r.types.id? (.vector (.int w s) n)).isSome = true)
    (hrun : zeroVectorId w s n r = (id, r')) :
    Takes r (missing r.constants [.int w s, .vector (.int w s) n]).card id r' := by
  rcases hzero : zeroScalarId w s r with ⟨z, r₁⟩
  have htakes := zeroScalarId_takes h.toIndexed hscalar hzero
  obtain ⟨hbuilds, hz⟩ := zeroScalarId_obtains (p := .sound) (.inr hscalar) hzero
  have hproper := h.builds hbuilds
  have hcard : (missing r.constants [.int w s, .vector (.int w s) n]).card
      = (missing r.constants [.int w s]).card
        + (missing r₁.constants [.vector (.int w s) n]).card := by
    refine Barrier.card_missing_append (a := [.int w s]) fun type htype => ?_
    rw [List.mem_singleton.1 htype, hasZero_vector_of_zeroScalarId h (by omega) hscalar hzero]
    simp
  rw [hcard]
  by_cases hvalid : z.isValid = true
  · have hvector' := (Extends.builds hbuilds).isSome_types_id? hvector
    have hself := zeros_same_self w s n z
    rw [zeroVectorId_eq hproper.toIndexed hn hvector' hzero (hz hvalid)] at hrun
    obtain ⟨hbuilds', -⟩ := constantId_obtains (p := .anything) hself (.inr hvector') trivial hrun
    have hvectorTakes := constantId_takes hproper.toIndexed hself hvector' hrun
    rw [zeros, ← Barrier.hasZero_vector (hz hvalid), ← Barrier.card_missing_singleton]
      at hvectorTakes
    exact htakes.trans hvalid hvectorTakes (Extends.builds hbuilds')
      (hproper.toIndexed.builds hbuilds')
  · rw [zeroVectorId_of_not_isValid hzero hvalid] at hrun
    cases hrun
    exact htakes.stop hvalid _

/-- **The zero of a type** takes as many declarations as are missing. -/
theorem zeroId_takes (h : Proper r) {typeId : Id} {type : Ty}
    (htype : r.types.type? typeId = some type) (hintegral : type.isIntegral = true)
    (hrun : zeroId typeId r = (id, r')) : Takes r (r.shortage (some type)) id r' := by
  have hdeclared := h.isSome_id?_of_type? htype
  rw [zeroId, htype] at hrun
  rcases Ty.cases_of_isIntegral hintegral with ⟨w, s, rfl⟩ | ⟨w, s, n, rfl⟩
  · exact zeroScalarId_takes h.toIndexed hdeclared hrun
  · exact zeroVectorId_takes h (h.two_le htype) (h.isSome_id?_of_element htype) hdeclared hrun

/-- Types that are the same have the same zeros. -/
theorem zeroId_congr {typeId typeId' : Id} {type type' : Ty}
    (htype : r.types.type? typeId = some type) (htype' : r.types.type? typeId' = some type')
    (hsame : type.same type' = true) : zeroId typeId r = zeroId typeId' r := by
  by_cases hintegral : type.isIntegral = true
  · have hself := (Ty.same_iff_of_isIntegral hintegral).2 rfl
    rw [Ty.same_congr hsame] at hself
    obtain rfl := (Ty.same_iff_of_isIntegral hintegral).1 hself
    rw [zeroId, zeroId, htype, htype']
  · have hintegral' : ¬ type'.isIntegral = true := by
      intro hintegral'
      rw [(Ty.same_iff_of_isIntegral hintegral').1 hsame] at hintegral
      exact hintegral hintegral'
    rw [zeroId_of_not_isIntegral, zeroId_of_not_isIntegral]
    · rwa [htype', Option.any_some]
    · rwa [htype, Option.any_some]

end Takes
end Registry

/-! ## Sessions -/

namespace Query

variable {r r' : Registry} {type type' : Option Id} {z : Id}

/-- **Whether there is a zero**, and what is declared. -/
theorem eval_zeroId (h : r.Proper) (heval : (zeroId type).eval r = (z, r')) :
    (z.isValid = true ↔ (type.bind r.types.type?).any Ty.isIntegral = true ∧
      r.shortage (type.bind r.types.type?) ≤ r.room) ∧
    r.Gains (min (r.shortage (type.bind r.types.type?)) r.room) r' := by
  by_cases hintegral : (type.bind r.types.type?).any Ty.isIntegral = true
  · obtain ⟨t, htype, ht⟩ := (Option.any_eq_true _ _).1 hintegral
    obtain ⟨typeId, rfl, htypeId⟩ := Option.bind_eq_some_iff.1 htype
    have htakes := Registry.zeroId_takes h htypeId ht heval
    rw [htype]
    exact ⟨htakes.valid_iff.trans (and_iff_right ht).symm, htakes.gains⟩
  · have hnone : (zeroId type).eval r = (Id.invalid, r) := by
      cases type with
      | none => rfl
      | some typeId => exact Registry.zeroId_of_not_isIntegral hintegral
    rw [hnone] at heval
    cases heval
    rw [r.shortage_of_not_isIntegral hintegral, Nat.zero_min]
    exact ⟨iff_of_false Id.absurd_invalid fun hzero => hintegral hzero.1,
      .nothing r.log⟩

/-- Types that are the same have the same zeros. -/
theorem eval_zeroId_congr {t t' : Ty} (htype : type.bind r.types.type? = some t)
    (htype' : type'.bind r.types.type? = some t') (hsame : t.same t' = true) :
    (zeroId type).eval r = (zeroId type').eval r := by
  obtain ⟨typeId, rfl, htypeId⟩ := Option.bind_eq_some_iff.1 htype
  obtain ⟨typeId', rfl, htypeId'⟩ := Option.bind_eq_some_iff.1 htype'
  exact Registry.zeroId_congr htypeId htypeId' hsame

/-- A type goes on having its id. -/
theorem bind_type?_extends (hextends : r.Extends r') (h : r.Indexed) {t : Ty}
    (htype : type.bind r.types.type? = some t) : type.bind r'.types.type? = some t := by
  obtain ⟨typeId, rfl, htypeId⟩ := Option.bind_eq_some_iff.1 htype
  exact hextends.type? h htypeId

/-- The id of a zero that is asked for stands for it. -/
theorem exists_zeroAt (h : r.Proper) {e : Entity} (hwanted : (zeroId type).wanted? r = some e)
    (hz : e.id? r = some z) : ∃ t, type.bind r.types.type? = some t ∧ r.ZeroAt t z := by
  cases Query.wanted?_eq_some_iff.1 hwanted with
  | zero htype hzero => exact ⟨_, htype, .of_zero? h hzero hz⟩

/-- The zero of a type is always answered. -/
theorem call_zeroId {s : Session} (h : s.Carries r) (type : Option Id) :
    (zeroId type).call s = (.ok ((zeroId type).eval r).1, s.restore ((zeroId type).eval r).2) := by
  rcases (zeroId type).call_run h with hrun | ⟨-, ⟨_, heq⟩, -⟩
  · exact hrun
  · cases heq

end Query

namespace Session

variable {s s₀ : Session}

/-- **Every session answers what the zero of a type is.**

After any queries for sound types and for composites, the zero of a type has a valid id if and only
if the type is an integer or an integer vector type, and the ids that are left are enough for the
declarations that are missing.  That id then stands for a constant of this type whose value is zero
in all of its lanes, and from then on it is given for all types that are the same.  Nothing is
changed but that as many of those declarations as there are ids for are added and entered. -/
theorem zeroId_spec (h : s₀.Opened) (hreach : Reaches .sound s₀ s) (type : Option Id) :
    ∃ r z s₁ r₁, s.Carries r ∧ (Query.zeroId type).call s = (.ok z, s₁) ∧ s₁.Carries r₁ ∧
      (z.isValid = true ↔ (type.bind r.types.type?).any Ty.isIntegral = true ∧
        r.shortage (type.bind r.types.type?) ≤ r.room) ∧
      (z.isValid = true → ∃ t c, type.bind r.types.type? = some t ∧ r₁.ZeroAt t z ∧
        r₁.constants.constant? z = some c ∧ c.type = t ∧
        ∀ env : Environment, env.value? z = none →
          Evaluator.operandValue ⟨r₁.types, some r₁.constants⟩ env (.id z)
            = .ok (Evaluator.zeroOf t)) ∧
      r.Gains (min (r.shortage (type.bind r.types.type?)) r.room) r₁ ∧
      ∀ type' t t', type.bind r.types.type? = some t → type'.bind r.types.type? = some t' →
        t.same t' = true → (Query.zeroId type').call s = (.ok z, s₁) ∧
          (z.isValid = true → ∀ s₂, Reaches .sound s₁ s₂ →
            (Query.zeroId type').call s₂ = (.ok z, s₂)) := by
  obtain ⟨hstart, hindexed⟩ := h.carries
  obtain ⟨r, hcarries, hbuilds⟩ := hreach.builds hstart hindexed
  have hr := (Registry.Proper.start hindexed).builds hbuilds
  rcases heval : (Query.zeroId type).eval r with ⟨z, r₁⟩
  have hcall := Query.call_zeroId hcarries type
  rw [heval] at hcall
  obtain ⟨hvalid, hgains⟩ := Query.eval_zeroId hr heval
  obtain ⟨hbuilds₁, hid⟩ :=
    Query.eval_spec (p := .sound) (q := .zeroId type) hr.toIndexed trivial heval
  have hr₁ := hr.builds hbuilds₁
  have hcarries₁ := hcarries.restore r₁
  have hextends₁ := Registry.Extends.builds hbuilds₁
  refine ⟨r, z, _, r₁, hcarries, hcall, hcarries₁, hvalid, fun hz => ?_, hgains, ?_⟩
  · obtain ⟨e, hwanted, he⟩ := hid hz
    obtain ⟨t, ht, hzero⟩ := Query.exists_zeroAt hr₁ hwanted he
    obtain ⟨c, hc, htype⟩ := hzero.constant?
    obtain ⟨t', ht', -⟩ := (Option.any_eq_true _ _).1 (hvalid.1 hz).1
    have heq := (Query.bind_type?_extends hextends₁ hr.toIndexed ht').symm.trans ht
    exact ⟨t, c, ht'.trans heq, hzero, hc, htype, fun env => hzero.operandValue⟩
  · intro type' t t' ht ht' hsame
    have heval' := Query.eval_zeroId_congr ht ht' hsame
    refine ⟨?_, fun hz s₂ hreach₂ => ?_⟩
    · rw [Query.call_zeroId hcarries, ← heval', heval]
    · obtain ⟨e, hwanted, he⟩ := hid hz
      obtain ⟨r₂, hcarries₂, hbuilds₂⟩ := hreach₂.builds hcarries₁ hr₁.toIndexed
      have hextends₂ := Registry.Extends.builds hbuilds₂
      have hextends := hextends₁.trans hextends₂
      have hagain := Query.eval_again (hr₁.builds hbuilds₂).toIndexed
        ((Query.zeroId type).wanted?_extends hextends₂ hr₁.toIndexed hwanted)
        (e.id?_extends hextends₂ he)
      have heval₂ := Query.eval_zeroId_congr (Query.bind_type?_extends hextends hr.toIndexed ht)
        (Query.bind_type?_extends hextends hr.toIndexed ht') hsame
      rw [Query.call_zeroId hcarries₂, ← heval₂, hagain, hcarries₂.restore_self]

/-- A vector type that was asked for has a zero, whose lanes are declared with it. -/
theorem zeroId_spec_sample : (cached (declaringInt 32)).Opened ∧
    ∃ s s₁ r₁, Reaches .sound (cached (declaringInt 32)) s ∧
      (Query.zeroId (some ⟨2, none⟩)).call s = (.ok ⟨4, none⟩, s₁) ∧ s₁.Carries r₁ ∧
      r₁.ZeroAt (.vector (.int 32 false) 2) ⟨4, none⟩ := by
  have honce : (declaringInt 32).DefinedOnce := by
    rw [Module.DefinedOnce]
    decide
  have hopened := opened_cached parse_wordText honce rfl
  have hreach : Reaches .sound (cached (declaringInt 32))
      ((Query.vectorId (.int 32 false) 2).call (cached (declaringInt 32))).2 :=
    .single ⟨.vectorId (.int 32 false) 2, fun _ _ => ⟨trivial, Nat.le_refl 2⟩, rfl⟩
  obtain ⟨r, z, s₁, r₁, hcarries, hcall, hcarries₁, -, hzero, -⟩ :=
    zeroId_spec hopened hreach (some ⟨2, none⟩)
  obtain rfl : z = ⟨4, none⟩ := Except.ok.inj (congrArg Prod.fst hcall).symm
  obtain ⟨t, c, ht, hzero, -⟩ := hzero rfl
  rw [← Option.some.inj hcarries.types] at ht
  cases ht
  exact ⟨hopened, _, s₁, r₁, hreach, hcall, hcarries₁, hzero⟩

end Session
end ShiftBarrier
