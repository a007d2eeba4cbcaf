import Mathlib.Data.Finset.Card
import ShiftBarrier.Proofs.Barrier.Run
import ShiftBarrier.Proofs.Writing

/-!
# The ids that a run takes

A run takes an id for every shift it guards, and one for every zero that is missing.  A zero is
declared once, whatever the number of shifts that need it, so the ids can be counted beforehand.

* `needs` lists the types whose zeros it takes to guard a shift of a type, and `missing` are those
  of them without a zero in a table.
* `Supplied` says what a registry has become when zeros were asked for and temporaries were taken.
* `zeroId_law` and `guard_law` say when a zero and a guard can be had, and `sweep_law` says so of
  all instructions: they can be guarded if and only if they are `Affordable`.
-/

set_option autoImplicit false

namespace ShiftBarrier

theorem Ty.same_iff_of_isIntegral {found type : Ty} (h : type.isIntegral = true) :
    found.same type = true ↔ found = type := by
  rcases Ty.cases_of_isIntegral h with ⟨w, s, rfl⟩ | ⟨w, s, n, rfl⟩
  · exact Ty.same_int_iff
  · exact Ty.same_vector_int_iff

namespace Barrier

/-! ## The zeros of a table

What a run has to declare is the set of types that lack a zero.  A set, since a zero that is
declared on the way serves all later guards of its type. -/

/-- Whether there is a zero of an integer type, or of a vector whose lanes are the first zero of
theirs. -/
def hasZero (t : ConstantTable) : Ty → Bool
  | .int w s => (t.id? (.zero w s)).isSome
  | .vector (.int w s) n => (t.id? (.zero w s)).any fun z =>
    (t.id? (.composite (.vector (.int w s) n) (List.replicate n z))).isSome
  | _ => false

/-- The types whose zeros it takes to guard a shift of a type, in the order they are asked for. -/
def needs : Ty → List Ty
  | .int w s => [.int w s]
  | .vector (.int w s) n => [.int w s, .vector (.int w s) n]
  | _ => []

/-- Those types that have no zero. -/
def missing (t : ConstantTable) (types : List Ty) : Finset Ty :=
  {type ∈ types.toFinset | hasZero t type = false}

section Missing

variable {t t' : ConstantTable} {a b : List Ty}

theorem mem_missing {type : Ty} : type ∈ missing t a ↔ type ∈ a ∧ hasZero t type = false := by
  rw [missing, Finset.mem_filter, List.mem_toFinset]

theorem missing_nil (t : ConstantTable) : missing t [] = ∅ := rfl

theorem card_missing_singleton (t : ConstantTable) (type : Ty) :
    (missing t [type]).card = if hasZero t type then 0 else 1 := by
  rw [missing, List.toFinset_cons, List.toFinset_nil, insert_empty_eq, Finset.filter_singleton]
  cases hasZero t type <;> rfl

theorem card_missing_le_append (t : ConstantTable) (a b : List Ty) :
    (missing t a).card ≤ (missing t (a ++ b)).card := by
  refine Finset.card_le_card fun type htype => ?_
  rw [mem_missing] at htype ⊢
  exact ⟨List.mem_append_left _ htype.1, htype.2⟩

/-- What is declared on the way is not missing any more. -/
theorem card_missing_append
    (h : ∀ type ∈ b, hasZero t' type = true ↔ hasZero t type = true ∨ type ∈ a) :
    (missing t (a ++ b)).card = (missing t a).card + (missing t' b).card := by
  have hmem : ∀ type ∈ b, type ∈ missing t' b ↔ hasZero t type = false ∧ type ∉ a := by
    intro type htype
    rw [mem_missing, ← Bool.not_eq_true, h type htype, not_or, Bool.not_eq_true]
    exact and_iff_right htype
  have hunion : missing t (a ++ b) = missing t a ∪ missing t' b := by
    ext type
    by_cases hb : type ∈ b
    · rw [Finset.mem_union, hmem type hb, mem_missing, mem_missing, List.mem_append]
      tauto
    · simp [mem_missing, hb]
  rw [hunion, Finset.card_union_of_disjoint]
  rw [Finset.disjoint_left]
  intro type ha hb
  have htype := (mem_missing.1 hb).1
  exact ((hmem type htype).1 hb).2 (mem_missing.1 ha).1

end Missing

/-! ## Registries -/

/-- The ids that a constant is made of. -/
def lanes : Constant → List Id
  | .composite _ ids => ids
  | _ => []

/-- A registry whose types are declared once each, and whose constants are below the bound. -/
structure Orderly (r : Registry) : Prop where
  bound_pos : 0 < r.target.bound
  formed : ∀ entry ∈ r.types.entries, r.types.Formed entry.2
  types_once : (r.types.entries.map (·.1.number)).Nodup
  types_valid : ∀ entry ∈ r.types.entries, entry.1.isValid = true
  constants_below : ∀ entry ∈ r.constants.entries, entry.1.Below r.target.bound
  lanes_below : ∀ entry ∈ r.constants.entries, ∀ id ∈ lanes entry.2, id.Below r.target.bound

namespace Orderly

variable {r : Registry} {type : Ty} {id : Id} {c : Constant}

theorem id_below (h : Orderly r) (hid : r.constants.id? c = some id) : id.Below r.target.bound := by
  obtain ⟨found, -, hmem⟩ := ConstantTable.mem_of_id? hid
  exact h.constants_below _ hmem

theorem isValid_of_id? (h : Orderly r) (hid : r.constants.id? c = some id) : id.isValid = true := by
  have hpos := (h.id_below hid).1
  simp only [Id.isValid, bne_iff_ne]
  omega

/-- A declared integer or integer vector type is found under an id that stands for it. -/
theorem exists_typeId (h : Orderly r) (hintegral : type.isIntegral = true)
    (hmem : (id, type) ∈ r.types.entries) :
    ∃ typeId, r.types.id? type = some typeId ∧ typeId.isValid = true ∧
      r.types.type? typeId = some type := by
  obtain ⟨typeId, hid⟩ :=
    TypeTable.exists_id?_of_mem hmem ((Ty.same_iff_of_isIntegral hintegral).2 rfl)
  obtain ⟨found, hfound, hmem'⟩ := TypeTable.mem_of_id? hid
  obtain rfl := (Ty.same_iff_of_isIntegral hintegral).1 hfound
  exact ⟨typeId, hid, h.types_valid _ hmem', TypeTable.type?_of_mem h.types_once hmem'⟩

theorem bump (h : Orderly r) (log : Log) :
    Orderly { r with target := { r.target with bound := r.target.bound + 1 }, log } where
  bound_pos := Nat.succ_pos _
  formed := h.formed
  types_once := h.types_once
  types_valid := h.types_valid
  constants_below entry he := (h.constants_below entry he).mono (Nat.le_succ _)
  lanes_below entry he id hid := (h.lanes_below entry he id hid).mono (Nat.le_succ _)

theorem declare (h : Orderly r) {typeId : Id} (hlanes : ∀ id ∈ lanes c, id.Below r.target.bound) :
    Orderly (declare r (nextDeclaration r c typeId)) where
  bound_pos := Nat.succ_pos _
  formed := h.formed
  types_once := h.types_once
  types_valid := h.types_valid
  constants_below entry he := by
    rcases List.mem_append.1 he with he | he
    · exact (h.constants_below entry he).mono (Nat.le_succ _)
    · rw [List.mem_singleton.1 he]
      exact ⟨h.bound_pos, Nat.lt_succ_self _⟩
  lanes_below entry he id hid := by
    rcases List.mem_append.1 he with he | he
    · exact (h.lanes_below entry he id hid).mono (Nat.le_succ _)
    · rw [List.mem_singleton.1 he] at hid
      exact (hlanes id hid).mono (Nat.le_succ _)

end Orderly

/-! ## Zeros after a declaration

One declaration takes one type out of the missing ones, and no other. -/

theorem zero_same_iff {w w' : Nat} {s s' : Bool} :
    (Constant.zero w s).same (.zero w' s') = true ↔ w = w' ∧ s = s' := by
  simp [Constant.zero, Constant.same, Number.same, Ty.same]

theorem zeros_same_iff {w w' n n' : Nat} {s s' : Bool} {z z' : Id} (hn : 0 < n) :
    (Constant.composite (.vector (.int w s) n) (List.replicate n z)).same
        (.composite (.vector (.int w' s') n') (List.replicate n' z')) = true ↔
      (w = w' ∧ s = s') ∧ n = n' ∧ z.same z' = true := by
  have hlanes : (∀ id ∈ List.replicate n z, id.same z' = true) ↔ z.same z' = true :=
    ⟨fun h => h z (List.mem_replicate.2 ⟨Nat.ne_of_gt hn, rfl⟩),
      fun h id hid => List.eq_of_mem_replicate hid ▸ h⟩
  rw [Constant.same, Bool.and_eq_true, Ty.same_vector_int_iff, isEqv_replicate_iff,
    List.length_replicate, hlanes]
  simp only [Ty.vector.injEq, Ty.int.injEq]
  tauto

theorem hasZero_int (t : ConstantTable) (w : Nat) (s : Bool) :
    hasZero t (.int w s) = (t.id? (.zero w s)).isSome := rfl

section Vector

variable {t : ConstantTable} {w n : Nat} {s : Bool} {z : Id}

theorem hasZero_vector (h : t.id? (.zero w s) = some z) :
    hasZero t (.vector (.int w s) n)
      = (t.id? (.composite (.vector (.int w s) n) (List.replicate n z))).isSome := by
  rw [hasZero, h, Option.any_some]

theorem hasZero_vector_of_none (h : t.id? (.zero w s) = none) :
    hasZero t (.vector (.int w s) n) = false := by
  rw [hasZero, h, Option.any_none]

end Vector

/-- A new vector of zeros is no zero of anything else. -/
theorem hasZero_add_vector {t : ConstantTable} {id z : Id} {w n : Nat} {s : Bool} (hn : 0 < n)
    (hz : t.id? (.zero w s) = some z) (type : Ty) :
    hasZero (t.add id (.composite (.vector (.int w s) n) (List.replicate n z))) type
      = (hasZero t type || decide (type = .vector (.int w s) n)) := by
  have hother : ∀ w' s', (Constant.composite (.vector (.int w s) n) (List.replicate n z)).same
      (.zero w' s') = false := fun w' s' => rfl
  match type with
  | .int w' s' =>
    rw [hasZero_int, hasZero_int, ConstantTable.id?_add, hother]
    simp
  | .vector (.int w' s') n' =>
    have hid := t.id?_add id (.composite (.vector (.int w s) n) (List.replicate n z)) (.zero w' s')
    rw [hother, if_neg Bool.false_ne_true, Option.or_none] at hid
    cases hz' : t.id? (.zero w' s') with
    | none =>
      have hne : ¬ ((w' = w ∧ s' = s) ∧ n' = n) := by
        rintro ⟨⟨rfl, rfl⟩, -⟩
        rw [hz'] at hz
        cases hz
      rw [hasZero_vector_of_none hz', hasZero_vector_of_none (hid.trans hz')]
      simpa using fun hw hs => hne ∘ And.intro ⟨hw, hs⟩
    | some z' =>
      rw [hasZero_vector hz', hasZero_vector (hid.trans hz'), ConstantTable.id?_add]
      have hsame := @zeros_same_iff w w' n n' s s' z z' hn
      cases t.id? (.composite (.vector (.int w' s') n') (List.replicate n' z')) with
      | some id => rfl
      | none =>
        by_cases heq : (w = w' ∧ s = s') ∧ n = n'
        · obtain ⟨⟨rfl, rfl⟩, rfl⟩ := heq
          rw [hz] at hz'
          cases hz'
          simp [hsame.2 ⟨⟨rfl, rfl⟩, rfl, Id.same_refl z⟩]
        · have hne : ¬ ((w' = w ∧ s' = s) ∧ n' = n) :=
            fun h => heq ⟨⟨h.1.1.symm, h.1.2.symm⟩, h.2.symm⟩
          have hdiffer := mt hsame.1 fun hsame => heq ⟨hsame.1, hsame.2.1⟩
          simp [hdiffer, hne]
  | .float _ | .bool | .void | .other _ _ => rfl
  | .vector (.float _) _ | .vector .bool _ | .vector .void _ | .vector (.vector _ _) _
  | .vector (.other _ _) _ => rfl

namespace Orderly

variable {r : Registry}

/-- No vector is made of an id that was not handed out yet. -/
theorem id?_fresh (h : Orderly r) (type : Ty) {n : Nat} (hn : 0 < n) :
    r.constants.id? (.composite type (List.replicate n ⟨r.target.bound, none⟩)) = none := by
  rw [ConstantTable.id?, Option.map_eq_none_iff, List.find?_eq_none]
  intro entry hentry hsame
  have hlanes := h.lanes_below entry hentry
  rcases hconstant : entry.2 with _ | _ | ⟨type', ids⟩ | _ <;> rw [hconstant] at hsame hlanes <;>
    try cases hsame
  rw [Constant.same, Bool.and_eq_true, isEqv_replicate_iff] at hsame
  obtain ⟨-, hlength, hids⟩ := hsame
  obtain ⟨id, hid⟩ := List.exists_mem_of_length_pos (hlength ▸ hn)
  exact absurd (Id.same_iff.1 (hids id hid)) (Nat.ne_of_lt (hlanes id hid).2)

theorem lanes_pos {t : TypeTable} {element : Ty} {n : Nat} (h : t.Formed (.vector element n)) :
    0 < n := by
  cases h with
  | vector _ hn _ => exact Nat.lt_of_lt_of_le Nat.two_pos hn

/-- A new scalar zero is no zero of anything else, and no vector has it in its lanes yet. -/
theorem hasZero_add_scalar (h : Orderly r) (w : Nat) (s : Bool) {type : Ty}
    (htype : r.types.Formed type) :
    hasZero (r.constants.add ⟨r.target.bound, none⟩ (.zero w s)) type
      = (hasZero r.constants type || decide (type = .int w s)) := by
  match type, htype with
  | .int w' s', _ =>
    rw [hasZero_int, hasZero_int, ConstantTable.id?_add]
    have hsame := @zero_same_iff w w' s s'
    cases r.constants.id? (.zero w' s') with
    | some z => rfl
    | none =>
      by_cases heq : (Constant.zero w s).same (.zero w' s') = true
      · obtain ⟨rfl, rfl⟩ := hsame.1 heq
        simp [heq]
      · have hne : ¬ (w' = w ∧ s' = s) := fun h => heq (hsame.2 ⟨h.1.symm, h.2.symm⟩)
        simp [heq, hne]
  | .vector (.int w' s') n, htype =>
    have hother : ∀ ids,
        (Constant.zero w s).same (.composite (.vector (.int w' s') n) ids) = false := fun ids => rfl
    have hid := r.constants.id?_add ⟨r.target.bound, none⟩ (.zero w s) (.zero w' s')
    simp only [reduceCtorEq, decide_false, Bool.or_false]
    cases hz : r.constants.id? (.zero w' s') with
    | some z =>
      rw [hz, Option.some_or] at hid
      rw [hasZero_vector hz, hasZero_vector hid, ConstantTable.id?_add, hother]
      simp
    | none =>
      rw [hasZero_vector_of_none hz]
      rw [hz, Option.none_or] at hid
      split at hid
      · rw [hasZero_vector hid, ConstantTable.id?_add, hother, h.id?_fresh _ (lanes_pos htype)]
        rfl
      · exact hasZero_vector_of_none hid
  | .float _, _ | .bool, _ | .void, _ | .other _ _, _ => rfl
  | .vector (.float _) _, _ | .vector .bool _, _ | .vector .void _, _
  | .vector (.vector _ _) _, _ | .vector (.other _ _) _, _ => rfl

end Orderly

/-! ## Asking for zeros and temporaries

`Supplied` counts: so many temporaries, and one id for each zero that was missing.  It goes through
one operation after the other. -/

/-- The registry `r'` is what `r` has become when the zeros of some types were asked for and some
temporaries were taken. -/
structure Supplied (r : Registry) (needed : List Ty) (temporaries : Nat) (r' : Registry) :
    Prop where
  orderly : Orderly r'
  types : r'.types = r.types
  limit : r'.target.maxIdBound = r.target.maxIdBound
  bound : r'.target.bound = r.target.bound + temporaries + (missing r.constants needed).card
  zeros : ∀ type, r.types.Formed type →
    (hasZero r'.constants type = true ↔ hasZero r.constants type = true ∨ type ∈ needed)
  old : ∀ id, id.number < r.target.bound → r'.constants.constant? id = r.constants.constant? id

namespace Supplied

variable {r r' r'' : Registry} {a b : List Ty} {k l : Nat}

theorem refl (h : Orderly r) : Supplied r [] 0 r where
  orderly := h
  types := rfl
  limit := rfl
  bound := rfl
  zeros type _ := by simp
  old _ _ := rfl

/-- A zero that is there need not be declared. -/
theorem found (h : Orderly r) {type : Ty} (hzero : hasZero r.constants type = true) :
    Supplied r [type] 0 r where
  orderly := h
  types := rfl
  limit := rfl
  bound := by
    rw [card_missing_singleton, if_pos hzero]
    rfl
  zeros other _ := by
    rw [List.mem_singleton]
    constructor
    · exact .inl
    · rintro (h | rfl)
      · exact h
      · exact hzero
  old _ _ := rfl

theorem temporary (h : Orderly r) (log : Log) :
    Supplied r [] 1 { r with target := { r.target with bound := r.target.bound + 1 }, log } where
  orderly := h.bump log
  types := rfl
  limit := rfl
  bound := rfl
  zeros type _ := by simp
  old _ _ := rfl

theorem trans (h : Supplied r a k r') (h' : Supplied r' b l r'')
    (hb : ∀ type ∈ b, r.types.Formed type) : Supplied r (a ++ b) (k + l) r'' where
  orderly := h'.orderly
  types := h'.types.trans h.types
  limit := h'.limit.trans h.limit
  bound := by
    have hcard := card_missing_append (a := a) fun type htype => h.zeros type (hb type htype)
    have hbound := h.bound
    have hbound' := h'.bound
    omega
  zeros type htype := by
    rw [h'.zeros type (h.types ▸ htype), h.zeros type htype, List.mem_append, or_assoc]
  old id hid := by
    have hbound := h.bound
    rw [h'.old id (by omega), h.old id hid]

/-- Serial numbers are no ids. -/
theorem withNextSerial (h : Supplied r a k r') (nextSerial : Nat) :
    Supplied r a k { r' with target := { r'.target with nextSerial } } :=
  ⟨⟨h.orderly.bound_pos, h.orderly.formed, h.orderly.types_once, h.orderly.types_valid,
    h.orderly.constants_below, h.orderly.lanes_below⟩, h.types, h.limit, h.bound, h.zeros, h.old⟩

end Supplied

section Laws

variable {r r' : Registry} {id key : Id} {w n : Nat} {s : Bool}

/-- A zero of a declared type is found or declared, unless all ids are taken. -/
theorem constantId_law (h : Orderly r) {type : Ty} {c : Constant} {typeId : Id}
    (htypeId : r.types.id? c.type = some typeId) (hvalid : typeId.isValid = true)
    (hsame : c.same c = true) (hlanes : ∀ id ∈ lanes c, id.Below r.target.bound)
    (hzero : (r.constants.id? c).isSome = hasZero r.constants type)
    (hadd : ∀ other, r.types.Formed other →
      hasZero (r.constants.add ⟨r.target.bound, none⟩ c) other
        = (hasZero r.constants other || decide (other = type)))
    (hrun : Registry.constantId c r = (id, r')) :
    (id.isValid = true ∧ r'.constants.id? c = some id ∧ Supplied r [type] 0 r') ∨
      (id.isValid = false ∧ r.target.maxIdBound ≤ r.target.bound) := by
  rcases constantId_cases htypeId hrun with ⟨hfound, rfl⟩ | ⟨hmissing, hlt, rfl, rfl⟩ |
    ⟨-, rfl, -, hfull⟩
  · rw [hfound] at hzero
    exact .inl ⟨h.isValid_of_id? hfound, hfound, .found h hzero.symm⟩
  · have hpos := h.bound_pos
    refine .inl ⟨?_, ?_, ?_⟩
    · simp only [Id.isValid, bne_iff_ne]
      omega
    · rw [declare, ConstantTable.id?_add, nextDeclaration, hmissing, Option.none_or, if_pos hsame]
    · rw [hmissing, Option.isSome_none] at hzero
      exact
        { orderly := h.declare hlanes
          types := rfl
          limit := rfl
          bound := by
            rw [card_missing_singleton, ← hzero]
            rfl
          zeros := fun other hother => by
            rw [List.mem_singleton, ← decide_eq_true_iff (p := other = type), ← Bool.or_eq_true,
              ← hadd other hother]
            rfl
          old := fun id hid => by
            have hne : Id.same ⟨r.target.bound, none⟩ id = false :=
              Id.same_eq_false_iff.2 (Nat.ne_of_gt hid)
            rw [declare, nextDeclaration, ConstantTable.constant?_add, hne]
            rfl }
  · exact .inr ⟨rfl, hfull hvalid h.bound_pos⟩

theorem zeroScalarId_law (h : Orderly r) (hmem : (key, .int w s) ∈ r.types.entries)
    (hrun : Registry.zeroScalarId w s r = (id, r')) :
    (id.isValid = true ∧ r'.constants.id? (.zero w s) = some id ∧ Supplied r [.int w s] 0 r') ∨
      (id.isValid = false ∧ r.target.maxIdBound ≤ r.target.bound) := by
  obtain ⟨typeId, hid, hvalid, -⟩ := h.exists_typeId rfl hmem
  exact constantId_law h hid hvalid (zero_same_iff.2 ⟨rfl, rfl⟩) (fun _ hid => nomatch hid)
    rfl (fun other hother => h.hasZero_add_scalar w s hother) hrun

theorem compositeId_law (h : Orderly r) {typeId z : Id} (hn : 0 < n)
    (hid : r.types.id? (.vector (.int w s) n) = some typeId) (hvalid : typeId.isValid = true)
    (htype : r.types.type? typeId = some (.vector (.int w s) n))
    (hz : r.constants.id? (.zero w s) = some z)
    (hrun : Registry.compositeId typeId (List.replicate n z) r = (id, r')) :
    (id.isValid = true ∧ Supplied r [.vector (.int w s) n] 0 r') ∨
      (id.isValid = false ∧ r.target.maxIdBound ≤ r.target.bound) := by
  have hdeclared : (List.replicate n z).all r.constants.isDeclared = true := by
    obtain ⟨found, -, hmem⟩ := ConstantTable.mem_of_id? hz
    rw [List.all_eq_true]
    intro id hid
    rw [List.eq_of_mem_replicate hid]
    exact ConstantTable.isDeclared_of_mem hmem
  rw [Registry.compositeId_of_declared htype List.length_replicate.symm hdeclared] at hrun
  have hsame := (zeros_same_iff (w := w) (s := s) hn).2 ⟨⟨rfl, rfl⟩, rfl, Id.same_refl z⟩
  rcases constantId_law (c := .composite (.vector (.int w s) n) (List.replicate n z)) h hid hvalid
    hsame
    (fun id hid => List.eq_of_mem_replicate hid ▸ h.id_below hz) (hasZero_vector hz).symm
    (fun other _ => hasZero_add_vector hn hz other) hrun with ⟨hok, -, hsupplied⟩ | hfull
  · exact .inl ⟨hok, hsupplied⟩
  · exact .inr hfull

theorem zeroVectorId_law (h : Orderly r) (hmem : (key, .vector (.int w s) n) ∈ r.types.entries)
    (hrun : Registry.zeroVectorId w s n r = (id, r')) :
    (id.isValid = true ∧ Supplied r [.int w s, .vector (.int w s) n] 0 r') ∨
      (id.isValid = false ∧ r.target.maxIdBound
        ≤ r.target.bound + (missing r.constants [.int w s, .vector (.int w s) n]).card) := by
  have hformed := h.formed _ hmem
  have hpos := Orderly.lanes_pos hformed
  cases hformed with
  | vector hscalar hn hlane =>
    obtain ⟨typeId, hid, hvalid, htype⟩ := h.exists_typeId rfl hmem
    rcases hzero : Registry.zeroScalarId w s r with ⟨zero, r₁⟩
    rcases zeroScalarId_law h hlane hzero with ⟨hok, hz, hscalar⟩ | ⟨hno, hfull⟩
    · have hid' := hscalar.types ▸ hid
      rw [Registry.zeroVectorId_of_isValid hzero hok (by omega) hid' hvalid] at hrun
      rcases compositeId_law hscalar.orderly hpos hid' hvalid (hscalar.types ▸ htype) hz hrun with
        ⟨hok', hvector⟩ | ⟨hno, hfull⟩
      · refine .inl ⟨hok', hscalar.trans hvector fun type htype => ?_⟩
        rw [List.mem_singleton.1 htype]
        exact h.formed _ hmem
      · have hle := card_missing_le_append r.constants [.int w s] [.vector (.int w s) n]
        have hbound := hscalar.bound
        rw [hscalar.limit] at hfull
        refine .inr ⟨hno, ?_⟩
        rw [List.singleton_append] at hle
        omega
    · rw [Registry.zeroVectorId_of_not_isValid hzero (by simp [hno])] at hrun
      cases hrun
      exact .inr ⟨rfl, by omega⟩

/-- **The zero of a type can be had** if it is an integer or integer vector type, and if there are
ids enough for what is missing. -/
theorem zeroId_law (h : Orderly r) {typeId : Id} (hrun : Registry.zeroId typeId r = (id, r')) :
    (id.isValid = true ∧ (r.types.type? typeId).any Ty.isIntegral = true ∧
        Supplied r ((r.types.type? typeId).elim [] needs) 0 r') ∨
      (id.isValid = false ∧ ((r.types.type? typeId).any Ty.isIntegral = true →
        r.target.maxIdBound ≤ r.target.bound
          + (missing r.constants ((r.types.type? typeId).elim [] needs)).card)) := by
  cases Registry.zeroId_outcome hrun with
  | scalar htype hrun =>
    obtain ⟨key, -, hmem⟩ := TypeTable.mem_of_type? htype
    rw [htype]
    rcases zeroScalarId_law h hmem hrun with ⟨hok, -, hsupplied⟩ | ⟨hno, hfull⟩
    · exact .inl ⟨hok, rfl, hsupplied⟩
    · exact .inr ⟨hno, fun _ => Nat.le_trans hfull (Nat.le_add_right _ _)⟩
  | vector htype hrun =>
    obtain ⟨key, -, hmem⟩ := TypeTable.mem_of_type? htype
    rw [htype]
    rcases zeroVectorId_law h hmem hrun with ⟨hok, hsupplied⟩ | ⟨hno, hfull⟩
    · exact .inl ⟨hok, rfl, hsupplied⟩
    · exact .inr ⟨hno, fun _ => hfull⟩
  | other htype hid =>
    rw [hid]
    exact .inr ⟨rfl, fun hintegral => absurd hintegral htype⟩

end Laws

/-! ## Guards

A guard takes the zeros its type still lacks, and one temporary. -/

/-- The types whose zeros it takes to guard an instruction. -/
def needsOf (types : TypeTable) (i : Instruction) : List Ty :=
  (i.type.bind types.type?).elim [] needs

/-- A shift that can be guarded if there are ids enough. -/
structure Guardable (types : TypeTable) (i : Instruction) : Prop where
  /-- The result is an integer or a vector of integers. -/
  integral : (i.type.bind types.type?).any Ty.isIntegral = true
  /-- The guard is logged with the line of the shift. -/
  writable : ∃ text, i.text = .ok text

/-- Whether the line of an instruction can be written does not depend on its result. -/
theorem exists_text_withResult (i : Instruction) (result : Option Id) :
    (∃ text, ({ i with result } : Instruction).text = .ok text) ↔ ∃ text, i.text = .ok text := by
  rw [Instruction.exists_text_iff, Instruction.exists_text_iff]

section Guards

variable {s s' : State} {stop : Option Stop}

/-- **A shift can be guarded** if and only if it is guardable and there are ids enough. -/
theorem guard_law {c : Candidate} {out : List Instruction} (h : Orderly s.registry)
    (htype : c.shift.type = some c.type) (hguard : guard c s = (out, stop, s')) :
    (stop = none ∧ Guardable s.registry.types c.shift ∧
        s.registry.target.bound + 1
          + (missing s.registry.constants (needsOf s.registry.types c.shift)).card
            ≤ s.registry.target.maxIdBound ∧
        Supplied s.registry (needsOf s.registry.types c.shift) 1 s'.registry) ∨
      (stop ≠ none ∧ (Guardable s.registry.types c.shift →
        s.registry.target.maxIdBound ≤ s.registry.target.bound
          + (missing s.registry.constants (needsOf s.registry.types c.shift)).card)) := by
  have hfound : c.shift.type.bind s.registry.types.type? = s.registry.types.type? c.type := by
    rw [htype, Option.bind_some]
  have hneeds : needsOf s.registry.types c.shift
      = (s.registry.types.type? c.type).elim [] needs := by
    rw [needsOf, hfound]
  rw [hneeds]
  cases guard_outcome hguard with
  | @put zero r stop log hzero hvalid _ hlt hreport =>
    rcases zeroId_law h hzero with ⟨-, hintegral, hsupplied⟩ | ⟨hinvalid, -⟩
    · have hbound := hsupplied.bound
      have hlimit := hsupplied.limit
      have hwritable := hreport.eq_none_iff.trans (exists_text_withResult c.shift _)
      by_cases hstop : stop = none
      · have htaken := (hsupplied.trans (.temporary hsupplied.orderly log)
          (List.forall_mem_nil _)).withNextSerial (r.target.nextSerial + 1)
        rw [List.append_nil] at htaken
        exact .inl ⟨hstop, ⟨hfound ▸ hintegral, hwritable.1 hstop⟩, by omega, htaken⟩
      · exact .inr ⟨hstop, fun hguardable => absurd (hwritable.2 hguardable.writable) hstop⟩
    · rw [hvalid] at hinvalid
      cases hinvalid
  | @noId zero r _ _ hzero hvalid hfull =>
    rcases zeroId_law h hzero with ⟨-, -, hsupplied⟩ | ⟨hinvalid, -⟩
    · have hbound := hsupplied.bound
      have hlimit := hsupplied.limit
      have hfull := hfull hsupplied.orderly.bound_pos
      exact .inr ⟨Option.some_ne_none _, fun _ => by omega⟩
    · rw [hvalid] at hinvalid
      cases hinvalid
  | noZero hzero hinvalid =>
    rcases zeroId_law h hzero with ⟨hvalid, -⟩ | ⟨-, hfull⟩
    · exact absurd hvalid hinvalid
    · exact .inr ⟨Option.some_ne_none _, fun hguardable => hfull (hfound ▸ hguardable.integral)⟩

/-- An instruction that can be looked at: a left shift has an amount, a type and a result. -/
def Regular (i : Instruction) : Prop :=
  i.opcode = "OpShiftLeftLogical" →
    2 ≤ i.operands.length ∧ i.type.isSome = true ∧ i.result.isSome = true

theorem candidate?_ne_error {types : TypeTable} {constants : ConstantTable} {i : Instruction}
    (h : Regular i) (e : Error) : candidate? types constants i ≠ .error e := by
  rw [candidate?, shiftAmount?]
  split
  · next hopcode =>
    obtain ⟨hlength, htype, hresult⟩ := h hopcode
    obtain ⟨type, htype⟩ := Option.isSome_iff_exists.1 htype
    obtain ⟨result, hresult⟩ := Option.isSome_iff_exists.1 hresult
    rw [List.getElem?_eq_getElem hlength, htype, hresult]
    intro herror
    simp only [bind, Except.bind] at herror
    split at herror
    · split at herror
      · split at herror <;> cases herror
      · cases herror
    · cases herror
  · intro herror
    cases herror

/-- **One instruction** is left alone, guarded, or the end of the run. -/
theorem onInstruction_law {i : Instruction} {out : List Instruction} (h : Orderly s.registry)
    (hregular : Regular i) (hstep : onInstruction i s = (out, stop, s')) :
    (isCandidate s.registry.constants i = false ∧ stop = none ∧ s' = s) ∨
      isCandidate s.registry.constants i = true ∧
      ((stop = none ∧ Guardable s.registry.types i ∧
          s.registry.target.bound + 1
            + (missing s.registry.constants (needsOf s.registry.types i)).card
              ≤ s.registry.target.maxIdBound ∧
          Supplied s.registry (needsOf s.registry.types i) 1 s'.registry) ∨
        (stop ≠ none ∧ (Guardable s.registry.types i →
          s.registry.target.maxIdBound ≤ s.registry.target.bound
            + (missing s.registry.constants (needsOf s.registry.types i)).card))) := by
  cases onInstruction_outcome hstep with
  | raised herror => exact absurd herror (candidate?_ne_error hregular _)
  | passed hfound =>
    obtain ⟨-, hno⟩ | ⟨c, ⟨⟩, -⟩ := candidate?_cases hfound
    exact .inl ⟨hno, rfl, rfl⟩
  | candidate hfound hguard =>
    obtain ⟨⟨⟩, -⟩ | ⟨c, ⟨⟩, hyes, rfl, htype, -⟩ := candidate?_cases hfound
    exact .inr ⟨hyes, guard_law h htype hguard⟩

end Guards

/-! ## Whole runs

The ids suffice for a list of candidates if they suffice for the first one and what is left then
suffices for the others.  The induction is over the instructions of all blocks in a row. -/

/-- Candidates that can all be guarded with the ids that are left. -/
def Affordable (r : Registry) (cs : List Instruction) : Prop :=
  cs = [] ∨ (∀ i ∈ cs, Guardable r.types i) ∧
    r.target.bound + cs.length + (missing r.constants (cs.flatMap (needsOf r.types))).card
      ≤ r.target.maxIdBound

/-- The lanes of a declared vector type are of a declared type. -/
theorem formed_needsOf {r : Registry} (h : Orderly r) {i : Instruction} {type : Ty}
    (htype : type ∈ needsOf r.types i) : r.types.Formed type := by
  rw [needsOf] at htype
  cases hfound : i.type.bind r.types.type? with
  | none =>
    rw [hfound] at htype
    exact absurd htype List.not_mem_nil
  | some found =>
    obtain ⟨id, -, hid⟩ := Option.bind_eq_some_iff.1 hfound
    obtain ⟨key, -, hmem⟩ := TypeTable.mem_of_type? hid
    have hformed := h.formed _ hmem
    rw [hfound, Option.elim_some] at htype
    match found, hformed with
    | .int w s, hformed =>
      rw [List.mem_singleton.1 htype]
      exact hformed
    | .vector (.int w s) n, hformed =>
      rcases List.mem_cons.1 htype with rfl | htype
      · cases hformed with
        | vector _ _ hlane => exact h.formed _ hlane
      · rw [List.mem_singleton.1 htype]
        exact hformed
    | .float _, _ | .bool, _ | .void, _ | .other _ _, _ => cases htype
    | .vector (.float _) _, _ | .vector .bool _, _ | .vector .void _, _
    | .vector (.vector _ _) _, _ | .vector (.other _ _) _, _ => cases htype

/-- What is left after a guard pays for the other candidates if and only if all was affordable. -/
theorem affordable_cons_iff {r r' : Registry} {i : Instruction} {cs : List Instruction}
    (h : Orderly r) (hguardable : Guardable r.types i)
    (hle : r.target.bound + 1 + (missing r.constants (needsOf r.types i)).card
      ≤ r.target.maxIdBound)
    (hsupplied : Supplied r (needsOf r.types i) 1 r') :
    Affordable r (i :: cs) ↔ Affordable r' cs := by
  have hzeros : ∀ type ∈ cs.flatMap (needsOf r.types), hasZero r'.constants type = true ↔
      hasZero r.constants type = true ∨ type ∈ needsOf r.types i := by
    intro type htype
    obtain ⟨j, -, hj⟩ := List.mem_flatMap.1 htype
    exact hsupplied.zeros type (formed_needsOf h hj)
  have hcard := card_missing_append hzeros
  have hbound := hsupplied.bound
  rw [Affordable, Affordable, hsupplied.types, hsupplied.limit, List.flatMap_cons,
    List.forall_mem_cons, List.length_cons, hcard]
  constructor
  · rintro (hnil | ⟨⟨-, hall⟩, hle⟩)
    · cases hnil
    · exact .inr ⟨hall, by omega⟩
  · rintro (rfl | ⟨hall, hle⟩)
    · refine .inr ⟨⟨hguardable, fun _ hj => absurd hj List.not_mem_nil⟩, ?_⟩
      rw [List.flatMap_nil, missing_nil, Finset.card_empty, List.length_nil]
      omega
    · exact .inr ⟨⟨hguardable, hall⟩, by omega⟩

/-- An instruction that is passed has got what it needs. -/
theorem onInstruction_supplied {i : Instruction} {out : List Instruction} {s s' : State}
    (h : Orderly s.registry) (hstep : onInstruction i s = (out, none, s')) :
    (isCandidate s.registry.constants i = false ∧ s' = s) ∨
      isCandidate s.registry.constants i = true ∧
        Supplied s.registry (needsOf s.registry.types i) 1 s'.registry := by
  cases onInstruction_outcome hstep with
  | passed hfound =>
    obtain ⟨-, hno⟩ | ⟨c, ⟨⟩, -⟩ := candidate?_cases hfound
    exact .inl ⟨hno, rfl⟩
  | candidate hfound hguard =>
    obtain ⟨⟨⟩, -⟩ | ⟨c, ⟨⟩, hyes, rfl, htype, -⟩ := candidate?_cases hfound
    rcases guard_law h htype hguard with ⟨-, -, -, hsupplied⟩ | ⟨hstop, -⟩
    · exact .inr ⟨hyes, hsupplied⟩
    · exact absurd rfl hstop

/-- What was added does not make candidates of old instructions. -/
theorem Supplied.filter_isCandidate {r r' : Registry} {a : List Ty} {k : Nat}
    (h : Supplied r a k r') {is : List Instruction}
    (hbelow : ∀ i ∈ is, ∀ id ∈ i.uses, id.Below r.target.bound) :
    is.filter (isCandidate r'.constants) = is.filter (isCandidate r.constants) :=
  List.filter_congr fun i hi => isCandidate_congr fun id hid => h.old id (hbelow i hi id hid).2

/-- **A sweep that comes to its end** has got what all candidates need. -/
theorem sweep_supplied {is out : List Instruction} {s s' : State} (h : Orderly s.registry)
    (hbelow : ∀ i ∈ is, ∀ id ∈ i.uses, id.Below s.registry.target.bound)
    (hsweep : sweep onInstruction is s = (out, none, s')) {cs : List Instruction}
    (hcs : is.filter (isCandidate s.registry.constants) = cs) :
    Supplied s.registry (cs.flatMap (needsOf s.registry.types)) cs.length s'.registry := by
  induction is generalizing s out cs with
  | nil =>
    cases hsweep
    subst hcs
    exact .refl h
  | cons i is ih =>
    obtain ⟨-, hbelows⟩ := List.forall_mem_cons.1 hbelow
    cases sweep_outcome hsweep with
    | passed hstep htail =>
      rcases onInstruction_supplied h hstep with ⟨hno, rfl⟩ | ⟨hyes, hsupplied⟩
      · rw [List.filter_cons_of_neg (by simp [hno])] at hcs
        exact ih h hbelows htail hcs
      · rw [List.filter_cons_of_pos hyes] at hcs
        subst hcs
        have hbound := hsupplied.bound
        have hrest := ih hsupplied.orderly
          (fun j hj id hid => (hbelows j hj id hid).mono (by omega)) htail
          (hsupplied.filter_isCandidate hbelows)
        rw [hsupplied.types] at hrest
        rw [List.flatMap_cons, List.length_cons, Nat.add_comm]
        refine hsupplied.trans hrest fun type htype => ?_
        obtain ⟨j, -, hj⟩ := List.mem_flatMap.1 htype
        exact formed_needsOf h hj

/-- **The instructions of a list can all be passed** if and only if its candidates are
affordable. -/
theorem sweep_law {is out : List Instruction} {s s' : State} {stop : Option Stop}
    (h : Orderly s.registry) (hregular : ∀ i ∈ is, Regular i)
    (hbelow : ∀ i ∈ is, ∀ id ∈ i.uses, id.Below s.registry.target.bound)
    (hsweep : sweep onInstruction is s = (out, stop, s')) {cs : List Instruction}
    (hcs : is.filter (isCandidate s.registry.constants) = cs) :
    stop = none ↔ Affordable s.registry cs := by
  -- what a guard declares is missing no more for the rest, so the registry changes on the way
  induction is generalizing s out cs with
  | nil =>
    cases hsweep
    subst hcs
    exact iff_of_true rfl (.inl rfl)
  | cons i is ih =>
    obtain ⟨hregular, hregulars⟩ := List.forall_mem_cons.1 hregular
    obtain ⟨-, hbelows⟩ := List.forall_mem_cons.1 hbelow
    cases sweep_outcome hsweep with
    | stopped hstep =>
      refine iff_of_false (Option.some_ne_none _) ?_
      obtain ⟨-, ⟨⟩, -⟩ | ⟨hyes, ⟨⟨⟩, -⟩ | ⟨-, hfull⟩⟩ := onInstruction_law h hregular hstep
      rw [List.filter_cons_of_pos hyes] at hcs
      subst hcs
      rintro (hnil | ⟨hall, hle⟩)
      · cases hnil
      · -- the list needs what its first shift does, and the ids are too few for that
        have hfull := hfull (hall i List.mem_cons_self)
        have hmono := card_missing_le_append s.registry.constants
          (needsOf s.registry.types i) ((is.filter (isCandidate s.registry.constants)).flatMap
            (needsOf s.registry.types))
        rw [List.flatMap_cons, List.length_cons] at hle
        omega
    | passed hstep htail =>
      obtain ⟨hno, -, rfl⟩ | ⟨hyes, ⟨-, hguardable, hle, hsupplied⟩ | ⟨hstop, -⟩⟩ :=
        onInstruction_law h hregular hstep
      · rw [List.filter_cons_of_neg (by simp [hno])] at hcs
        exact ih h hregulars hbelows htail hcs
      · rw [List.filter_cons_of_pos hyes] at hcs
        subst hcs
        have hbound := hsupplied.bound
        rw [affordable_cons_iff h hguardable hle hsupplied]
        exact ih hsupplied.orderly hregulars
          (fun j hj id hid => (hbelows j hj id hid).mono (by omega)) htail
          (hsupplied.filter_isCandidate hbelows)
      · exact absurd rfl hstop

/-- A sweep that looks at the parts of its elements one after the other is a sweep of the parts. -/
theorem sweep_flatMap {α β : Type} {step : α → State → List α × Option Stop × State}
    {inner : β → State → List β × Option Stop × State} {body : α → List β}
    (h : ∀ a s, (step a s).2 = (sweep inner (body a) s).2) (as : List α) (s : State) :
    (sweep step as s).2 = (sweep inner (as.flatMap body) s).2 := by
  have happend : ∀ (bs bs' : List β) (s : State), (sweep inner (bs ++ bs') s).2
      = match (sweep inner bs s).2 with
        | (some stop, s) => (some stop, s)
        | (none, s) => (sweep inner bs' s).2 := by
    intro bs bs' s
    induction bs generalizing s with
    | nil => rfl
    | cons b bs ih =>
      rw [List.cons_append, sweep, sweep]
      rcases inner b s with ⟨out, _ | stop, s₁⟩
      · exact ih s₁
      · rfl
  induction as generalizing s with
  | nil => rfl
  | cons a as ih =>
    rw [List.flatMap_cons, happend, ← h a s, sweep]
    rcases step a s with ⟨out, _ | stop, s₁⟩
    · exact ih s₁
    · rfl

/-- A run looks at the instructions of all blocks one after the other. -/
theorem run_of_sweep {r : Registry} {out : List Instruction} {stop : Option Stop} {s : State}
    (h : sweep onInstruction (bodies r.target) { registry := r } = (out, stop, s)) :
    ∃ functions, run r = (stop, { s with
      registry := { s.registry with target := { s.registry.target with functions } } }) := by
  have hblock : ∀ b s, (onBlock b s).2 = (sweep onInstruction b.instructions s).2 := by
    intro b s
    rw [onBlock]
  have hfunction : ∀ f s, (onFunction f s).2
      = (sweep onInstruction (f.blocks.flatMap Block.instructions) s).2 := by
    intro f s
    rw [← sweep_flatMap hblock, onFunction]
  have hsweep := sweep_flatMap hfunction r.target.functions { registry := r }
  rw [bodies, Module.blocks, List.flatMap_assoc] at h
  rw [h] at hsweep
  rcases hfunctions : sweep onFunction r.target.functions { registry := r } with ⟨fs, stop', s'⟩
  rw [hfunctions] at hsweep
  cases hsweep
  rw [run, hfunctions]
  exact ⟨fs, rfl⟩

end Barrier
end ShiftBarrier
