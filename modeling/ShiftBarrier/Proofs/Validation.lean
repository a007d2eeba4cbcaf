import Mathlib.Data.List.Nodup
import ShiftBarrier.Proofs.Tables
import ShiftBarrier.Validation

/-!
# What the validator sees

* `Finding.key` is what a finding says apart from the instruction it shows.
* `repeated` lists the ids of a list that stand in it before; `keys_redefined` says that these are
  the redefinitions that are found, as long as serial numbers tell instructions apart.
* `Agree` compares what is known of some ids.  A check only depends on what is known of the ids that
  are used: `inOrder_congr`.
-/

set_option autoImplicit false

namespace ShiftBarrier

/-- What a finding is about, without the block or the instruction. -/
inductive FindingKind
  | notTerminated
  | notDefined
  | redefined
  deriving DecidableEq, Repr

/-- The kind of a finding, and the id or the label it is about. -/
def Finding.key : Finding → FindingKind × Id
  | .notTerminated b => (.notTerminated, b.label)
  | .notDefined id _ => (.notDefined, id)
  | .redefined id _ => (.redefined, id)

namespace Validation

variable {known known' later later' ids : List Id} {id : Id} {is js : List Instruction}
  {i : Instruction}

/-! ## Known ids

Ids are compared by number, so that what is known is a set of numbers; in which order it was
collected does not matter. -/

theorem isKnown_iff : isKnown known id = true ↔ ∃ key ∈ known, id.number = key.number := by
  simp only [isKnown, List.any_eq_true, Id.same_iff]

theorem isKnown_of_mem (h : id ∈ known) : isKnown known id = true := isKnown_iff.2 ⟨id, h, rfl⟩

@[simp] theorem isKnown_append :
    isKnown (known ++ known') id = (isKnown known id || isKnown known' id) := List.any_append

@[simp] theorem isKnown_cons {key : Id} :
    isKnown (key :: known) id = (id.same key || isKnown known id) := List.any_cons

@[simp] theorem isKnown_reverse : isKnown known.reverse id = isKnown known id := List.any_reverse

/-- Whether some of the ids are known is the same. -/
def Agree (p : Id → Bool) (known known' : List Id) : Prop :=
  ∀ id, p id = true → isKnown known id = isKnown known' id

/-- A property of ids that does not depend on their names. -/
def Numeric (p : Id → Bool) : Prop := ∀ {a b : Id}, a.same b = true → p a = p b

section Agree

variable {p : Id → Bool}

theorem Agree.refl (known : List Id) : Agree p known known := fun _ _ => rfl

theorem Agree.append {more more' : List Id} (hmore : Agree p more more')
    (h : Agree p known known') : Agree p (more ++ known) (more' ++ known') := by
  intro id hid
  rw [isKnown_append, isKnown_append, hmore id hid, h id hid]

theorem Agree.cons_right (hp : Numeric p) (h : Agree p known known') {new : Id}
    (hnew : p new = false) : Agree p known (new :: known') := by
  intro id hid
  have hne : id.same new = false := by
    rw [Bool.eq_false_iff]
    intro hsame
    rw [hp hsame, hnew] at hid
    cases hid
  rw [isKnown_cons, hne, Bool.false_or, h id hid]

theorem Agree.filter (hp : Numeric p) (known : List Id) :
    Agree p (known.filter p) known := by
  intro id hid
  rw [Bool.eq_iff_iff, isKnown_iff, isKnown_iff]
  constructor
  · rintro ⟨key, hkey, heq⟩
    exact ⟨key, List.mem_of_mem_filter hkey, heq⟩
  · rintro ⟨key, hkey, heq⟩
    exact ⟨key, List.mem_filter.2 ⟨hkey, by rw [← hp (Id.same_iff.2 heq), hid]⟩, heq⟩

end Agree

/-! ## Uses -/

theorem keys_undefinedUses (known : List Id) (i : Instruction) :
    (undefinedUses known i).map Finding.key
      = (i.uses.filter fun id => !isKnown known id).map (FindingKind.notDefined, ·) := by
  rw [undefinedUses, List.map_map]
  rfl

theorem undefinedUses_congr (h : ∀ id ∈ i.uses, isKnown known id = isKnown known' id) :
    undefinedUses known i = undefinedUses known' i := by
  rw [undefinedUses, undefinedUses, List.filter_congr fun id hid => by rw [h id hid]]

theorem undefinedUses_eq_nil (h : ∀ id ∈ i.uses, isKnown known id = true) :
    undefinedUses known i = [] := by
  rw [undefinedUses, List.map_eq_nil_iff, List.filter_eq_nil_iff]
  intro id hid
  simp [h id hid]

theorem results_append : results (is ++ js) = results is ++ results js := List.filterMap_append

theorem results_cons : results (i :: is) = i.result.toList ++ results is := by
  rw [results, List.filterMap_cons]
  cases i.result <;> rfl

theorem inOrder_append (later known : List Id) (is js : List Instruction) :
    inOrder later known (is ++ js)
      = inOrder later known is ++ inOrder later ((results is).reverse ++ known) js := by
  induction is generalizing known with
  | nil => rfl
  | cons i is ih =>
    rw [List.cons_append, inOrder, inOrder, ih, List.append_assoc, results_cons,
      List.reverse_append, List.append_assoc]
    cases i.result <;> rfl

/-- Only what is known of the ids that are used matters. -/
theorem inOrder_congr {p : Id → Bool} (huses : ∀ i ∈ is, ∀ id ∈ i.uses, p id = true)
    (hlater : Agree p later later') (hknown : Agree p known known') :
    inOrder later known is = inOrder later' known' is := by
  induction is generalizing known known' with
  | nil => rfl
  | cons i is ih =>
    have hrest := ih (fun j hj => huses j (List.mem_cons_of_mem _ hj))
      ((Agree.refl i.result.toList).append hknown)
    have hi := huses i List.mem_cons_self
    rw [inOrder, inOrder, hrest]
    congr 1
    split
    · exact undefinedUses_congr fun id hid => hlater.append hknown id (hi id hid)
    · exact undefinedUses_congr fun id hid => hknown id (hi id hid)

/-! ## Redefinitions

Findings are compared by kind and id.  By these the redefinitions are a function of the list of
results. -/

/-- The ids that are known when it is their turn. -/
def repeated : List Id → List Id → List Id
  | _, [] => []
  | known, id :: ids =>
    if isKnown known id then id :: repeated known ids else repeated (id :: known) ids

/-- The instructions whose results are known when it is their turn. -/
def redefining : List Id → List Instruction → List Instruction
  | _, [] => []
  | known, i :: is =>
    match i.result with
    | none => redefining known is
    | some id => if isKnown known id then i :: redefining known is else redefining (id :: known) is

theorem redefining_subset (known : List Id) (is : List Instruction) :
    ∀ i ∈ redefining known is, i ∈ is := by
  induction is generalizing known with
  | nil => exact fun i hi => absurd hi List.not_mem_nil
  | cons j is ih =>
    intro i hi
    rw [redefining] at hi
    split at hi
    · exact List.mem_cons_of_mem _ (ih _ i hi)
    · split at hi
      · rcases List.mem_cons.1 hi with rfl | hi
        · exact List.mem_cons_self
        · exact List.mem_cons_of_mem _ (ih _ i hi)
      · exact List.mem_cons_of_mem _ (ih _ i hi)

theorem keys_redefining (known : List Id) (is : List Instruction) :
    ((redefining known is).filterMap fun i => i.result.map (Finding.redefined · i)).map Finding.key
      = (repeated known (results is)).map (FindingKind.redefined, ·) := by
  induction is generalizing known with
  | nil => rfl
  | cons i is ih =>
    rw [redefining, results_cons]
    cases hresult : i.result with
    | none => exact ih known
    | some id =>
      rw [Option.toList_some, List.singleton_append, repeated]
      dsimp only
      split
      · rw [List.filterMap_cons, hresult, List.map_cons, ← ih]
        rfl
      · exact ih _

theorem redefinitions_foldl {t : DefUse} (h : ∀ id, t.isDefined id = isKnown known id) :
    (is.foldl DefUse.record t).redefinitions
      = t.redefinitions ++ (redefining known is).map Instruction.serial := by
  induction is generalizing t known with
  | nil => exact (List.append_nil _).symm
  | cons i is ih =>
    rw [List.foldl_cons, DefUse.record, redefining]
    cases hresult : i.result with
    | none => exact ih h
    | some id =>
      dsimp only
      rw [h id]
      split
      · rw [@ih known, List.map_cons, List.append_assoc, List.singleton_append]
        exact fun key => h key
      · refine ih fun key => ?_
        rw [isKnown_cons, ← h key, DefUse.isDefined, DefUse.isDefined, List.any_append,
          Bool.or_comm, Id.same_comm]
        simp

theorem bySerial?_of_mem {m : Module} (hnodup : (m.instructions.map Instruction.serial).Nodup)
    (hi : i ∈ m.instructions) : m.bySerial? i.serial = some i := by
  rw [Module.bySerial?]
  cases hfind : m.instructions.find? (·.serial == i.serial) with
  | none => exact absurd (beq_self_eq_true i.serial) (List.find?_eq_none.1 hfind i hi)
  | some j =>
    have hserial : j.serial = i.serial :=
      eq_of_beq (List.find?_some (p := fun j : Instruction => j.serial == i.serial) hfind)
    rw [List.inj_on_of_nodup_map hnodup (List.mem_of_find?_eq_some hfind) hi hserial]

/-- **The redefinitions that are found are the results that were there before.** -/
theorem keys_redefined {m : Module} (hnodup : (m.instructions.map Instruction.serial).Nodup) :
    (redefined m).map Finding.key
      = (repeated [] (results m.instructions)).map (FindingKind.redefined, ·) := by
  have hredefinitions : (DefUse.analyze m).redefinitions
      = (redefining [] m.instructions).map Instruction.serial :=
    redefinitions_foldl (t := {}) fun _ => rfl
  rw [← keys_redefining, redefined, hredefinitions, List.filterMap_map]
  congr 1
  refine List.filterMap_congr fun i hi => ?_
  rw [Function.comp_apply, bySerial?_of_mem hnodup (redefining_subset _ _ i hi)]
  show (i.result.bind fun id => some (Finding.redefined id i)) = _
  cases i.result <;> rfl

/-- Ids that stand in a list only once do not matter to the others. -/
theorem repeated_filter {p : Id → Bool} (hp : Numeric p) (hknown : Agree p known known')
    (hfresh : ∀ id ∈ ids, p id = false → isKnown known id = false)
    (hnodup : ((ids.filter fun id => !p id).map Id.number).Nodup) :
    repeated known ids = repeated known' (ids.filter p) := by
  induction ids generalizing known known' with
  | nil => rfl
  | cons id ids ih =>
    have hrest : ∀ key ∈ ids, p key = false → isKnown known key = false :=
      fun key hkey => hfresh key (List.mem_cons_of_mem _ hkey)
    rw [repeated]
    cases hid : p id with
    | true =>
      rw [List.filter_cons_of_neg (by simp [hid])] at hnodup
      rw [List.filter_cons_of_pos hid, repeated, ← hknown id hid]
      split
      · rw [ih hknown hrest hnodup]
      · refine ih ((Agree.refl [id]).append hknown) (fun key hkey hnot => ?_) hnodup
        have hne : key.same id = false := by
          rw [Bool.eq_false_iff]
          intro hsame
          rw [hp hsame, hid] at hnot
          cases hnot
        rw [isKnown_cons, hne, hrest key hkey hnot, Bool.or_false]
    | false =>
      -- such an id is new when it comes and never comes again
      rw [List.filter_cons_of_pos (by simp [hid]), List.map_cons, List.nodup_cons] at hnodup
      rw [List.filter_cons_of_neg (by simp [hid]), hfresh id List.mem_cons_self hid, if_neg nofun]
      refine ih (fun key hkey => ?_) (fun key hkey hnot => ?_) hnodup.2
      · exact ((Agree.cons_right hp (Agree.refl known) hid) key hkey).symm.trans (hknown key hkey)
      · have hne : key.same id = false := by
          rw [Id.same_eq_false_iff]
          intro heq
          refine hnodup.1 (heq ▸ List.mem_map_of_mem (List.mem_filter.2 ⟨hkey, ?_⟩))
          simp [hnot]
        rw [isKnown_cons, hne, hrest key hkey hnot, Bool.or_false]

end Validation
end ShiftBarrier
