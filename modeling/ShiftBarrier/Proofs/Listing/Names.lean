import Mathlib.Data.List.Nodup
import ShiftBarrier.Proofs.Listing.Line
import ShiftBarrier.Proofs.Reading

/-!
# The ids of a text

* `Vocabulary` says of the ids of a module that each of them is written in one way, and that no two
  of them are written alike.
* `Numbering.vocabulary` establishes it for the ids that a numbering gives to the names of a text.
* `Numbering.name_id` says that the id of a name is written like it: it keeps the friendly name, and
  the number if there is none.
* `Numbering.exists_ofInstructions` says that the names of ids can be numbered.
-/

set_option autoImplicit false

namespace ShiftBarrier

namespace Id

theorem toString_inj {m n : Nat} (h : toString m = toString n) : m = n := by
  have hdigits : Nat.toDigits 10 m = Nat.toDigits 10 n := by
    simpa [Nat.toString_eq_ofList_toDigits] using congrArg String.toList h
  rw [← Nat.ofDigitChars_ten_toDigits (n := m), hdigits, Nat.ofDigitChars_ten_toDigits]

theorem isNumeric_toString (n : Nat) : Numbering.isNumeric (toString n) = true := by
  rw [Numbering.isNumeric, Nat.toString_eq_ofList_toDigits, String.toList_ofList,
    List.isEmpty_eq_false_iff.2 Nat.toDigits_ne_nil, Bool.not_false, Bool.true_and,
    List.all_eq_true]
  exact fun _ hc => Decimal.isDigit_of_mem hc

/-- A name that is a number is no friendly name. -/
theorem Spelled.isNumeric_key {i : Id} (h : i.Spelled) :
    Numbering.isNumeric i.key = i.name.isNone := by
  cases h with
  | number => exact isNumeric_toString _
  | name _ hother => exact hother

end Id

/-- Ids below a bound that a text can tell apart. -/
structure Vocabulary (bound : Nat) (ids : List Id) : Prop where
  spelled : ∀ i ∈ ids, i.Spelled
  below : ∀ i ∈ ids, i.Below bound
  /-- An id is written in one way. -/
  number_inj : ∀ i ∈ ids, ∀ j ∈ ids, i.number = j.number → i = j
  /-- No two ids are written alike. -/
  key_inj : ∀ i ∈ ids, ∀ j ∈ ids, i.key = j.key → i = j

/-- A fresh number is a new word. -/
theorem Vocabulary.take {bound : Nat} {ids : List Id} (h : Vocabulary bound ids)
    (hpos : 0 < bound) (hle : bound ≤ Settings.maxIdWord) :
    Vocabulary (bound + 1) (⟨bound, none⟩ :: ids) := by
  have hnew : Id.Spelled ⟨bound, none⟩ := .number hpos hle
  have hnumber : ∀ i ∈ ids, i.number ≠ bound := fun i hi => Nat.ne_of_lt (h.below i hi).2
  have hkey : ∀ i ∈ ids, i.key ≠ Id.key ⟨bound, none⟩ := by
    intro i hi heq
    have hnone := (h.spelled i hi).isNumeric_key
    rw [heq, hnew.isNumeric_key] at hnone
    have hname : i.name = none := Option.isNone_iff_eq_none.1 hnone.symm
    rw [Id.key, hname] at heq
    exact hnumber i hi (Id.toString_inj heq)
  refine ⟨?_, ?_, ?_, ?_⟩
  · exact List.forall_mem_cons.2 ⟨hnew, h.spelled⟩
  · refine List.forall_mem_cons.2 ⟨⟨hpos, Nat.lt_succ_self _⟩, fun i hi => ?_⟩
    exact (h.below i hi).mono (Nat.le_succ _)
  · intro i hi j hj heq
    rcases List.mem_cons.1 hi with rfl | hi
    · rcases List.mem_cons.1 hj with rfl | hj
      · rfl
      · exact absurd heq.symm (hnumber j hj)
    · rcases List.mem_cons.1 hj with rfl | hj
      · exact absurd heq (hnumber i hi)
      · exact h.number_inj i hi j hj heq
  · intro i hi j hj heq
    rcases List.mem_cons.1 hi with rfl | hi
    · rcases List.mem_cons.1 hj with rfl | hj
      · rfl
      · exact absurd heq.symm (hkey j hj)
    · rcases List.mem_cons.1 hj with rfl | hj
      · exact absurd heq (hkey i hi)
      · exact h.key_inj i hi j hj heq

namespace Numbering

/-! ## The ids of names -/

variable {is : List SourceInstruction} {n : Numbering} {name : String}

/-- What a name that is a number, and one that is none, is numbered with. -/
theorem id_spec (h : ofInstructions is = .ok n) (hname : name ∈ n.entries.map Prod.fst) :
    (isNumeric name = true ∧ ∃ k, Decimal.toNat name.toList = .ok k ∧ 0 < k ∧
      k ≤ Settings.maxIdWord ∧ n.id name = ⟨k, none⟩) ∨
    (isNumeric name = false ∧ (n.id name).name = some name) := by
  obtain ⟨numbers, names, hentries, hnumbers, hnames⟩ := ofInstructions_spec h
  obtain ⟨entry, hentry, rfl, heq⟩ := exists_entry hname
  rw [hentries] at hentry
  rcases List.mem_append.1 hentry with hentry | hentry
  · obtain ⟨hnumeric, line, hid⟩ := hnumbers entry hentry
    obtain ⟨k, hk, hpos, hle, hk'⟩ := numericId_eq_ok_iff.1 hid
    exact .inl ⟨hnumeric, k, hk, hpos, hle, heq.symm.trans hk'⟩
  · obtain ⟨hmem, hsome, -⟩ := mem_assign_spec hentry
    exact .inr ⟨hnames _ hmem, heq ▸ hsome⟩

/-- **The id of a name tells which name it is**, unless the name is a number. -/
theorem id_inj (h : ofInstructions is = .ok n) {name' : String}
    (hname : name ∈ n.entries.map Prod.fst) (hname' : name' ∈ n.entries.map Prod.fst)
    (heq : (n.id name).number = (n.id name').number) : n.id name = n.id name' := by
  obtain ⟨numbers, names, hentries, hnumbers, hnames⟩ := ofInstructions_spec h
  obtain ⟨entry, hentry, -, hid⟩ := exists_entry hname
  obtain ⟨entry', hentry', -, hid'⟩ := exists_entry hname'
  rw [← hid, ← hid'] at heq ⊢
  rw [hentries, List.mem_append] at hentry hentry'
  have hnone : ∀ e ∈ numbers, e.2.name = none := by
    intro e he
    obtain ⟨-, line, hread⟩ := hnumbers e he
    obtain ⟨k, -, -, -, hk⟩ := numericId_eq_ok_iff.1 hread
    rw [hk]
  have hfree : ∀ e ∈ numbers, ∀ e' ∈ assign (numbers.map (·.2.number)) names 1,
      e.2.number ≠ e'.2.number := by
    intro e he e' he' heq
    exact (mem_assign_spec he').2.2.2 (List.mem_map.2 ⟨e, he, heq⟩)
  rcases hentry with hentry | hentry
  · rcases hentry' with hentry' | hentry'
    · have hname := (hnone _ hentry).trans (hnone _ hentry').symm
      rcases entry with ⟨_, k, _⟩
      rcases entry' with ⟨_, k', _⟩
      cases heq
      cases hname
      rfl
    · exact absurd heq (hfree _ hentry _ hentry')
  · rcases hentry' with hentry' | hentry'
    · exact absurd heq.symm (hfree _ hentry' _ hentry)
    · rw [List.inj_on_of_nodup_map (nodup_assign _ names 1) hentry hentry' heq]

/-- The ids of the names of a text. -/
theorem vocabulary (h : ofInstructions is = .ok n) {bound : Nat}
    (hbound : ∀ id ∈ n.ids, id.number < bound) {names : List String}
    (hnames : ∀ name ∈ names, TokenKind.IsName name.toList ∧ name ∈ n.entries.map Prod.fst) :
    Vocabulary bound (names.map n.id) := by
  have hspelled : ∀ name ∈ names, (n.id name).Spelled := by
    intro name hname
    obtain ⟨hisName, hmem⟩ := hnames name hname
    rcases id_spec h hmem with ⟨-, k, -, hpos, hle, hid⟩ | ⟨hother, hid⟩
    · rw [hid]
      exact .number hpos hle
    · rcases hcases : n.id name with ⟨k, found⟩
      rw [hcases] at hid
      cases hid
      exact .name hisName hother
  refine ⟨?_, ?_, ?_, ?_⟩
  · exact List.forall_mem_map.2 hspelled
  · refine List.forall_mem_map.2 fun name hname => ?_
    have hmem := id_mem_ids (hnames name hname).2
    exact ⟨pos_of_mem_ids h hmem, hbound _ hmem⟩
  · refine List.forall_mem_map.2 fun name hname => List.forall_mem_map.2 fun name' hname' heq => ?_
    exact id_inj h (hnames name hname).2 (hnames name' hname').2 heq
  · refine List.forall_mem_map.2 fun name hname => List.forall_mem_map.2 fun name' hname' heq => ?_
    have hnone := (hspelled name hname).isNumeric_key
    rw [heq, (hspelled name' hname').isNumeric_key] at hnone
    rcases id_spec h (hnames name hname).2 with ⟨-, k, -, -, -, hid⟩ | ⟨-, hid⟩
    · rcases id_spec h (hnames name' hname').2 with ⟨-, k', -, -, -, hid'⟩ | ⟨-, hid'⟩
      · rw [hid, hid'] at heq ⊢
        exact congrArg (Id.mk · none) (Id.toString_inj heq)
      · rw [hid, hid'] at hnone
        cases hnone
    · rcases id_spec h (hnames name' hname').2 with ⟨-, k', -, -, -, hid'⟩ | ⟨-, hid'⟩
      · rw [hid, hid'] at hnone
        cases hnone
      · have hsame : name = name' := by
          rw [Id.key, Id.key, hid, hid'] at heq
          exact heq
        rw [hsame]

/-! ## Numbering the ids of a listing

Numbers are read back as numbers.  Friendly names get new numbers, all of them different. -/

theorem toNat_toString {k : Nat} (h : k ≤ Settings.maxIdWord) :
    Decimal.toNat (toString k).toList = .ok k := by
  have hlength : (Nat.toDigits 10 k).length ≤ Decimal.maxDigits :=
    (Nat.length_toDigits_le_iff (by decide) (by decide)).2 (Nat.lt_of_le_of_lt h
      (Nat.lt_of_lt_of_le (by decide : Settings.maxIdWord < 10 ^ 10)
        (Nat.pow_le_pow_right (by decide) (by decide))))
  rw [Nat.toString_eq_ofList_toDigits, String.toList_ofList, Decimal.toNat, if_pos hlength,
    Nat.ofDigitChars_ten_toDigits]

/-- **The id of a name is written like it.** -/
theorem name_id (h : ofInstructions is = .ok n) {i : Id} (hi : i.Spelled)
    (hmem : i.key ∈ n.entries.map Prod.fst) :
    (n.id i.key).name = i.name ∧ (i.name = none → n.id i.key = i) := by
  have hnumeric := hi.isNumeric_key
  cases hi with
  | @number k hpos hle =>
    rcases id_spec h hmem with ⟨-, k', hk', -, -, hid⟩ | ⟨hother, -⟩
    · have hkey : Id.key ⟨k, none⟩ = toString k := rfl
      rw [hkey, toNat_toString hle] at hk'
      cases hk'
      rw [hid]
      exact ⟨rfl, fun _ => rfl⟩
    · rw [hother] at hnumeric
      cases hnumeric
  | @name k name hname hother =>
    rcases id_spec h hmem with ⟨hnum, -⟩ | ⟨-, hid⟩
    · exact absurd (hnum.symm.trans hother) (by decide)
    · exact ⟨hid, nofun⟩

/-- **The names of ids can be numbered.** -/
theorem exists_ofInstructions
    (h : ∀ i ∈ is, ∀ name ∈ i.references, ∃ id : Id, id.Spelled ∧ id.key = name) :
    ∃ n, ofInstructions is = .ok n := by
  have hnumeric : ∀ reference ∈ (is.flatMap fun i => i.references.map (·, i.line)).filter
      (fun reference => isNumeric reference.1),
      ∃ entry, (do return (reference.1, ← numericId reference.1 reference.2) :
        Except Error (String × Id)) = .ok entry := by
    rintro ⟨name, line⟩ hmem
    obtain ⟨hmem, hnum⟩ := List.mem_filter.1 hmem
    obtain ⟨i, hi, hmem⟩ := List.mem_flatMap.1 hmem
    obtain ⟨name', hname', heq⟩ := List.mem_map.1 hmem
    cases heq
    obtain ⟨id, hspelled, rfl⟩ := h i hi name hname'
    cases hspelled with
    | @number k hpos hle =>
      have hread : numericId (Id.key ⟨k, none⟩) i.line = .ok ⟨k, none⟩ :=
        numericId_eq_ok_iff.2 ⟨k, toNat_toString hle, hpos, hle, rfl⟩
      exact ⟨_, by rw [hread]; rfl⟩
    | name _ hother => exact absurd (hnum.symm.trans hother) (by decide)
  obtain ⟨numbers, hnumbers⟩ := exists_mapM_eq_ok hnumeric
  rw [ofInstructions, List.partition_eq_filter_filter]
  exact ⟨_, bind_eq_ok_iff.2 ⟨numbers, hnumbers, rfl⟩⟩

end Numbering
end ShiftBarrier
