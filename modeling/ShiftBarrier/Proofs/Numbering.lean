import Mathlib.Data.Nat.Nth
import ShiftBarrier.Proofs.Listing.Diagnosis
import ShiftBarrier.Proofs.Listing.Printable

/-!
# The numbers of names

A name made of digits keeps the number it spells.  The other names share out the numbers that are
left, in the order of their first appearance.

* `Numbering.value` is the number that digits spell, `Numbering.taken` lists the numbers in a text.
* `Numbering.Free` says of a number that it is left, `Numbering.named` lists the names that need
  one.
* `Numbering.assign_eq` says which of the free numbers each of them gets: the cursor of the
  assignment has passed as many free numbers as names.
* `Numbering.numbers_of_names` puts it together: when a text can be numbered, where the numbering
  stops otherwise, which number a name gets, and what remains for the ids to come.
-/

set_option autoImplicit false

namespace ShiftBarrier
namespace Numbering

/-! ## Names in a text -/

/-- The names in a text, an instruction's result before its operands, with their lines. -/
def occurrences (is : List SourceInstruction) : List (String × Nat) :=
  is.flatMap fun i => i.references.map (·, i.line)

/-- The names of a text, as often as they are mentioned. -/
def names (is : List SourceInstruction) : List String := is.flatMap SourceInstruction.references

/-- The number that a name made of digits spells; leading zeros do not count. -/
def value (name : String) : Nat := Nat.ofDigitChars 10 name.toList 0

/-- A name that spells the number of an id. -/
def InRange (name : String) : Prop := 0 < value name ∧ value name ≤ Settings.maxIdWord

instance (name : String) : Decidable (InRange name) := inferInstanceAs (Decidable (_ ∧ _))

/-- The numbers that are spelled out somewhere in a text. -/
def taken (is : List SourceInstruction) : List Nat := ((names is).filter isNumeric).map value

/-- The names that need a number, each where it appears first. -/
def named (is : List SourceInstruction) : List String :=
  ((names is).filter fun name => !isNumeric name).eraseDups

/-- A number that an id may have and that is not taken. -/
def Free (taken : List Nat) (k : Nat) : Prop := 0 < k ∧ k ∉ taken

instance (taken : List Nat) : DecidablePred (Free taken) :=
  fun _ => inferInstanceAs (Decidable (_ ∧ _))

variable {is : List SourceInstruction} {n : Numbering} {name : String}

theorem names_eq (is : List SourceInstruction) : names is = (occurrences is).map Prod.fst := by
  simp [names, occurrences, List.map_flatMap, Function.comp_def]

theorem filter_names (p : String → Bool) (is : List SourceInstruction) :
    (names is).filter p = ((occurrences is).filter (p ·.1)).map Prod.fst := by
  rw [names_eq, List.filter_map]
  rfl

theorem mem_named : name ∈ named is ↔ name ∈ names is ∧ isNumeric name = false := by
  rw [named, List.mem_eraseDups, List.mem_filter, Bool.not_eq_true']

theorem nodup_eraseDups (names : List String) : names.eraseDups.Nodup := by
  induction hlength : names.length using Nat.strongRecOn generalizing names with
  | _ length ih =>
    cases names with
    | nil => exact List.nodup_nil
    | cons name names =>
      rw [List.eraseDups_cons, List.nodup_cons, List.mem_eraseDups]
      refine ⟨fun hmem => ?_, ih _ ?_ _ rfl⟩
      · simpa using (List.mem_filter.1 hmem).2
      · rw [← hlength, List.length_cons]
        exact Nat.lt_succ_of_le (List.length_filter_le _ _)

/-! ## Numbers that are spelled out -/

theorem numericId_of_short (h : name.toList.length ≤ Decimal.maxDigits) (line : Nat) :
    numericId name line = if InRange name then .ok ⟨value name, none⟩
      else .error (.syntaxFault (.idOutOfRange name line)) := by
  have hread : Decimal.toNat name.toList = .ok (value name) := if_pos h
  rw [numericId, hread]
  rfl

/-! ## Numbers that are left

The search looks at one number after the other.  It is compared with the order of all free numbers,
of which the name at place `k` gets the one at place `k`. -/

section Free

variable {count k : Nat} {taken : List Nat}

/-- The search for a free number passes over taken ones only. -/
theorem mem_of_lt_nextFree {m : Nat} (hle : m ≤ k) (hlt : k < nextFree count taken m) :
    k ∈ taken := by
  induction count generalizing taken m with
  | zero => exact absurd hlt (Nat.not_lt.2 hle)
  | succ count ih =>
    rw [nextFree] at hlt
    split at hlt
    · next hmem =>
      rcases Nat.eq_or_lt_of_le hle with rfl | hgt
      · exact hmem
      · exact List.mem_of_mem_erase (ih hgt hlt)
    · exact absurd hlt (Nat.not_lt.2 hle)

/-- So it passes over no free number. -/
theorem count_nextFree (m : Nat) :
    Nat.count (Free taken) (nextFree count taken m) = Nat.count (Free taken) m := by
  have hpassed : ∀ j, m ≤ j → j ≤ nextFree count taken m →
      Nat.count (Free taken) j = Nat.count (Free taken) m := by
    intro j hj
    induction j, hj using Nat.le_induction with
    | base => exact fun _ => rfl
    | succ j hj ih =>
      intro hle
      have hmem : j ∈ taken := mem_of_lt_nextFree hj hle
      rw [Nat.count_succ, if_neg fun hfree => hfree.2 hmem, Nat.add_zero]
      exact ih (Nat.le_of_succ_le hle)
  exact hpassed _ (le_nextFree _ _ _) (Nat.le_refl _)

/-- **The names take the free numbers one after the other**, from the first one that the cursor has
not passed. -/
theorem assign_eq (names : List String) {m : Nat} (hm : 0 < m) :
    assign taken names m = names.mapIdx fun k name =>
      (name, ⟨Nat.nth (Free taken) (Nat.count (Free taken) m + k), some name⟩) := by
  induction names generalizing m with
  | nil => rfl
  | cons name names ih =>
    rw [assign, List.mapIdx_cons, ih (Nat.succ_pos _)]
    set number := nextFree taken.length taken m
    have hfree : Free taken number :=
      ⟨Nat.lt_of_lt_of_le hm (le_nextFree _ _ _), nextFree_not_mem (Nat.le_refl _) m⟩
    have hcount : Nat.count (Free taken) number = Nat.count (Free taken) m := count_nextFree m
    have hnth : Nat.nth (Free taken) (Nat.count (Free taken) m + 0) = number := by
      rw [Nat.add_zero, ← hcount, Nat.nth_count hfree]
    have hnext : Nat.count (Free taken) (number + 1) = Nat.count (Free taken) m + 1 := by
      rw [Nat.count_succ, if_pos hfree, hcount]
    simp only [hnth, hnext, Nat.add_right_comm, Nat.add_assoc]

end Free

/-! ## Numberings

Numbers that are spelled out are checked before any name is given one, so the first of them that is
out of range decides. -/

/-- No name that is a number is too long to be read. -/
def Short (is : List SourceInstruction) : Prop :=
  ∀ name ∈ names is, isNumeric name → name.toList.length ≤ Decimal.maxDigits

/-- What a text is numbered with, if all of its numbers are those of ids. -/
noncomputable def ofNames (is : List SourceInstruction) : Numbering :=
  ⟨((names is).filter isNumeric).map (fun name => (name, ⟨value name, none⟩))
    ++ (named is).mapIdx fun k name => (name, ⟨Nat.nth (Free (taken is)) k, some name⟩)⟩

/-- The entry of a name that is a number. -/
def entryOf (o : String × Nat) : Except Error (String × Id) :=
  if InRange o.1 then .ok (o.1, ⟨value o.1, none⟩)
  else .error (.syntaxFault (.idOutOfRange o.1 o.2))

theorem ofInstructions_of_short (hshort : Short is) :
    ofInstructions is = (do
      let numbers ← ((occurrences is).filter (isNumeric ·.1)).mapM entryOf
      return ⟨numbers ++ assign (numbers.map (·.2.number)) (named is) 1⟩) := by
  have hentry : ((occurrences is).filter (isNumeric ·.1)).mapM entryOf =
      ((occurrences is).filter (isNumeric ·.1)).mapM
        fun o => do return (o.1, ← numericId o.1 o.2) := by
    refine mapM_congr fun o ho => ?_
    obtain ⟨hmem, hnumeric⟩ := List.mem_filter.1 ho
    have hname : o.1 ∈ names is := by
      rw [names_eq]
      exact List.mem_map_of_mem hmem
    rw [numericId_of_short (hshort o.1 hname hnumeric), entryOf]
    split <;> rfl
  rw [hentry, named, filter_names, ofInstructions, List.partition_eq_filter_filter]
  rfl

theorem ofInstructions_of_inRange (hshort : Short is)
    (h : ∀ name ∈ names is, isNumeric name → InRange name) :
    ofInstructions is = .ok (ofNames is) := by
  have hnumbers : ((occurrences is).filter (isNumeric ·.1)).mapM entryOf =
      .ok (((occurrences is).filter (isNumeric ·.1)).map fun o => (o.1, ⟨value o.1, none⟩)) := by
    rw [mapM_eq_ok_iff, List.forall₂_map_right_iff, List.forall₂_same]
    intro o ho
    obtain ⟨hmem, hnumeric⟩ := List.mem_filter.1 ho
    refine if_pos (h o.1 ?_ hnumeric)
    rw [names_eq]
    exact List.mem_map_of_mem hmem
  rw [ofInstructions_of_short hshort]
  refine bind_eq_ok_iff.2 ⟨_, hnumbers, ?_⟩
  have hzero : Nat.count (Free (taken is)) 1 = 0 := by
    rw [Nat.count_succ, if_neg fun hfree => Nat.lt_irrefl 0 hfree.1, Nat.count_zero]
  simp only [assign_eq _ Nat.one_pos, ofNames, taken, filter_names, List.map_map,
    Function.comp_def, pure, Except.pure] at hzero ⊢
  simp only [hzero, Nat.zero_add]

/-- **The numbering stops at the first number that is none of an id.** -/
theorem ofInstructions_eq_error_iff (hshort : Short is) {e : Error} :
    ofInstructions is = .error e ↔ ∃ before name line after,
      occurrences is = before ++ (name, line) :: after ∧
      (∀ o ∈ before, isNumeric o.1 → InRange o.1) ∧
      isNumeric name ∧ ¬ InRange name ∧ e = .syntaxFault (.idOutOfRange name line) := by
  have hok : ∀ o, (∃ entry, entryOf o = .ok entry) ↔ InRange o.1 := by
    intro o
    rw [entryOf]
    split
    · next h => exact iff_of_true ⟨_, rfl⟩ h
    · next h => exact iff_of_false (by rintro ⟨_, ⟨⟩⟩) h
  have herror : ∀ o, entryOf o = .error e ↔
      ¬ InRange o.1 ∧ e = .syntaxFault (.idOutOfRange o.1 o.2) := by
    intro o
    rw [entryOf]
    split
    · next h => exact iff_of_false nofun fun h' => h'.1 h
    · next h => exact ⟨fun heq => ⟨h, (Except.error.inj heq).symm⟩, fun h' => h'.2 ▸ rfl⟩
  rw [ofInstructions_of_short hshort, bind_eq_error_iff, or_iff_left (by rintro ⟨_, -, ⟨⟩⟩),
    mapM_eq_error_iff]
  simp only [hok, herror]
  constructor
  · rintro ⟨_, ⟨name, line⟩, _, hsplit, hbefore, hout⟩
    obtain ⟨before, rest, hocc, rfl, hrest⟩ := List.filter_eq_append_iff.1 hsplit
    obtain ⟨between, after, rfl, hbetween, hnumeric, -⟩ := List.filter_eq_cons_iff.1 hrest
    refine ⟨before ++ between, name, line, after, by simp [hocc], fun o ho hnum => ?_, hnumeric,
      hout⟩
    rcases List.mem_append.1 ho with ho | ho
    · exact hbefore o (List.mem_filter.2 ⟨ho, hnum⟩)
    · exact absurd hnum (hbetween o ho)
  · rintro ⟨before, name, line, after, hocc, hbefore, hnumeric, hout⟩
    refine ⟨before.filter (isNumeric ·.1), (name, line), after.filter (isNumeric ·.1), ?_,
      fun o ho => ?_, hout⟩
    · rw [hocc, List.filter_append]
      exact congrArg _ (List.filter_cons_of_pos hnumeric)
    · exact hbefore o (List.mem_filter.1 ho).1 (List.mem_filter.1 ho).2

/-! ## The ids of names -/

/-- The entries of a numbering: numbers for themselves, and the others in their order. -/
theorem mem_entries_ofNames {entry : String × Id} :
    entry ∈ (ofNames is).entries ↔
      (entry.1 ∈ names is ∧ isNumeric entry.1 ∧ entry.2 = ⟨value entry.1, none⟩) ∨
      ∃ k, (named is)[k]? = some entry.1 ∧
        entry.2 = ⟨Nat.nth (Free (taken is)) k, some entry.1⟩ := by
  rw [ofNames, List.mem_append]
  refine or_congr ?_ ?_
  · constructor
    · intro h
      obtain ⟨name, hname, rfl⟩ := List.mem_map.1 h
      exact ⟨(List.mem_filter.1 hname).1, (List.mem_filter.1 hname).2, rfl⟩
    · rintro ⟨hmem, hnumeric, hid⟩
      exact List.mem_map.2 ⟨entry.1, List.mem_filter.2 ⟨hmem, hnumeric⟩, by rw [← hid]⟩
  · rw [List.mem_iff_getElem?]
    simp only [List.getElem?_mapIdx, Option.map_eq_some_iff]
    constructor
    · rintro ⟨k, name, hk, rfl⟩
      exact ⟨k, hk, rfl⟩
    · rintro ⟨k, hk, hid⟩
      exact ⟨k, entry.1, hk, by rw [← hid]⟩

theorem id_of_mem_entries {entry : String × Id} (h : entry ∈ (ofNames is).entries) :
    (ofNames is).id entry.1 = entry.2 := by
  obtain ⟨found, hfound, hname, hid⟩ := exists_entry (List.mem_map_of_mem h)
  rw [← hid]
  have hother : ∀ {k : Nat}, (named is)[k]? = some entry.1 → isNumeric entry.1 = false :=
    fun hk => (mem_named.1 (List.mem_of_getElem? hk)).2
  rw [mem_entries_ofNames] at h hfound
  rw [hname] at hfound
  rcases h with ⟨-, hnumeric, hentry⟩ | ⟨k, hk, hentry⟩
  · rcases hfound with ⟨-, -, hfound⟩ | ⟨j, hj, -⟩
    · rw [hfound, hentry]
    · exact absurd (hnumeric.symm.trans (hother hj)) (by decide)
  · rcases hfound with ⟨-, hnumeric, -⟩ | ⟨j, hj, hfound⟩
    · exact absurd (hnumeric.symm.trans (hother hk)) (by decide)
    · obtain ⟨hlt, -⟩ := List.getElem?_eq_some_iff.1 hj
      have hindex : j = k := (List.getElem?_inj hlt (nodup_eraseDups _)).1 (hj.trans hk.symm)
      rw [hfound, hentry, hindex]

theorem id_numeric (h : name ∈ names is) (hnumeric : isNumeric name) :
    (ofNames is).id name = ⟨value name, none⟩ :=
  @id_of_mem_entries is (name, ⟨value name, none⟩)
    (mem_entries_ofNames.2 (.inl ⟨h, hnumeric, rfl⟩))

theorem id_named {k : Nat} (h : (named is)[k]? = some name) :
    (ofNames is).id name = ⟨Nat.nth (Free (taken is)) k, some name⟩ :=
  @id_of_mem_entries is (name, ⟨Nat.nth (Free (taken is)) k, some name⟩)
    (mem_entries_ofNames.2 (.inr ⟨k, h, rfl⟩))

theorem mem_ids_ofNames {id : Id} :
    id ∈ (ofNames is).ids ↔ ∃ name ∈ names is, (ofNames is).id name = id := by
  constructor
  · intro h
    obtain ⟨entry, hentry, rfl⟩ := List.mem_map.1 h
    refine ⟨entry.1, ?_, id_of_mem_entries hentry⟩
    rcases mem_entries_ofNames.1 hentry with ⟨hname, -⟩ | ⟨k, hk, -⟩
    · exact hname
    · exact (mem_named.1 (List.mem_of_getElem? hk)).1
  · rintro ⟨name, hname, rfl⟩
    refine id_mem_ids (List.mem_map.2 ⟨(name, (ofNames is).id name), ?_, rfl⟩)
    cases hnumeric : isNumeric name with
    | true =>
      rw [id_numeric hname hnumeric]
      exact mem_entries_ofNames.2 (.inl ⟨hname, hnumeric, rfl⟩)
    | false =>
      obtain ⟨k, hk⟩ := List.mem_iff_getElem?.1 (mem_named.2 ⟨hname, hnumeric⟩)
      rw [id_named hk]
      exact mem_entries_ofNames.2 (.inr ⟨k, hk, rfl⟩)

/-! ## The bound of a module that is read -/

theorem le_of_foldl_reserve {ids : List Id} {m : Module} {b : Nat} (hm : m.bound ≤ b)
    (h : ∀ id ∈ ids, id.number < b) : (ids.foldl Module.reserve m).bound ≤ b := by
  induction ids generalizing m with
  | nil => exact hm
  | cons id ids ih =>
    obtain ⟨hid, hids⟩ := List.forall_mem_cons.1 h
    exact ih (Nat.max_le.2 ⟨hm, hid⟩) hids

/-- Putting instructions in place takes no ids. -/
theorem bound_of_added {b b' : Assembly.Builder} {j : Instruction} (h : b.Added j b') :
    b'.built.bound = b.built.bound := by
  cases h <;> rfl

theorem bound_of_build {settings : Settings} {m : Module} (hn : ofInstructions is = .ok n)
    (h : Assembly.build settings is = .ok m) :
    m.bound = (n.ids.foldl Module.reserve (Module.empty settings)).bound :=
  Assembly.build_invariant (fun b => b.built.bound = _) h hn rfl
    fun _ _ _ _ _ _ hadd hb => (bound_of_added hadd).trans hb

/-- The largest number that was given away bounds the ids of a module. -/
theorem bound_eq (settings : Settings) (is : List SourceInstruction) :
    ((ofNames is).ids.foldl Module.reserve (Module.empty settings)).bound =
      (((names is).map fun name => ((ofNames is).id name).number).max?.elim 1 (· + 1)) := by
  obtain ⟨hstart, hbelow⟩ :=
    Module.bound_foldl_reserve (Module.empty settings) (ofNames is).ids
  have hmem : ∀ k, k ∈ (names is).map (fun name => ((ofNames is).id name).number) ↔
      ∃ id ∈ (ofNames is).ids, id.number = k := by
    intro k
    simp only [List.mem_map, mem_ids_ofNames]
    constructor
    · rintro ⟨name, hname, rfl⟩
      exact ⟨_, ⟨name, hname, rfl⟩, rfl⟩
    · rintro ⟨_, ⟨name, hname, rfl⟩, rfl⟩
      exact ⟨name, hname, rfl⟩
  generalize (names is).map (fun name => ((ofNames is).id name).number) = numbers at hmem ⊢
  cases hmax : numbers.max? with
  | none =>
    rw [List.max?_eq_none_iff] at hmax
    refine Nat.le_antisymm (le_of_foldl_reserve (Nat.le_refl _) fun id hid => ?_) hstart
    have hnone := (hmem id.number).2 ⟨id, hid, rfl⟩
    rw [hmax] at hnone
    cases hnone
  | some k =>
    obtain ⟨hk, hle⟩ := List.max?_eq_some_iff.1 hmax
    obtain ⟨id, hid, rfl⟩ := (hmem k).1 hk
    refine Nat.le_antisymm (le_of_foldl_reserve (Nat.le_add_left _ _) fun id' hid' => ?_)
      (hbelow id hid)
    exact Nat.lt_succ_of_le (hle _ ((hmem _).2 ⟨id', hid', rfl⟩))

/-! ## Numbers of names -/

theorem mem_fst (h : ofInstructions is = .ok n) (hname : name ∈ names is) :
    name ∈ n.entries.map Prod.fst := by
  obtain ⟨i, hi, hmem⟩ := List.mem_flatMap.1 hname
  exact mem_names h hi hmem

theorem inRange_of_ok (hshort : Short is) (h : ofInstructions is = .ok n) (hname : name ∈ names is)
    (hnumeric : isNumeric name) : InRange name := by
  rcases id_spec h (mem_fst h hname) with ⟨-, k, hk, hpos, hle, -⟩ | ⟨hother, -⟩
  · rw [Decimal.toNat, if_pos (hshort name hname hnumeric)] at hk
    cases hk
    exact ⟨hpos, hle⟩
  · exact absurd (hnumeric.symm.trans hother) (by decide)

/-- Names with one number are the same name, or two spellings of the number. -/
theorem eq_or_value_eq (hshort : Short is) (h : ofInstructions is = .ok n) {name' : String}
    (hname : name ∈ names is) (hname' : name' ∈ names is) (hsame : (n.id name).same (n.id name')) :
    name = name' ∨ isNumeric name ∧ isNumeric name' ∧ value name = value name' := by
  have hvalue : ∀ {name : String} {k : Nat}, name ∈ names is → isNumeric name →
      Decimal.toNat name.toList = .ok k → value name = k := by
    intro name k hname hnumeric hk
    rw [Decimal.toNat, if_pos (hshort name hname hnumeric)] at hk
    exact Except.ok.inj hk
  have hid := id_inj h (mem_fst h hname) (mem_fst h hname') (Id.same_iff.1 hsame)
  rcases id_spec h (mem_fst h hname) with ⟨hnumeric, k, hk, -, -, heq⟩ | ⟨-, heq⟩
  · rcases id_spec h (mem_fst h hname') with ⟨hnumeric', k', hk', -, -, heq'⟩ | ⟨-, heq'⟩
    · rw [heq, heq'] at hid
      cases hid
      refine .inr ⟨hnumeric, hnumeric', ?_⟩
      rw [hvalue hname hnumeric hk, hvalue hname' hnumeric' hk']
    · rw [← hid, heq] at heq'
      cases heq'
  · rcases id_spec h (mem_fst h hname') with ⟨-, k', -, -, -, heq'⟩ | ⟨-, heq'⟩
    · rw [hid, heq'] at heq
      cases heq
    · rw [hid, heq'] at heq
      exact .inl (Option.some.inj heq).symm

/-- **A text is numbered unless it spells a number that is none of an id.**  Then names that are
numbers keep them, and the others get the numbers that are left, the first of them the least one,
and so on. -/
theorem numbers_of_names (is : List SourceInstruction) (hshort : Short is) :
    ((∃ n, ofInstructions is = .ok n) ↔ ∀ name ∈ names is, isNumeric name → InRange name) ∧
    (∀ e, ofInstructions is = .error e ↔
      ∃ (before : List (String × Nat)) (name : String) (line : Nat) (after : List (String × Nat)),
        occurrences is = before ++ (name, line) :: after ∧
        (∀ o ∈ before, isNumeric o.1 → InRange o.1) ∧
        isNumeric name ∧ ¬ InRange name ∧ e = .syntaxFault (.idOutOfRange name line)) ∧
    ∀ n, ofInstructions is = .ok n →
      (∀ name ∈ names is, isNumeric name → n.id name = ⟨value name, none⟩) ∧
      (∀ (k : Nat) (name : String), (named is)[k]? = some name →
        n.id name = ⟨Nat.nth (Free (taken is)) k, some name⟩) ∧
      (∀ name ∈ names is, ∀ name' ∈ names is, (n.id name).same (n.id name') →
        name = name' ∨ isNumeric name ∧ isNumeric name' ∧ value name = value name') ∧
      ∀ settings m, (Assembly.build settings is = .ok m ∨
          ∃ source statements, Statement.ofText source = .ok statements ∧
            statements.mapM SourceInstruction.ofStatement = .ok is ∧
            Assembly.parse settings source = .ok m) →
        m.bound = ((names is).map fun name => (n.id name).number).max?.elim 1 (· + 1) := by
  refine ⟨⟨fun ⟨n, hn⟩ name => inRange_of_ok hshort hn, fun h =>
    ⟨_, ofInstructions_of_inRange hshort h⟩⟩, fun e => ofInstructions_eq_error_iff hshort,
    fun n hn => ?_⟩
  have hsame : ∀ name ∈ names is, ∀ name' ∈ names is, (n.id name).same (n.id name') →
      name = name' ∨ isNumeric name ∧ isNumeric name' ∧ value name = value name' :=
    fun name hname name' hname' => eq_or_value_eq hshort hn hname hname'
  cases hn.symm.trans (ofInstructions_of_inRange hshort fun name => inRange_of_ok hshort hn)
  refine ⟨fun name => id_numeric, fun k name => id_named, hsame, fun settings m hm => ?_⟩
  rw [← bound_eq settings is]
  refine bound_of_build hn ?_
  rcases hm with hm | ⟨source, statements, hstatements, his, hm⟩
  · exact hm
  · obtain ⟨_, hstatements', hm⟩ := bind_eq_ok_iff.1 hm
    cases hstatements.symm.trans (mapError_eq_ok_iff.1 hstatements')
    obtain ⟨_, his', hm⟩ := bind_eq_ok_iff.1 hm
    cases his.symm.trans (mapError_eq_ok_iff.1 his')
    exact hm

/-- Two numbers, one of them spelled twice, and three names. -/
def namesSample : List SourceInstruction :=
  [⟨some "a", "OpTypeInt", [], 1⟩, ⟨some "02", "OpConstant", [.name "a"], 2⟩,
    ⟨some "b", "OpCopyObject", [.name "a", .name "2"], 3⟩,
    ⟨some "c", "OpCopyObject", [.name "a", .name "4"], 4⟩]

theorem numbers_of_names_sample : Short namesSample ∧
    ((∃ n, ofInstructions namesSample = .ok n) ↔
      ∀ name ∈ names namesSample, isNumeric name → InRange name) ∧
    ∃ n, ofInstructions namesSample = .ok n ∧ n.id "02" = ⟨2, none⟩ ∧
      n.id "c" = ⟨Nat.nth (Free [2, 2, 4]) 2, some "c"⟩ := by
  have hshort : Short namesSample := by
    simp only [Short]
    decide +kernel
  obtain ⟨hiff, -, hn⟩ := numbers_of_names namesSample hshort
  obtain ⟨n, h⟩ : ∃ n, ofInstructions namesSample = .ok n := ⟨_, rfl⟩
  obtain ⟨hnumeric, hnamed, -⟩ := hn n h
  refine ⟨hshort, hiff, n, h, hnumeric "02" (by decide +kernel) (by decide +kernel), ?_⟩
  exact hnamed 2 "c" (by decide +kernel)

end Numbering
end ShiftBarrier
