import ShiftBarrier.Proofs.Building
import ShiftBarrier.Proofs.WellFormed

/-!
# Reading makes well-formed modules

The numbering of a text gives a valid id to every name in it, and all of these ids are reserved
before the first instruction is added.  So every module that is read is well-formed
(`Assembly.wellFormed_of_parse`).

The induction is over the instructions of the text.  While a function is open it counts as the last
function of the module (`Builder.whole`), so that every step adds one instruction, one label, or
nothing.
-/

set_option autoImplicit false

namespace ShiftBarrier

/-! ## Numbering

Names get ids from 1 on, all of them different unless two names spell one number. -/

namespace Numbering

theorem mem_assign {taken : List Nat} {names : List String} {n : Nat} {name : String}
    (h : name ∈ names) : name ∈ (assign taken names n).map Prod.fst := by
  induction names generalizing n with
  | nil => exact absurd h List.not_mem_nil
  | cons first names ih =>
    rw [assign, List.map_cons]
    rcases List.mem_cons.1 h with rfl | h
    · exact List.mem_cons_self
    · exact List.mem_cons_of_mem _ (ih h)

theorem numericId_eq_ok_iff {name : String} {line : Nat} {id : Id} :
    numericId name line = .ok id ↔ ∃ k, Decimal.toNat name.toList = .ok k ∧ 0 < k ∧
      k ≤ Settings.maxIdWord ∧ id = ⟨k, none⟩ := by
  rw [numericId, bind_eq_ok_iff]
  constructor
  · rintro ⟨k, hk, h⟩
    cases htoNat : Decimal.toNat name.toList with
    | error e => rw [htoNat] at hk; cases hk
    | ok k' =>
      rw [htoNat] at hk
      cases hk
      split at h
      · next hrange =>
        cases h
        exact ⟨k, rfl, hrange.1, hrange.2, rfl⟩
      · cases h
  · rintro ⟨k, hk, hpos, hle, rfl⟩
    refine ⟨k, ?_, if_pos ⟨hpos, hle⟩⟩
    rw [hk]
    rfl

/-- The numbers of names that are no numbers are all different, and none of them is taken. -/
theorem mem_assign_spec {taken : List Nat} {names : List String} {n : Nat} {entry : String × Id}
    (h : entry ∈ assign taken names n) :
    entry.1 ∈ names ∧ entry.2.name = some entry.1 ∧ n ≤ entry.2.number ∧
      entry.2.number ∉ taken := by
  induction names generalizing n with
  | nil => exact absurd h List.not_mem_nil
  | cons name names ih =>
    rw [assign] at h
    have hle := le_nextFree taken.length taken n
    rcases List.mem_cons.1 h with rfl | h
    · exact ⟨List.mem_cons_self, rfl, hle, nextFree_not_mem (Nat.le_refl _) n⟩
    · obtain ⟨hname, hsome, hge, hfree⟩ := ih h
      exact ⟨List.mem_cons_of_mem _ hname, hsome, by omega, hfree⟩

theorem nodup_assign (taken : List Nat) (names : List String) (n : Nat) :
    ((assign taken names n).map (·.2.number)).Nodup := by
  induction names generalizing n with
  | nil => exact List.nodup_nil
  | cons name names ih =>
    rw [assign, List.map_cons, List.nodup_cons]
    refine ⟨fun hmem => ?_, ih _⟩
    obtain ⟨entry, hentry, heq⟩ := List.mem_map.1 hmem
    have hge := (mem_assign_spec hentry).2.2.1
    exact absurd heq (Nat.ne_of_gt hge)

/-- The two kinds of entries of a numbering: numbers, and names that were given free numbers. -/
theorem ofInstructions_spec {is : List SourceInstruction} {n : Numbering}
    (h : ofInstructions is = .ok n) :
    ∃ numbers names, n.entries = numbers ++ assign (numbers.map (·.2.number)) names 1 ∧
      (∀ entry ∈ numbers, isNumeric entry.1 = true ∧ ∃ line, numericId entry.1 line = .ok entry.2) ∧
      ∀ name ∈ names, isNumeric name = false := by
  rw [ofInstructions, bind_eq_ok_iff] at h
  obtain ⟨numbers, hnumbers, h⟩ := h
  cases h
  rw [List.partition_eq_filter_filter] at hnumbers ⊢
  refine ⟨numbers, _, rfl, fun entry hentry => ?_, fun name hname => ?_⟩
  · obtain ⟨⟨name, line⟩, hmem, hread⟩ := exists_of_mem_result hnumbers hentry
    rw [bind_eq_ok_iff] at hread
    obtain ⟨id, hid, heq⟩ := hread
    cases heq
    exact ⟨(List.mem_filter.1 hmem).2, line, hid⟩
  · rw [List.mem_eraseDups] at hname
    obtain ⟨⟨name, line⟩, hmem, rfl⟩ := List.mem_map.1 hname
    simpa using (List.mem_filter.1 hmem).2

variable {is : List SourceInstruction} {n : Numbering} {name : String}

theorem pos_of_mem_ids (h : ofInstructions is = .ok n) {id : Id} (hid : id ∈ n.ids) :
    0 < id.number := by
  obtain ⟨numbers, names, hentries, hnumbers, -⟩ := ofInstructions_spec h
  obtain ⟨entry, hentry, rfl⟩ := List.mem_map.1 hid
  rw [hentries] at hentry
  rcases List.mem_append.1 hentry with hentry | hentry
  · obtain ⟨-, line, hread⟩ := hnumbers entry hentry
    obtain ⟨k, -, hpos, -, heq⟩ := numericId_eq_ok_iff.1 hread
    exact heq ▸ hpos
  · exact (mem_assign_spec hentry).2.2.1

/-- Every name in the text is numbered. -/
theorem mem_names (h : ofInstructions is = .ok n) {i : SourceInstruction} (hi : i ∈ is)
    (hname : name ∈ i.references) : name ∈ n.entries.map Prod.fst := by
  rw [ofInstructions, bind_eq_ok_iff] at h
  obtain ⟨numbers, hnumbers, h⟩ := h
  cases h
  have hreference : (name, i.line) ∈ is.flatMap fun i => i.references.map (·, i.line) :=
    List.mem_flatMap.2 ⟨i, hi, List.mem_map.2 ⟨name, hname, rfl⟩⟩
  rw [List.partition_eq_filter_filter] at hnumbers ⊢
  rw [List.map_append, List.mem_append]
  by_cases hn : isNumeric name
  · obtain ⟨entry, hentry, hread⟩ :=
      exists_result_of_mem hnumbers (List.mem_filter.2 ⟨hreference, hn⟩)
    rw [bind_eq_ok_iff] at hread
    obtain ⟨number, -, heq⟩ := hread
    cases heq
    exact .inl (List.mem_map.2 ⟨_, hentry, rfl⟩)
  · refine .inr (mem_assign ?_)
    rw [List.mem_eraseDups]
    exact List.mem_map.2 ⟨_, List.mem_filter.2 ⟨hreference, by simpa using hn⟩, rfl⟩

theorem exists_entry (h : name ∈ n.entries.map Prod.fst) :
    ∃ entry ∈ n.entries, entry.1 = name ∧ entry.2 = n.id name := by
  obtain ⟨entry, hentry, rfl⟩ := List.mem_map.1 h
  rw [id]
  cases hlookup : n.entries.lookup entry.1 with
  | none =>
    rw [List.lookup_eq_none_iff] at hlookup
    exact absurd (hlookup entry hentry) (by simp)
  | some found =>
    obtain ⟨before, after, heq, -⟩ := List.lookup_eq_some_iff.1 hlookup
    exact ⟨(entry.1, found), by rw [heq]; simp, rfl, rfl⟩

theorem id_mem_ids (h : name ∈ n.entries.map Prod.fst) : n.id name ∈ n.ids := by
  obtain ⟨entry, hentry, -, heq⟩ := exists_entry h
  exact List.mem_map.2 ⟨entry, hentry, heq⟩

end Numbering

/-! ## Instructions -/

theorem SourceOperand.id?_eq_none_of_ofToken {t : Token} {operand : Operand}
    (h : ofToken t = .ok (.value operand)) : operand.id? = none := by
  rw [ofToken] at h
  split at h
  · cases h
  · cases h; rfl
  · cases h; rfl
  · cases h; rfl
  · rw [bind_eq_ok_iff] at h
    obtain ⟨n, -, h⟩ := h
    cases h; rfl
  · rw [bind_eq_ok_iff] at h
    obtain ⟨s, -, h⟩ := h
    cases h; rfl
  · cases h; rfl

namespace SourceInstruction

/-- Ids are written as names only: no operand is an id already. -/
def NamesOnly (i : SourceInstruction) : Prop :=
  ∀ operand, SourceOperand.value operand ∈ i.operands → operand.id? = none

theorem namesOnly_of_ofStatement {s : Statement} {i : SourceInstruction}
    (h : ofStatement s = .ok i) : i.NamesOnly := by
  rw [ofStatement, bind_eq_ok_iff] at h
  obtain ⟨operands, hoperands, h⟩ := h
  cases h
  intro operand hmem
  obtain ⟨token, -, htoken⟩ := exists_of_mem_result hoperands hmem
  exact SourceOperand.id?_eq_none_of_ofToken htoken

end SourceInstruction

namespace Assembly

variable {n : Numbering} {i : SourceInstruction}

/-- The ids among resolved operands are those of the names in the source. -/
theorem exists_name_of_id {id : Id} (hi : i.NamesOnly)
    (h : Operand.id id ∈ i.operands.map (resolveOperand n)) :
    ∃ name ∈ i.references, n.id name = id := by
  obtain ⟨operand, hoperand, heq⟩ := List.mem_map.1 h
  cases operand with
  | name name =>
    cases heq
    refine ⟨name, List.mem_append_right _ ?_, rfl⟩
    exact List.mem_filterMap.2 ⟨_, hoperand, rfl⟩
  | value operand =>
    rw [resolveOperand] at heq
    subst heq
    exact absurd (hi _ hoperand) (by simp [Operand.id?])

theorem exists_name_of_mention {j : Instruction} (hi : i.NamesOnly) (h : resolve n i = .ok j)
    {id : Id} (hid : id ∈ j.mentions) : ∃ name ∈ i.references, n.id name = id := by
  have hj := resolve_eq_ok_iff.1 h
  rcases List.mem_append.1 hid with hresult | huse
  · rw [hj.result, Option.mem_toList, Option.map_eq_some_iff] at hresult
    obtain ⟨name, hname, rfl⟩ := hresult
    exact ⟨name, List.mem_append_left _ (Option.mem_toList.2 hname), rfl⟩
  · rw [hj.uses_eq] at huse
    obtain ⟨operand, hoperand, heq⟩ := List.mem_filterMap.1 huse
    cases operand with
    | id other =>
      cases heq
      exact exists_name_of_id hi hoperand
    | _ => cases heq

/-! ## Structure

What is kept by every addition holds of the module that is read: ids below the bound, and serial
numbers apart. -/

namespace Builder

/-- The module with the function that is still open as its last one. -/
def whole (b : Builder) : Module :=
  match b.current with
  | none => b.built
  | some f => b.built.withFunction f

theorem whole_of_none {b : Builder} (h : b.current = none) : b.whole = b.built := by
  rw [whole, h]

theorem whole_of_some {b : Builder} {f : Function} (h : b.current = some f) :
    b.whole = b.built.withFunction f := by
  rw [whole, h]

@[simp] theorem whole_bound (b : Builder) : b.whole.bound = b.built.bound := by
  rw [whole]
  split <;> rfl

@[simp] theorem whole_nextSerial (b : Builder) : b.whole.nextSerial = b.built.nextSerial := by
  rw [whole]
  split <;> rfl

/-- What every step of the construction keeps. -/
structure Good (bound : Nat) (b : Builder) : Prop where
  wellFormed : b.whole.WellFormed
  bound_eq : b.built.bound = bound

variable {bound : Nat} {b b' : Builder} {j : Instruction}

/-- A function is opened. -/
theorem Good.addDefinition {id : Id} (h : Good bound b) (hcurrent : b.current = none)
    (hj : ∀ id ∈ j.mentions, id.Below bound) :
    Good bound ⟨(b.built.adopt j).2, some { id, definition := (b.built.adopt j).1 }⟩ := by
  have hwhole := whole_of_none hcurrent
  refine ⟨?_, h.bound_eq⟩
  refine h.wellFormed.addInstruction (i := { j with serial := b.built.nextSerial }) ?_ ?_
    ?_ ?_ ?_ ?_
  · rw [hwhole, whole_of_some rfl, Module.instructions_withFunction]
    exact List.perm_append_singleton _ _
  · rw [hwhole, whole_of_some rfl, Module.labels_withFunction]
    exact List.append_nil _
  · simp [Module.adopt]
  · simp
  · simp [Module.adopt]
  · rw [whole_bound]
    exact h.bound_eq ▸ hj

/-- A label is added to the open function. -/
theorem Good.addLabel {f : Function} {label : Id} (h : Good bound b) (hcurrent : b.current = some f)
    (hlabel : label.Below bound) :
    Good bound ⟨b.built, some { f with blocks := f.blocks ++ [{ label }] }⟩ := by
  have hwf : (b.built.withFunction f).WellFormed := whole_of_some hcurrent ▸ h.wellFormed
  let f' : Function := { f with blocks := f.blocks ++ [{ label }] }
  have hinstructions : (b.built.withFunction f').instructions
      = (b.built.withFunction f).instructions := by
    rw [Module.instructions_withFunction, Module.instructions_withFunction]
    simp [f', Function.instructions]
  refine ⟨?_, h.bound_eq⟩
  rw [whole_of_some rfl]
  refine ⟨hwf.bound_pos, ?_, ?_, ?_, ?_⟩
  · rw [hinstructions]
    exact hwf.below
  · intro id hid
    rw [Module.labels_withFunction, Function.labels, List.map_append, ← List.append_assoc,
      List.mem_append] at hid
    rcases hid with hid | hid
    · refine hwf.labels_below id ?_
      rwa [Module.labels_withFunction]
    · rw [List.mem_singleton.1 hid]
      exact h.bound_eq.symm ▸ hlabel
  · rw [hinstructions]
    exact hwf.nodup_serials
  · rw [hinstructions]
    exact hwf.serial_lt

/-- An instruction is added to the open function. -/
theorem Good.addToFunction {f f' : Function} (h : Good bound b) (hcurrent : b.current = some f)
    (hj : ∀ id ∈ j.mentions, id.Below bound)
    (hperm : f'.instructions.Perm ({ j with serial := b.built.nextSerial } :: f.instructions))
    (hlabels : f'.labels = f.labels) :
    Good bound ⟨(b.built.adopt j).2, some f'⟩ := by
  have hwhole := whole_of_some hcurrent
  refine ⟨?_, h.bound_eq⟩
  refine h.wellFormed.addInstruction (i := { j with serial := b.built.nextSerial }) ?_ ?_
    ?_ ?_ ?_ ?_
  · rw [hwhole, whole_of_some rfl, Module.instructions_withFunction,
      Module.instructions_withFunction]
    exact (hperm.append_left _).trans List.perm_middle
  · rw [hwhole, whole_of_some rfl, Module.labels_withFunction, Module.labels_withFunction, hlabels]
    rfl
  · simp [Module.adopt]
  · simp
  · simp [Module.adopt]
  · rw [whole_bound]
    exact h.bound_eq ▸ hj

theorem Good.added (h : Good bound b) (hj : ∀ id ∈ j.mentions, id.Below bound)
    (hadd : Added b j b') : Good bound b' := by
  have hbelow : ∀ id ∈ j.mentions, id.Below b.built.bound := h.bound_eq ▸ hj
  cases hadd with
  | preamble hcurrent =>
    have hwf : b.built.WellFormed := whole_of_none hcurrent ▸ h.wellFormed
    exact ⟨hwf.addPreamble hbelow, h.bound_eq⟩
  | global hcurrent =>
    have hwf : b.built.WellFormed := whole_of_none hcurrent ▸ h.wellFormed
    exact ⟨hwf.addGlobal hbelow, h.bound_eq⟩
  | definition hcurrent => exact h.addDefinition hcurrent hj
  | @ending f hcurrent =>
    -- the function that was open is the last one now
    have hwf : (b.built.withFunction f).WellFormed := whole_of_some hcurrent ▸ h.wellFormed
    exact ⟨hwf, h.bound_eq⟩
  | label hcurrent _ hresult =>
    exact h.addLabel hcurrent (hj _ (List.mem_append_left _ (Option.mem_toList.2 hresult)))
  | param hcurrent _ hblocks =>
    refine h.addToFunction hcurrent hj ?_ rfl
    simp only [Function.instructions, hblocks, List.flatMap_nil, List.append_nil]
    exact (List.Perm.cons _ (List.perm_append_singleton _ _)).trans (.swap _ _ _)
  | body hcurrent _ hblocks =>
    refine h.addToFunction hcurrent hj ?_ (labels_appendToLast _ _)
    simp only [Function.instructions]
    rw [instructions_appendToLast hblocks, ← List.append_assoc]
    exact List.perm_append_singleton _ _

end Builder

/-- Reserving ids keeps the empty module well-formed. -/
theorem Builder.good_start (settings : Settings) (ids : List Id) :
    Good (ids.foldl Module.reserve (Module.empty settings)).bound
      { built := ids.foldl Module.reserve (Module.empty settings) } := by
  have hcontents : ∀ (m : Module), m.instructions = [] ∧ m.labels = [] →
      (ids.foldl Module.reserve m).instructions = [] ∧
        (ids.foldl Module.reserve m).labels = [] := by
    induction ids with
    | nil => exact fun _ => id
    | cons id ids ih => exact fun m hm => ih (m.reserve id) hm
  obtain ⟨hinstructions, hlabels⟩ := hcontents (Module.empty settings) ⟨rfl, rfl⟩
  have hbound := (Module.bound_foldl_reserve (Module.empty settings) ids).1
  refine ⟨⟨Nat.lt_of_lt_of_le Nat.one_pos hbound, ?_, ?_, ?_, ?_⟩, rfl⟩
  · rw [whole_of_none rfl, hinstructions]
    exact fun i hi => absurd hi List.not_mem_nil
  · rw [whole_of_none rfl, hlabels]
    exact fun id hid => absurd hid List.not_mem_nil
  · rw [whole_of_none rfl, hinstructions]
    exact List.nodup_nil
  · rw [whole_of_none rfl, hinstructions]
    exact fun i hi => absurd hi List.not_mem_nil

theorem wellFormed_of_build {settings : Settings} {is : List SourceInstruction} {m : Module}
    (hnames : ∀ i ∈ is, i.NamesOnly) (h : build settings is = .ok m) : m.WellFormed := by
  obtain ⟨n, hn, -⟩ := bind_eq_ok_iff.1 h
  have hgood := build_invariant (Builder.Good _) h hn (Builder.good_start settings n.ids)
    fun i hi j b b' hj hadd hb => by
      refine hb.added (fun id hid => ?_) hadd
      obtain ⟨name, hname, rfl⟩ := exists_name_of_mention (hnames i hi) hj hid
      have hmem := Numbering.id_mem_ids (Numbering.mem_names hn hi hname)
      exact ⟨Numbering.pos_of_mem_ids hn hmem, (Module.bound_foldl_reserve _ _).2 _ hmem⟩
  exact hgood.wellFormed

/-- **A module that is read is well-formed.** -/
theorem wellFormed_of_parse {settings : Settings} {source : String} {m : Module}
    (h : parse settings source = .ok m) : m.WellFormed := by
  rw [parse, bind_eq_ok_iff] at h
  obtain ⟨statements, -, h⟩ := h
  rw [bind_eq_ok_iff] at h
  obtain ⟨is, his, hbuild⟩ := h
  rw [mapError_eq_ok_iff] at his
  refine wellFormed_of_build (fun i hi => ?_) hbuild
  obtain ⟨s, -, hs⟩ := exists_of_mem_result his hi
  exact SourceInstruction.namesOnly_of_ofStatement hs

end Assembly
end ShiftBarrier
