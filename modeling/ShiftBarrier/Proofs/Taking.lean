import ShiftBarrier.Proofs.Validation
import ShiftBarrier.Proofs.WellFormed

/-!
# Where ids come from

Whatever is done to a module, its ids come of two things: they are taken, each being the bound of
that moment, or they are reserved.  An id that is taken is used at once if it is used at all.

* `Mark` is an id that was taken or reserved, `Module.Act` a change of a module with its mark, and
  `Module.Acts` a run of changes with the list of their marks.
* `Module.WellFormed.acts` says that every mention of an id stays below the bound, and
  `Module.Acts.redefined_eq` that the ids which are defined again stay the same.
* `Module.Acts.taken` is what is known of each id that was taken: it is new to the module, and
  larger than all that were taken or reserved before.
-/

set_option autoImplicit false

namespace ShiftBarrier

open Validation

/-- An id that was taken from a module as it was at that moment, or that was reserved. -/
inductive Mark
  | taken (moment : Module) (id : Id)
  | reserved (id : Id)

/-- The id that is marked. -/
def Mark.id : Mark → Id
  | .taken _ id => id
  | .reserved id => id

namespace Module

/-- The ids that a fresh analysis reports as defined again, in order. -/
def redefinedIds (m : Module) : List Id :=
  (DefUse.analyze m).redefinitions.filterMap fun serial => (m.bySerial? serial).bind (·.result)

/-! ## Changes

Whatever is done to a module comes down to a few kinds of changes, each of which takes at most one
id. -/

/-- A change of a module.  The functions are compared by their instructions: it does not matter how
a guard is put into a block. -/
inductive Act : Module → Mark → Module → Prop
  | take {m : Module} (hvalid : m.takeId.1.isValid = true) :
      Act m (.taken m m.takeId.1) m.takeId.2
  | reserve (m : Module) (id : Id) : Act m (.reserved id) (m.reserve id)
  /-- A declaration of what is made of ids in use. -/
  | declare {m : Module} {i : Instruction} (hvalid : m.takeId.1.isValid = true)
      (hresult : i.result = some m.takeId.1) (huses : ∀ id ∈ i.uses, id.Below m.bound) :
      Act m (.taken m m.takeId.1) (m.takeId.2.addGlobal i)
  /-- An instruction hands its result on to another one, which is inserted behind it. -/
  | guard {m : Module} {functions : List Function} {before after : List Instruction}
      {i inserted : Instruction} (hvalid : m.takeId.1.isValid = true)
      (hold : m.functions.flatMap Function.instructions = before ++ i :: after)
      (hnew : functions.flatMap Function.instructions
        = before ++ { i with result := some m.takeId.1 } :: inserted :: after)
      (hlabels : functions.flatMap Function.labels = m.labels)
      (hresult : inserted.result = i.result) (hserial : inserted.serial = m.nextSerial)
      (huses : ∀ id ∈ inserted.uses, id.Below (m.bound + 1)) :
      Act m (.taken m m.takeId.1)
        { m.takeId.2 with functions, nextSerial := m.nextSerial + 1 }

/-- A run of changes with their marks. -/
inductive Acts : Module → List Mark → Module → Prop
  | refl (m : Module) : Acts m [] m
  | tail {m m' m'' : Module} {marks : List Mark} {mark : Mark} (h : Acts m marks m')
      (hact : Act m' mark m'') : Acts m (marks ++ [mark]) m''

variable {m m' m'' : Module} {mark : Mark} {marks marks' : List Mark}

/-- An id can be taken just if the bound is below the limit, and then it is the bound. -/
theorem takeId_of_isValid (h : m.takeId.1.isValid = true) :
    m.bound < m.maxIdBound ∧ m.takeId = (⟨m.bound, none⟩, { m with bound := m.bound + 1 }) := by
  rcases Nat.lt_or_ge m.bound m.maxIdBound with hlt | hge
  · exact ⟨hlt, takeId_of_lt hlt⟩
  · rw [takeId_of_le hge] at h
    cases h

theorem bound_le_takeId (m : Module) : m.bound ≤ m.takeId.2.bound := by
  rcases Nat.lt_or_ge m.bound m.maxIdBound with hlt | hge
  · rw [takeId_of_lt hlt]
    exact Nat.le_succ _
  · rw [takeId_of_le hge]

/-! ## What a change keeps

One change at a time: the invariants are proved of the kinds of changes, and carried to runs of
changes by induction below. -/

namespace WellFormed

theorem bump (h : m.WellFormed) {bound : Nat} (hle : m.bound ≤ bound) :
    WellFormed { m with bound } :=
  ⟨Nat.lt_of_lt_of_le h.bound_pos hle, fun i hi id hid => (h.below i hi id hid).mono hle,
    fun id hid => (h.labels_below id hid).mono hle, h.nodup_serials, h.serial_lt⟩

/-- The guarded instruction and its guard, between those that stay as they are. -/
theorem guard (h : m.WellFormed) {functions : List Function} {before after : List Instruction}
    {i inserted : Instruction}
    (hold : m.functions.flatMap Function.instructions = before ++ i :: after)
    (hnew : functions.flatMap Function.instructions
      = before ++ { i with result := some ⟨m.bound, none⟩ } :: inserted :: after)
    (hlabels : functions.flatMap Function.labels = m.labels)
    (hresult : inserted.result = i.result) (hserial : inserted.serial = m.nextSerial)
    (huses : ∀ id ∈ inserted.uses, id.Below (m.bound + 1)) :
    WellFormed { m with bound := m.bound + 1, functions, nextSerial := m.nextSerial + 1 } := by
  have hbefore : m.instructions = (m.preamble ++ m.globals ++ before) ++ i :: after := by
    rw [instructions, hold, ← List.append_assoc]
  have hafter : instructions
      { m with bound := m.bound + 1, functions, nextSerial := m.nextSerial + 1 }
        = (m.preamble ++ m.globals ++ before)
          ++ { i with result := some ⟨m.bound, none⟩ } :: inserted :: after := by
    rw [instructions, hnew, ← List.append_assoc]
  have hi : i ∈ m.instructions := hbefore ▸ List.mem_append_right _ List.mem_cons_self
  have hmentions : ∀ id ∈ i.mentions, id.Below (m.bound + 1) :=
    fun id hid => (h.below i hi id hid).mono (Nat.le_succ _)
  -- all but two of the instructions were there before
  have hkept : ∀ j ∈ m.preamble ++ m.globals ++ before ++ after, j ∈ m.instructions := by
    intro j hj
    rw [hbefore]
    rcases List.mem_append.1 hj with hj | hj
    · exact List.mem_append_left _ hj
    · exact List.mem_append_right _ (List.mem_cons_of_mem _ hj)
  refine ⟨Nat.succ_pos _, fun j hj => ?_, fun id hid => ?_, ?_, fun j hj => ?_⟩
  · rw [hafter, List.mem_append, List.mem_cons, List.mem_cons] at hj
    rcases hj with hj | rfl | rfl | hj
    · exact fun id hid =>
        (h.below j (hkept j (List.mem_append_left _ hj)) id hid).mono (Nat.le_succ _)
    · refine List.forall_mem_cons.2 ⟨⟨h.bound_pos, Nat.lt_succ_self _⟩, fun id hid => ?_⟩
      exact hmentions id (List.mem_append_right _ hid)
    · intro id hid
      rcases List.mem_append.1 hid with hid | hid
      · exact hmentions id (List.mem_append_left _ (hresult ▸ hid))
      · exact huses id hid
    · exact fun id hid =>
        (h.below j (hkept j (List.mem_append_right _ hj)) id hid).mono (Nat.le_succ _)
  · exact (h.labels_below id (hlabels ▸ hid)).mono (Nat.le_succ _)
  · -- the serial numbers are the old ones and the next one
    have hperm : ((instructions
        { m with bound := m.bound + 1, functions, nextSerial := m.nextSerial + 1 }).map
          Instruction.serial).Perm (inserted.serial :: m.instructions.map Instruction.serial) := by
      rw [hafter, hbefore, List.append_cons, List.append_cons _ i after]
      simpa only [List.map_append, List.map_cons, List.map_nil] using List.perm_middle
    rw [hperm.nodup_iff, List.nodup_cons, hserial]
    refine ⟨fun hmem => ?_, h.nodup_serials⟩
    obtain ⟨j, hj, heq⟩ := List.mem_map.1 hmem
    exact Nat.ne_of_lt (h.serial_lt j hj) heq
  · rw [hafter, List.mem_append, List.mem_cons, List.mem_cons] at hj
    show j.serial < m.nextSerial + 1
    rcases hj with hj | rfl | rfl | hj
    · exact Nat.lt_succ_of_lt (h.serial_lt j (hkept j (List.mem_append_left _ hj)))
    · exact Nat.lt_succ_of_lt (h.serial_lt i hi)
    · rw [hserial]
      exact Nat.lt_succ_self _
    · exact Nat.lt_succ_of_lt (h.serial_lt j (hkept j (List.mem_append_right _ hj)))

/-- **A change keeps a module well-formed.** -/
theorem act (h : m.WellFormed) (hact : Act m mark m') : m'.WellFormed := by
  cases hact with
  | take hvalid =>
    rw [(takeId_of_isValid hvalid).2]
    exact h.bump (Nat.le_succ _)
  | reserve id => exact h.bump (Nat.le_max_left _ _)
  | declare hvalid hresult huses =>
    rw [(takeId_of_isValid hvalid).2] at hresult ⊢
    refine (h.bump (Nat.le_succ _)).addGlobal fun id hid => ?_
    rcases List.mem_append.1 hid with hid | hid
    · rw [hresult] at hid
      obtain rfl := List.mem_singleton.1 hid
      exact ⟨h.bound_pos, Nat.lt_succ_self _⟩
    · exact (huses id hid).mono (Nat.le_succ _)
  | guard hvalid hold hnew hlabels hresult hserial huses =>
    rw [(takeId_of_isValid hvalid).2] at hnew ⊢
    exact h.guard hold hnew hlabels hresult hserial huses

theorem acts (h : m.WellFormed) (hacts : Acts m marks m') : m'.WellFormed := by
  induction hacts with
  | refl => exact h
  | tail _ hact ih => exact ih.act hact

end WellFormed

namespace Act

theorem settings_eq (h : Act m mark m') : m'.settings = m.settings := by
  cases h with
  | take hvalid => rw [(takeId_of_isValid hvalid).2]
  | reserve id => rfl
  | declare hvalid =>
    rw [(takeId_of_isValid hvalid).2]
    rfl
  | guard hvalid => rw [(takeId_of_isValid hvalid).2]

/-- The id of the mark gets below the bound, and so far it may have been the bound. -/
theorem bound_lt (h : Act m mark m') : m.bound ≤ m'.bound ∧ mark.id.number < m'.bound := by
  have htaken : ∀ {m : Module}, m.takeId.1.isValid = true →
      m.takeId.1.number < m.takeId.2.bound := by
    intro m hvalid
    rw [(takeId_of_isValid hvalid).2]
    exact Nat.lt_succ_self _
  cases h with
  | take hvalid => exact ⟨m.bound_le_takeId, htaken hvalid⟩
  | reserve id =>
    exact ⟨Nat.le_max_left _ _, Nat.lt_of_lt_of_le (Nat.lt_succ_self _) (Nat.le_max_right _ _)⟩
  | declare hvalid => exact ⟨m.bound_le_takeId, htaken hvalid⟩
  | guard hvalid => exact ⟨m.bound_le_takeId, htaken hvalid⟩

/-- What is taken is the bound. -/
theorem taken {moment : Module} {id : Id} (h : Act m (.taken moment id) m') :
    moment = m ∧ id = ⟨m.bound, none⟩ ∧ m.bound < m.maxIdBound := by
  have htaken : ∀ {m : Module}, m.takeId.1.isValid = true →
      m.takeId.1 = ⟨m.bound, none⟩ ∧ m.bound < m.maxIdBound := by
    intro m hvalid
    obtain ⟨hlt, heq⟩ := takeId_of_isValid hvalid
    exact ⟨congrArg Prod.fst heq, hlt⟩
  cases h with
  | take hvalid => exact ⟨rfl, htaken hvalid⟩
  | declare hvalid => exact ⟨rfl, htaken hvalid⟩
  | guard hvalid => exact ⟨rfl, htaken hvalid⟩

/-- The results are the same, or there is one more. -/
theorem results_cases (h : Act m mark m') : results m'.instructions = results m.instructions ∨
    ∃ before after, results m.instructions = before ++ after ∧
      results m'.instructions = before ++ ⟨m.bound, none⟩ :: after := by
  cases h with
  | take hvalid =>
    rw [(takeId_of_isValid hvalid).2]
    exact .inl rfl
  | reserve id => exact .inl rfl
  | @declare i hvalid hresult =>
    rw [(takeId_of_isValid hvalid).2] at hresult ⊢
    refine .inr ⟨results (m.preamble ++ m.globals),
      results (m.functions.flatMap Function.instructions), results_append, ?_⟩
    rw [instructions, addGlobal, adopt]
    dsimp only
    rw [← List.append_assoc, results_append, results_append, results_cons, hresult]
    simp [results]
  | @guard functions before after i inserted hvalid hold hnew hlabels hresult hserial huses =>
    rw [(takeId_of_isValid hvalid).2] at hnew ⊢
    refine .inr ⟨results (m.preamble ++ m.globals ++ before), results (i :: after), ?_, ?_⟩
    · rw [instructions, hold, ← List.append_assoc, results_append]
    · rw [instructions, hnew, ← List.append_assoc, results_append, results_cons, results_cons,
        results_cons, hresult]
      rfl

end Act

/-! ## Redefinitions

A new id stands in the list of results once, so it is no redefinition and hides none. -/

theorem redefinedIds_eq (h : m.WellFormed) :
    m.redefinedIds = repeated [] (results m.instructions) := by
  have hkeys := congrArg (List.map Prod.snd) (keys_redefined h.nodup_serials)
  rw [List.map_map, List.map_map, redefined, List.map_filterMap] at hkeys
  refine Eq.trans (List.filterMap_congr fun serial _ => ?_) (hkeys.trans (List.map_id _))
  cases m.bySerial? serial with
  | none => rfl
  | some i =>
    show i.result = (i.result.bind fun id => some (Finding.redefined id i)).map _
    cases i.result <;> rfl

/-- An id that stands in a list only once is not repeated. -/
theorem repeated_insert {before after : List Id} {id : Id}
    (h : ∀ key ∈ before ++ after, key.number ≠ id.number) :
    repeated [] (before ++ id :: after) = repeated [] (before ++ after) := by
  have hother : ∀ key ∈ before ++ after, (key.number != id.number) = true :=
    fun key hkey => bne_iff_ne.2 (h key hkey)
  have hself : (id.number != id.number) = false := bne_self_eq_false _
  obtain ⟨hbefore, hafter⟩ := List.forall_mem_append.1 hother
  have hnumeric : Numeric fun key => key.number != id.number := fun hsame =>
    congrArg (· != id.number) (Id.same_iff.1 hsame)
  have hnone : ∀ {keys : List Id}, (∀ key ∈ keys, (key.number != id.number) = true) →
      keys.filter (fun key => !(key.number != id.number)) = [] := fun hkeys =>
    List.filter_eq_nil_iff.2 fun key hkey => by rw [hkeys key hkey]; exact Bool.false_ne_true
  rw [repeated_filter hnumeric (Agree.refl []) (fun _ _ _ => rfl)]
  · rw [List.filter_append, List.filter_cons_of_neg (by rw [hself]; exact Bool.false_ne_true),
      List.filter_eq_self.2 hbefore, List.filter_eq_self.2 hafter]
  · rw [List.filter_append, List.filter_cons_of_pos (by rw [hself]; rfl), hnone hbefore,
      hnone hafter]
    exact List.nodup_singleton _

theorem WellFormed.result_lt (h : m.WellFormed) {id : Id} (hid : id ∈ results m.instructions) :
    id.number < m.bound := by
  obtain ⟨i, hi, hresult⟩ := List.mem_filterMap.1 hid
  refine (h.below i hi id ?_).2
  rw [Instruction.mentions, hresult]
  exact List.mem_append_left _ (List.mem_singleton_self _)

/-- **A change defines no id again.** -/
theorem Act.redefined_eq (h : m.WellFormed) (hact : Act m mark m') :
    m'.redefinedIds = m.redefinedIds := by
  rw [redefinedIds_eq (h.act hact), redefinedIds_eq h]
  rcases hact.results_cases with heq | ⟨before, after, hold, hnew⟩
  · rw [heq]
  · rw [hold, hnew]
    exact repeated_insert fun key hkey => Nat.ne_of_lt (h.result_lt (hold ▸ hkey))

/-! ## Runs of changes -/

namespace Acts

theorem single (h : Act m mark m') : Acts m [mark] m' := .tail (.refl m) h

theorem trans (h : Acts m marks m') (h' : Acts m' marks' m'') : Acts m (marks ++ marks') m'' := by
  induction h' with
  | refl =>
    rw [List.append_nil]
    exact h
  | tail _ hact ih =>
    rw [← List.append_assoc]
    exact .tail ih hact

theorem settings_eq (h : Acts m marks m') : m'.settings = m.settings := by
  induction h with
  | refl => rfl
  | tail _ hact ih => exact hact.settings_eq.trans ih

theorem bound_le (h : Acts m marks m') : m.bound ≤ m'.bound := by
  induction h with
  | refl => exact Nat.le_refl _
  | tail _ hact ih => exact Nat.le_trans ih hact.bound_lt.1

theorem redefined_eq (h : m.WellFormed) (hacts : Acts m marks m') :
    m'.redefinedIds = m.redefinedIds := by
  induction hacts with
  | refl => rfl
  | tail hacts hact ih => exact (hact.redefined_eq (h.acts hacts)).trans ih

/-- All marks are below the bound in the end. -/
theorem mark_lt (h : Acts m marks m') : ∀ mark ∈ marks, mark.id.number < m'.bound := by
  induction h with
  | refl => exact List.forall_mem_nil _
  | tail _ hact ih =>
    obtain ⟨hle, hlt⟩ := hact.bound_lt
    exact List.forall_mem_append.2 ⟨fun mark hmark => Nat.lt_of_lt_of_le (ih mark hmark) hle,
      List.forall_mem_singleton.2 hlt⟩

/-- **Every id that is taken is the bound of the moment**, and so it is new to the module and larger
than all that were taken or reserved before. -/
theorem taken (h : m.WellFormed) (hacts : Acts m marks m') {before after : List Mark}
    {moment : Module} {id : Id} (hmarks : marks = before ++ .taken moment id :: after) :
    Acts m before moment ∧ id = ⟨moment.bound, none⟩ ∧ moment.bound < m.maxIdBound ∧
      (∀ mark ∈ before, mark.id.number < id.number) ∧
      ∀ key ∈ moment.mentions, key.number < id.number := by
  induction hacts generalizing after with
  | refl => simp at hmarks
  | @tail m₁ m₂ marks mark hacts hact ih =>
    rcases List.eq_nil_or_concat after with rfl | ⟨after, last, rfl⟩
    · obtain ⟨rfl, hmark⟩ := List.append_inj' hmarks rfl
      obtain rfl := List.singleton_inj.1 hmark
      obtain ⟨rfl, rfl, hlt⟩ := hact.taken
      rw [maxIdBound, hacts.settings_eq] at hlt
      exact ⟨hacts, rfl, hlt, hacts.mark_lt, fun key hkey => ((h.acts hacts).mentions_below hkey).2⟩
    · rw [List.concat_eq_append, ← List.cons_append, ← List.append_assoc] at hmarks
      exact ih (List.append_inj' hmarks rfl).1

end Acts
end Module
end ShiftBarrier
