import ShiftBarrier.Proofs.Operations
import ShiftBarrier.Proofs.Scoping

/-!
# Exact definitions and uses

One walk through a module fills three tables.  Each of them can be told without the walk, from the
list of the instructions alone.

* `Instruction.RefersTo` and `Instruction.Redefines` say what an instruction does with an id.
* `DefUse.definition?_foldl`, `DefUse.uses_foldl` and `Validation.redefining_eq` say what the walk
  has entered after any number of instructions.
* `Session.definitions_and_uses` says what a fresh analysis answers, also of a module that was
  changed since it was read.
-/

set_option autoImplicit false

namespace ShiftBarrier

/-- The instruction mentions the id as its type or among its operands. -/
def Instruction.RefersTo (i : Instruction) (id : Id) : Prop :=
  ∃ use ∈ i.uses, id.number = use.number

instance (i : Instruction) (id : Id) : Decidable (i.RefersTo id) :=
  inferInstanceAs (Decidable (∃ use ∈ i.uses, _))

/-- The result of the instruction is one of an earlier instruction, too. -/
def Instruction.Redefines (earlier : List Instruction) (i : Instruction) : Prop :=
  ∃ id ∈ i.result, ∃ j ∈ earlier, j.Defines id

instance (earlier : List Instruction) (i : Instruction) : Decidable (i.Redefines earlier) :=
  decidable_of_iff (i.result.any (fun id => ∃ j ∈ earlier, j.Defines id) = true) <| by
    cases hresult : i.result <;> simp [Instruction.Redefines, hresult]

/-- The instructions whose result is one of an earlier instruction, in order. -/
def redefiningIn (is : List Instruction) : List Instruction :=
  (is.zipIdx.filter fun p => p.1.Redefines (is.take p.2)).map Prod.fst

/-- An instruction that is listed once redefines an id if it does so where it is listed. -/
theorem mem_redefiningIn_append {before after : List Instruction} {i : Instruction}
    (hnodup : (before ++ i :: after).Nodup) :
    i ∈ redefiningIn (before ++ i :: after) ↔ i.Redefines before := by
  have hplace : (before ++ i :: after)[before.length]? = some i := by
    rw [List.getElem?_append_right le_rfl, Nat.sub_self, List.getElem?_cons_zero]
  constructor
  · intro hmem
    obtain ⟨⟨j, k⟩, hj, rfl⟩ := List.mem_map.1 hmem
    obtain ⟨hk, hredefines⟩ := List.mem_filter.1 hj
    rw [List.mem_zipIdx_iff_getElem?] at hk
    -- it is listed nowhere else
    have hsame : before.length = k := by
      refine (List.getElem?_inj ?_ hnodup).1 (hplace.trans hk.symm)
      rw [List.length_append, List.length_cons]
      omega
    subst hsame
    simpa only [List.take_left, decide_eq_true_eq] using hredefines
  · intro hredefines
    refine List.mem_map.2 ⟨(i, before.length), List.mem_filter.2 ⟨?_, ?_⟩, rfl⟩
    · exact List.mem_zipIdx_iff_getElem?.2 hplace
    · simpa only [List.take_left, decide_eq_true_eq] using hredefines

/-- **A result is defined by its instruction or redefined by it**, and never both. -/
theorem find?_defines_iff {is : List Instruction} {i : Instruction} {id : Id} (hnodup : is.Nodup)
    (hi : i ∈ is) (hid : id ∈ i.result) :
    is.find? (·.Defines id) = some i ↔ i ∉ redefiningIn is := by
  have hdefines : i.Defines id := ⟨id, hid, rfl⟩
  obtain ⟨before, after, rfl⟩ := List.append_of_mem hi
  rw [mem_redefiningIn_append hnodup]
  have hearlier : i.Redefines before ↔ ∃ j ∈ before, j.Defines id := by
    rw [Instruction.Redefines, hid]
    simp only [Option.mem_def, Option.some.injEq, exists_eq_left']
  have hcons : (i :: after).find? (·.Defines id) = some i :=
    List.find?_cons_of_pos (decide_eq_true hdefines)
  rw [hearlier, List.find?_append, hcons]
  constructor
  · rintro hfind ⟨j, hj, hjd⟩
    have hsome : (before.find? (·.Defines id)).isSome :=
      List.find?_isSome.2 ⟨j, hj, decide_eq_true hjd⟩
    obtain ⟨found, hfound⟩ := Option.isSome_iff_exists.1 hsome
    rw [hfound, Option.some_or, Option.some.injEq] at hfind
    have hmem : i ∈ before := hfind ▸ List.mem_of_find?_eq_some hfound
    exact (List.nodup_append.1 hnodup).2.2 i hmem i List.mem_cons_self rfl
  · intro hnone
    have hfind : before.find? (·.Defines id) = none :=
      List.find?_eq_none.2 fun j hj hjd => hnone ⟨j, hj, of_decide_eq_true hjd⟩
    rw [hfind, Option.none_or]

theorem OrderedSet.insert_insert {α : Type} [DecidableEq α] (s : OrderedSet α) (a : α) :
    (s.insert a).insert a = s.insert a := by
  rw [insert, dif_pos (mem_insert.2 (.inr rfl))]

namespace DefUse

variable {t : DefUse} {i : Instruction} {is : List Instruction} {id key : Id}

/-! ## Definitions

The tables are made by a walk over the module, so each of them is described as a function of the
instructions that the walk has come by. -/

theorem isSome_definition? (t : DefUse) (id : Id) : (t.definition? id).isSome = t.isDefined id := by
  rw [definition?, isDefined, Option.isSome_map, List.isSome_find?]

theorem definition?_congr (t : DefUse) (h : id.same key = true) :
    t.definition? id = t.definition? key := by
  have hsame : (fun entry : Id × Nat => entry.1.same id) = fun entry => entry.1.same key := by
    funext entry
    rw [Id.same, Id.same, Id.same_iff.1 h]
  rw [definition?, definition?, hsame]

/-- An instruction defines what is not defined yet. -/
theorem definition?_record (t : DefUse) (i : Instruction) (id : Id) :
    (t.record i).definition? id
      = (t.definition? id).or (if i.Defines id then some i.serial else none) := by
  rw [record]
  cases hresult : i.result with
  | none =>
    have hnot : ¬ i.Defines id := by simp [Instruction.Defines, hresult]
    rw [if_neg hnot, Option.or_none]
    rfl
  | some result =>
    have hdefines : i.Defines id ↔ result.same id = true := by
      rw [Instruction.Defines, hresult, Id.same_iff]
      simp only [Option.mem_def, Option.some.injEq, exists_eq_left', eq_comm]
    dsimp only
    by_cases hdefined : t.isDefined result = true
    · rw [if_pos hdefined]
      by_cases hsame : result.same id = true
      · -- the id has a definition already, which stays
        rw [← isSome_definition?, definition?_congr t hsame] at hdefined
        rw [Option.or_of_isSome hdefined]
        rfl
      · rw [if_neg (hdefines.not.2 hsame), Option.or_none]
        rfl
    · rw [if_neg hdefined, definition?, List.find?_append, Option.map_or, List.find?_singleton]
      congr 1
      by_cases hsame : result.same id = true
      · rw [if_pos hsame, if_pos (hdefines.2 hsame)]
        rfl
      · rw [if_neg hsame, if_neg (hdefines.not.2 hsame)]
        rfl

/-- **The first definition counts.** -/
theorem definition?_foldl (t : DefUse) (is : List Instruction) (id : Id) :
    (is.foldl record t).definition? id
      = (t.definition? id).or ((is.find? (·.Defines id)).map Instruction.serial) := by
  induction is generalizing t with
  | nil => exact (Option.or_none).symm
  | cons i is ih =>
    rw [List.foldl_cons, ih, definition?_record, Option.or_assoc, List.find?_cons]
    congr 1
    by_cases hdefines : i.Defines id
    · simp [hdefines]
    · simp [hdefines]

/-! ## Uses -/

/-- The users that are listed for an id. -/
def usersIn (users : List (Id × OrderedSet Nat)) (id : Id) : OrderedSet Nat :=
  ((users.find? (·.1.same id)).map (·.2)).getD OrderedSet.empty

theorem uses_eq (t : DefUse) (id : Id) : t.uses id = (usersIn t.users id).toList := by
  rw [uses, usersIn]
  cases t.users.find? (·.1.same id) <;> rfl

theorem usersIn_cons (entry : Id × OrderedSet Nat) (users : List (Id × OrderedSet Nat)) (key : Id) :
    usersIn (entry :: users) key
      = if entry.1.same key then entry.2 else usersIn users key := by
  rw [usersIn, List.find?_cons]
  cases entry.1.same key <;> rfl

/-- A user is added to the set of one id. -/
theorem usersIn_addUser (users : List (Id × OrderedSet Nat)) (id key : Id) (serial : Nat) :
    usersIn (addUser id serial users) key
      = if id.same key then (usersIn users key).insert serial else usersIn users key := by
  induction users with
  | nil =>
    rw [addUser, usersIn, List.find?_singleton]
    cases id.same key <;> rfl
  | cons entry users ih =>
    obtain ⟨owner, serials⟩ := entry
    rw [addUser]
    by_cases howner : owner.same id = true
    · rw [if_pos howner, usersIn_cons, usersIn_cons, Id.same_congr howner key]
      cases id.same key <;> rfl
    · rw [if_neg howner, usersIn_cons, usersIn_cons, ih]
      by_cases hkey : owner.same key = true
      · have hne : ¬ id.same key = true := by
          rw [Id.same_iff] at howner hkey ⊢
          exact fun heq => howner (hkey.trans heq.symm)
        rw [if_pos hkey, if_pos hkey, if_neg hne]
      · rw [if_neg hkey, if_neg hkey]

/-- An instruction is entered once for each id, however often it mentions it. -/
theorem usersIn_foldl (ids : List Id) (serial : Nat) (users : List (Id × OrderedSet Nat))
    (key : Id) :
    usersIn (ids.foldl (fun users id => addUser id serial users) users) key
      = if ∃ id ∈ ids, key.number = id.number then (usersIn users key).insert serial
        else usersIn users key := by
  induction ids generalizing users with
  | nil => simp
  | cons id ids ih =>
    rw [List.foldl_cons, ih, usersIn_addUser, Id.same_comm]
    simp only [List.exists_mem_cons_iff, Id.same_iff]
    by_cases hid : key.number = id.number
    · simp [hid, OrderedSet.insert_insert]
    · simp [hid]

theorem users_record (t : DefUse) (i : Instruction) : (t.record i).users
    = i.uses.foldl (fun users id => addUser id i.serial users) t.users := by
  rw [record]
  cases i.result with
  | none => rfl
  | some result =>
    dsimp only
    split <;> rfl

/-- **The users of an id come in the order of the module.**  The walk comes to every instruction
once, which is why no serial number is listed already. -/
theorem uses_foldl (hnodup : (is.map Instruction.serial).Nodup)
    (hnew : ∀ i ∈ is, i.serial ∉ t.uses id) :
    (is.foldl record t).uses id
      = t.uses id ++ (is.filter (·.RefersTo id)).map Instruction.serial := by
  induction is generalizing t with
  | nil => exact (List.append_nil _).symm
  | cons i is ih =>
    rw [List.map_cons, List.nodup_cons] at hnodup
    obtain ⟨hi, his⟩ := List.forall_mem_cons.1 hnew
    have hrecord : (t.record i).uses id
        = t.uses id ++ if i.RefersTo id then [i.serial] else [] := by
      rw [uses_eq, uses_eq, users_record, usersIn_foldl]
      by_cases hrefers : i.RefersTo id
      · rw [if_pos hrefers, if_pos (show ∃ use ∈ i.uses, _ from hrefers)]
        rw [uses_eq] at hi
        exact OrderedSet.toList_insert_of_not_mem hi
      · rw [if_neg hrefers, if_neg (show ¬ ∃ use ∈ i.uses, _ from hrefers), List.append_nil]
    rw [List.foldl_cons, ih hnodup.2, hrecord, List.append_assoc, List.filter_cons]
    · by_cases hrefers : i.RefersTo id <;> simp [hrefers]
    · intro j hj hmem
      rw [hrecord, List.mem_append] at hmem
      rcases hmem with hmem | hmem
      · exact his j hj hmem
      · have hserial : j.serial = i.serial := by
          split at hmem
          · exact List.mem_singleton.1 hmem
          · exact absurd hmem List.not_mem_nil
        exact hnodup.1 (hserial ▸ List.mem_map_of_mem hj)

end DefUse

/-! ## Redefinitions

The walk notes an instruction when its result is defined already.  Place by place that is the same
as having an earlier instruction of this result. -/

namespace Validation

variable {is : List Instruction} {known : List Id}

/-- An id that is known makes no other known. -/
theorem isKnown_cons_of_known {id : Id} (h : isKnown known id = true) :
    isKnown (id :: known) = isKnown known := by
  funext key
  rw [isKnown_cons, Bool.eq_iff_iff, Bool.or_eq_true, or_iff_right_iff_imp, Id.same_iff]
  intro hsame
  obtain ⟨found, hfound, hnumber⟩ := isKnown_iff.1 h
  exact isKnown_iff.2 ⟨found, hfound, hsame.trans hnumber⟩

/-- An id may join the known ones before or after them. -/
theorem isKnown_append_cons (id : Id) (ids : List Id) :
    isKnown (known ++ id :: ids) = isKnown (id :: known ++ ids) := by
  funext key
  rw [isKnown_append, isKnown_append, isKnown_cons, isKnown_cons, ← Bool.or_assoc,
    Bool.or_comm (isKnown known key)]

/-- The last instruction is a redefinition if its result was known or defined before. -/
theorem redefining_concat (known : List Id) (is : List Instruction) (i : Instruction) :
    redefining known (is ++ [i]) = redefining known is
      ++ if i.result.any (isKnown (known ++ results is)) then [i] else [] := by
  induction is generalizing known with
  | nil =>
    have hresults : known ++ results [] = known := List.append_nil known
    rw [List.nil_append, hresults, redefining, redefining]
    cases i.result with
    | none => rfl
    | some id =>
      dsimp only
      rw [Option.any_some]
      split <;> rfl
  | cons j is ih =>
    rw [List.cons_append, redefining, redefining, results_cons]
    cases hresult : j.result with
    | none => exact ih known
    | some id =>
      dsimp only
      rw [Option.toList_some, List.singleton_append, isKnown_append_cons]
      split
      · next hknown =>
        have hsame : isKnown (id :: known ++ results is) = isKnown (known ++ results is) := by
          funext key
          rw [isKnown_append, isKnown_append, isKnown_cons_of_known hknown]
        rw [ih, hsame]
        rfl
      · rw [ih]

/-- **The redefinitions, place by place**: what is defined again was defined before. -/
theorem redefining_eq (is : List Instruction) : redefining [] is = redefiningIn is := by
  induction is using List.reverseRecOn with
  | nil => rfl
  | append_singleton is i ih =>
    have hlast : i.result.any (isKnown ([] ++ results is)) = true ↔ i.Redefines is := by
      cases hresult : i.result <;> simp [Instruction.Redefines, hresult, isKnown_results]
    rw [redefining_concat, ih, redefiningIn, redefiningIn, List.zipIdx_append,
      List.filter_append, List.map_append]
    congr 1
    · refine congrArg _ (List.filter_congr fun p hp => ?_)
      rw [take_append_of_mem_zipIdx hp]
    · by_cases hredefines : i.Redefines is
      · rw [if_pos (hlast.2 hredefines)]
        simp [hredefines]
      · rw [if_neg (hlast.not.2 hredefines)]
        simp [hredefines]

end Validation

/-! ## A fresh analysis

Serial numbers stand for instructions of the module as it is now, since they are told apart in every
well-formed module. -/

namespace Session

variable {s : Session}

/-- The analysis of a session that has none. -/
theorem defUse_run (hcache : s.cache.defUse? = none) :
    ∃ c, defUse.run.run s = (.ok (DefUse.analyze s.target), { s with cache := c }) := by
  refine ⟨s.cache.push (.defUse (DefUse.analyze s.target)), ?_⟩
  rw [defUse, onCache_run, Cache.requestDefUse, hcache]

/-- The instructions that serial numbers stand for. -/
theorem filterMap_bySerial? {m : Module} (hm : m.WellFormed) {is : List Instruction}
    (his : is ⊆ m.instructions) : (is.map Instruction.serial).filterMap m.bySerial? = is := by
  rw [List.filterMap_map]
  calc is.filterMap (m.bySerial? ∘ Instruction.serial) = is.filterMap some :=
        List.filterMap_congr fun i hi => Validation.bySerial?_of_mem hm.nodup_serials (his hi)
    _ = is := List.filterMap_some

theorem definition?_run (hm : s.target.WellFormed) (hcache : s.cache.defUse? = none) (id : Id) :
    ((definition? (.id id)).run.run s).1 = .ok (s.target.instructions.find? (·.Defines id)) := by
  obtain ⟨c, hrun⟩ := defUse_run hcache
  have hdefinition : (DefUse.analyze s.target).definition? id
      = (s.target.instructions.find? (·.Defines id)).map Instruction.serial :=
    DefUse.definition?_foldl {} _ _
  rw [definition?, bind_run, hrun]
  show Except.ok (List.filterMap _ ((DefUse.analyze s.target).definition? id).toList).head? = _
  rw [hdefinition]
  cases hfind : s.target.instructions.find? (·.Defines id) with
  | none => rfl
  | some i =>
    have hi : [i] ⊆ s.target.instructions :=
      List.cons_subset.2 ⟨List.mem_of_find?_eq_some hfind, List.nil_subset _⟩
    exact congrArg (fun is => Except.ok is.head?) (filterMap_bySerial? hm hi)

theorem uses_run (hm : s.target.WellFormed) (hcache : s.cache.defUse? = none) (id : Id) :
    ((uses (some id)).run.run s).1 = .ok (s.target.instructions.filter (·.RefersTo id)) := by
  obtain ⟨c, hrun⟩ := defUse_run hcache
  have huses : (DefUse.analyze s.target).uses id
      = (s.target.instructions.filter (·.RefersTo id)).map Instruction.serial :=
    DefUse.uses_foldl hm.nodup_serials fun _ _ => List.not_mem_nil
  rw [uses, bind_run, hrun]
  show Except.ok (List.filterMap _ ((DefUse.analyze s.target).uses id)) = _
  rw [huses, filterMap_bySerial? hm (List.filter_subset_self _)]

theorem redefinitions_run (hm : s.target.WellFormed) (hcache : s.cache.defUse? = none) :
    (redefinitions.run.run s).1 = .ok (redefiningIn s.target.instructions) := by
  obtain ⟨c, hrun⟩ := defUse_run hcache
  have hredefinitions : (DefUse.analyze s.target).redefinitions
      = (Validation.redefining [] s.target.instructions).map Instruction.serial :=
    Validation.redefinitions_foldl (t := {}) fun _ => rfl
  rw [redefinitions, bind_run, hrun]
  show Except.ok (List.filterMap _ (DefUse.analyze s.target).redefinitions) = _
  rw [hredefinitions, filterMap_bySerial? hm (Validation.redefining_subset _ _),
    Validation.redefining_eq]

/-- **The tables are exact.**  After any operations on a module, a fresh analysis gives the first
instruction with an id as its result, every instruction that refers to it, once and in order, and
every instruction that redefines an id, in order.  An instruction with a result is the definition of
it or redefines it, and never both. -/
theorem definitions_and_uses {settings : Settings} {source : String} {m : Module}
    (hparse : Assembly.parse settings source = .ok m) (log : Log) (operations : List Operation) :
    let s := { Operation.performAll operations { target := m, log } with cache := {} }
    let is := s.target.instructions
    is.Nodup ∧
    (∀ id, ((definition? (.id id)).run.run s).1 = .ok (is.find? (·.Defines id))) ∧
    (∀ id, ((uses (some id)).run.run s).1 = .ok (is.filter (·.RefersTo id))) ∧
    (redefinitions.run.run s).1 = .ok (redefiningIn is) ∧
    ∀ i ∈ is, ∀ id ∈ i.result, is.find? (·.Defines id) = some i ↔ i ∉ redefiningIn is := by
  intro s is
  have hstart : Anchored { target := m, log } :=
    ⟨Assembly.wellFormed_of_parse hparse, List.forall_mem_nil _⟩
  have hs : s.target.WellFormed := (Operation.performAll_acts hstart operations).2.wellFormed
  exact ⟨hs.nodup_instructions, definition?_run hs rfl, uses_run hs rfl, redefinitions_run hs rfl,
    fun i hi id hid => find?_defines_iff hs.nodup_instructions hi hid⟩

/-! ### An example -/

/-- A shift that uses its own result, which an addition redefines and uses twice. -/
def circularText : String :=
  "%1 = OpTypeInt 32 0\n%2 = OpConstant %1 3\n%3 = OpFunction %1 None %1\n%4 = OpLabel\n" ++
  "%5 = OpShiftLeftLogical %1 %5 %2\n%5 = OpIAdd %1 %5 %5\nOpReturnValue %5\nOpFunctionEnd\n"

/-- The module of that text. -/
def circular : Module :=
  { globals :=
      [{ opcode := "OpTypeInt", result := some ⟨1, none⟩,
         operands := [.literal (.int 32) none, .literal (.int 0) none], serial := 0 },
       { opcode := "OpConstant", type := some ⟨1, none⟩, result := some ⟨2, none⟩,
         operands := [.literal (.int 3) none], serial := 1 }]
    functions :=
      [{ id := ⟨3, none⟩
         definition :=
           { opcode := "OpFunction", type := some ⟨1, none⟩, result := some ⟨3, none⟩,
             operands := [.enumerant "None", .id ⟨1, none⟩], serial := 2 }
         blocks :=
           [{ label := ⟨4, none⟩
              instructions :=
                [{ opcode := "OpShiftLeftLogical", type := some ⟨1, none⟩,
                   result := some ⟨5, none⟩, operands := [.id ⟨5, none⟩, .id ⟨2, none⟩],
                   serial := 3 },
                 { opcode := "OpIAdd", type := some ⟨1, none⟩, result := some ⟨5, none⟩,
                   operands := [.id ⟨5, none⟩, .id ⟨5, none⟩], serial := 4 },
                 { opcode := "OpReturnValue", operands := [.id ⟨5, none⟩], serial := 5 }] }] }]
    bound := 6
    nextSerial := 6 }

/-- The shift after a run of the barrier, and what guards it. -/
def circularShift : Instruction :=
  { opcode := "OpShiftLeftLogical", type := some ⟨1, none⟩, result := some ⟨7, none⟩,
    operands := [.id ⟨5, none⟩, .id ⟨2, none⟩], serial := 3 }

/-- The guard, behind the shift and under its old id. -/
def circularGuard : Instruction :=
  { opcode := "OpBitFieldInsert", type := some ⟨1, none⟩, result := some ⟨5, none⟩,
    operands := [.id ⟨7, none⟩, .id ⟨6, none⟩, .id ⟨6, none⟩, .id ⟨6, none⟩], serial := 7 }

/-- The addition, which defines the same id again. -/
def circularSum : Instruction :=
  { opcode := "OpIAdd", type := some ⟨1, none⟩, result := some ⟨5, none⟩,
    operands := [.id ⟨5, none⟩, .id ⟨5, none⟩], serial := 4 }

/-- The return, which uses that id. -/
def circularReturn : Instruction :=
  { opcode := "OpReturnValue", operands := [.id ⟨5, none⟩], serial := 5 }

/-- The guard has taken over the id of the shift, and the addition still redefines it. -/
theorem definitions_and_uses_sample :
    Assembly.parse {} circularText = .ok circular ∧
      let s := { Operation.performAll [.runBarrier] { target := circular } with cache := {} }
      ((definition? (.id ⟨5, none⟩)).run.run s).1 = .ok (some circularGuard) ∧
      ((uses (some ⟨5, none⟩)).run.run s).1 = .ok [circularShift, circularSum, circularReturn] ∧
      (redefinitions.run.run s).1 = .ok [circularSum] := by
  have hparse : Assembly.parse {} circularText = .ok circular :=
    toOption_eq_some_iff.1 (by decide +kernel)
  obtain ⟨-, hdefinition, huses, hredefinitions, -⟩ :=
    definitions_and_uses hparse [] [.runBarrier]
  refine ⟨hparse, (hdefinition _).trans (congrArg _ ?_), (huses _).trans (congrArg _ ?_),
    hredefinitions.trans (congrArg _ ?_)⟩
  · decide +kernel
  · decide +kernel
  · decide +kernel

end Session

end ShiftBarrier
