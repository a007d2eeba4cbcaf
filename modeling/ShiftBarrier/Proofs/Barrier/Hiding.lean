import Mathlib.Logic.Relation
import ShiftBarrier.Proofs.Barrier.Exact
import ShiftBarrier.Proofs.Barrier.Reanalysis

/-!
# Constant shifts are hidden

After a run that succeeds, nobody but its guard uses the result of a constant shift.

* `Hidden` says so of an instruction in a block.
* `Outcome.uses_temporary` counts the uses of a new result, and `Outcome.hidden` puts it together
  for one run.
* `shifts_hidden` is about any number of runs; what was there before keeps its operands.
-/

set_option autoImplicit false

namespace ShiftBarrier
namespace Barrier

/-- An instruction apart from its result. -/
def anonymous (i : Instruction) : Instruction := { i with result := none }

/-- The result of `i`, which `after` follows in its block, is used once in the module `m`, and that
is by the bit field insert right behind it. -/
def Hidden (m : Module) (i : Instruction) (after : List Instruction) : Prop :=
  ∃ result insertion rest, i.result = some result ∧ after = insertion :: rest ∧
    insertion.opcode = "OpBitFieldInsert" ∧ insertion.operands[0]? = some (.id result) ∧
    (m.instructions.flatMap Instruction.uses).countP (·.same result) = 1

/-- A run on fresh analyses that ends well. -/
def Succeeds (m m' : Module) : Prop :=
  ∃ log run s status, Pass.runBarrier { target := m, log } = (run, s) ∧
    run.result = .ok status ∧ status ≠ .failure ∧ s.target = m'

/-! ## What follows what -/

/-- An instruction of the new block comes from one of the old block. -/
theorem exists_of_flatMap_guarded {gs : List Guard} {is before after : List Instruction}
    {i : Instruction} (h : is.flatMap (guarded gs) = before ++ i :: after) :
    ∃ j ∈ is, ∃ pre post rest, guarded gs j = pre ++ i :: post ∧ after = post ++ rest := by
  induction is generalizing before with
  | nil => exact absurd h.symm (List.append_ne_nil_of_right_ne_nil _ (List.cons_ne_nil _ _))
  | cons j is ih =>
    have hlater : ∀ before, is.flatMap (guarded gs) = before ++ i :: after →
        ∃ j' ∈ j :: is, ∃ pre post rest, guarded gs j' = pre ++ i :: post ∧
          after = post ++ rest := by
      intro before hrest
      obtain ⟨j', hj', hsplit⟩ := ih hrest
      exact ⟨j', List.mem_cons_of_mem _ hj', hsplit⟩
    rw [List.flatMap_cons] at h
    rcases List.append_eq_append_iff.1 h with ⟨middle, -, hrest⟩ | ⟨middle, hj, hrest⟩
    · exact hlater middle hrest
    · cases middle with
      | nil => exact hlater [] hrest.symm
      | cons i' post =>
        obtain ⟨rfl, hafter⟩ := List.cons.inj hrest
        exact ⟨j, List.mem_cons_self, before, post, _, hj, hafter⟩

theorem anonymous_sublist (gs : List Guard) (is : List Instruction) :
    (is.map anonymous).Sublist ((is.flatMap (guarded gs)).map anonymous) := by
  rw [List.map_flatMap, List.map_eq_flatMap]
  refine List.Sublist.flatMap_right _ fun i _ => ?_
  cases h : guardOf? gs i with
  | none => rw [guarded_of_not_mem (guardOf?_eq_none_iff.1 h)]; exact List.Sublist.refl _
  | some g =>
    rw [guarded_of_guardOf? h]
    obtain ⟨-, rfl⟩ := mem_of_guardOf? h
    exact List.Sublist.cons_cons _ (List.nil_sublist _)

/-! ## One run

The new result of a shift is a fresh id, so whoever uses it was added by the run, and of what was
added only the guard of that shift does. -/

namespace Outcome

variable {m m' : Module} {es : List Event} {status : PassStatus} {count : GuardCount}

/-- No instruction is lost, moved or given other operands. -/
theorem anonymous_sublist (h : Outcome m es status count m') :
    (m.instructions.map anonymous).Sublist (m'.instructions.map anonymous) := by
  rw [h.target, rewritten, Module.instructions, Module.instructions]
  simp only [List.map_append, List.map_flatMap, List.flatMap_map]
  refine (List.Sublist.refl _).append (List.sublist_append_left _ _) |>.append ?_
  refine List.Sublist.flatMap_right _ fun f _ => ?_
  have hbody : f.blocks.flatMap (fun b => b.instructions.flatMap (guarded (guards es)))
      = (f.blocks.flatMap Block.instructions).flatMap (guarded (guards es)) := by
    rw [List.flatMap_assoc]
  simp only [Function.instructions, guardedFunction, guardedBlock, List.flatMap_map,
    List.cons_append, List.map_cons, List.map_append]
  rw [hbody]
  exact ((List.Sublist.refl _).append (Barrier.anonymous_sublist _ _)).cons_cons _

/-! ### Uses of a new result -/

theorem old_not_same (hm : m.WellFormed) (h : Outcome m es status count m') {g : Guard}
    (hg : g ∈ guards es) {id : Id} (hid : id.Below m.bound) : id.same g.temporary = false := by
  have hge : m.bound ≤ g.temporary.number := ((h.fresh hm).2 _ (mem_guards.1 hg)).1
  rw [Id.same_eq_false_iff]
  exact Nat.ne_of_lt (Nat.lt_of_lt_of_le hid.2 hge)

theorem event_of_id (hm : m.WellFormed) (h : Outcome m es status count m') {e e' : Event}
    (he : e ∈ es) (he' : e' ∈ es) (hid : e.id.number = e'.id.number) : e = e' :=
  List.inj_on_of_nodup_map (h.fresh hm).1 he he' hid

/-- The new result of a shift is not a global. -/
theorem global_not_same (hm : m.WellFormed) (h : Outcome m es status count m') {g : Guard}
    (hg : g ∈ guards es) {id : Id} (hid : id ∈ m'.globals.filterMap Instruction.result) :
    id.same g.temporary = false := by
  rw [h.globals_results] at hid
  rcases List.mem_append.1 hid with hid | hid
  · exact h.old_not_same hm hg (global_below hm hid)
  · obtain ⟨d, hd, rfl⟩ := List.mem_map.1 hid
    rw [Id.same_eq_false_iff]
    intro heq
    cases h.event_of_id hm (mem_declarations.1 hd) (mem_guards.1 hg) heq

theorem type_not_same (hm : m.WellFormed) (h : Outcome m es status count m') {g g' : Guard}
    (hg : g ∈ guards es) (hg' : g' ∈ guards es) {id : Id} (hid : id ∈ g'.shift.type.toList) :
    id.same g.temporary = false := by
  have hshift := (bodies_sublist m).subset (h.candidate_of_mem hg').1
  refine h.old_not_same hm hg (hm.below _ hshift id ?_)
  exact List.mem_append_right _ (List.mem_append_left _ hid)

theorem zero_not_same (hm : m.WellFormed) (h : Outcome m es status count m') {g g' : Guard}
    (hg : g ∈ guards es) (hg' : g' ∈ guards es) : g'.zero.same g.temporary = false := by
  obtain ⟨-, -, -, c, -, -, -, hc⟩ := h.guard_of_mem hg'
  exact h.global_not_same hm hg (h.constant_mem_results hc)

/-- What is added for other events does not use the new result. -/
theorem uses_inserted_of_ne (hm : m.WellFormed) (h : Outcome m es status count m') {g : Guard}
    (hg : g ∈ guards es) {e : Event} (he : e ∈ es) (hne : e ≠ .guarded g) :
    e.inserted.uses.countP (·.same g.temporary) = 0 := by
  rw [List.countP_eq_zero]
  intro id hid
  rw [Bool.not_eq_true]
  cases e with
  | declared d =>
    obtain ⟨⟨type, hzero⟩, htype⟩ := h.zero_of_mem (mem_declarations.2 he)
    rcases List.mem_cons.1 hid with rfl | hid
    · exact h.old_not_same hm hg (global_below hm (type_mem_results htype))
    · obtain ⟨c, hc⟩ := hzero.exists_of_mem_inputs hid
      exact h.global_not_same hm hg (h.constant_mem_results hc)
  | guarded g' =>
    have hg' := mem_guards.2 he
    rcases List.mem_append.1 hid with hid | hid
    · exact h.type_not_same hm hg hg' hid
    · have hcases : id = g'.temporary ∨ id = g'.zero := by
        simpa [Instruction.inputs, Event.inserted, Guard.insertion, Operand.id?] using hid
      rcases hcases with rfl | rfl
      · rw [Id.same_eq_false_iff]
        exact fun heq => hne (h.event_of_id hm he (mem_guards.1 hg) heq)
      · exact h.zero_not_same hm hg hg'

theorem uses_insertion (hm : m.WellFormed) (h : Outcome m es status count m') {g : Guard}
    (hg : g ∈ guards es) : g.insertion.uses.countP (·.same g.temporary) = 1 := by
  have htype : g.shift.type.toList.countP (·.same g.temporary) = 0 := by
    rw [List.countP_eq_zero]
    exact fun id hid => Bool.eq_false_iff.1 (h.type_not_same hm hg hg hid)
  have hinputs : g.insertion.inputs = [g.temporary, g.zero, g.zero, g.zero] := rfl
  rw [Instruction.uses, List.countP_append, hinputs]
  simp [Guard.insertion, htype, Id.same_refl, h.zero_not_same hm hg hg]

/-- **A new result is used once in the whole module.** -/
theorem uses_temporary (hm : m.WellFormed) (h : Outcome m es status count m') {g : Guard}
    (hg : g ∈ guards es) :
    (m'.instructions.flatMap Instruction.uses).countP (·.same g.temporary) = 1 := by
  have hold : (m.instructions.flatMap Instruction.uses).countP (·.same g.temporary) = 0 := by
    rw [List.countP_eq_zero]
    intro id hid
    obtain ⟨i, hi, hid⟩ := List.mem_flatMap.1 hid
    rw [Bool.not_eq_true]
    exact h.old_not_same hm hg (hm.below i hi id (List.mem_append_right _ hid))
  have hrest : ∀ es' : List Event, (∀ e ∈ es', e ∈ es ∧ e ≠ .guarded g) →
      ((es'.map Event.inserted).flatMap Instruction.uses).countP (·.same g.temporary) = 0 := by
    intro es' hes'
    rw [List.flatMap_map, List.countP_eq_zero]
    intro id hid
    obtain ⟨e, he, hid⟩ := List.mem_flatMap.1 hid
    have hzero := h.uses_inserted_of_ne hm hg (hes' e he).1 (hes' e he).2
    exact List.countP_eq_zero.1 hzero id hid
  obtain ⟨pre, post, hsplit⟩ := List.append_of_mem (mem_guards.1 hg)
  have hnodup : es.Nodup := (h.fresh hm).1.of_map
  rw [hsplit, List.nodup_middle, List.nodup_cons, List.mem_append] at hnodup
  have hpre := hrest pre fun e he =>
    ⟨by rw [hsplit]; exact List.mem_append_left _ he, fun heq => hnodup.1 (.inl (heq ▸ he))⟩
  have hpost := hrest post fun e he =>
    ⟨by rw [hsplit]; exact List.mem_append_right _ (List.mem_cons_of_mem _ he),
      fun heq => hnodup.1 (.inr (heq ▸ he))⟩
  have huses : (m.instructions.map (renamedBy (guards es))).flatMap Instruction.uses
      = m.instructions.flatMap Instruction.uses := by
    rw [List.flatMap_map]
    exact List.flatMap_congr fun i _ => uses_renamedBy _ _
  have hinsertion : (Event.guarded g).inserted.uses.countP (·.same g.temporary) = 1 :=
    h.uses_insertion hm hg
  rw [((h.perm_instructions hm).flatMap_right Instruction.uses).countP_eq, List.flatMap_append,
    List.countP_append, huses, hold, hsplit, List.map_append, List.map_cons, List.flatMap_append,
    List.flatMap_cons, List.countP_append, List.countP_append, hpre, hpost, hinsertion]

theorem shifts_eq_candidates (h : Outcome m es status count m') (hstatus : status ≠ .failure) :
    (guards es).map Guard.shift = candidates m := by
  refine h.first.eq_of_length_le ?_
  rw [List.length_map]
  have hstatus' := h.status
  rw [hstatus', ne_eq, statusAfter_eq_failure_iff] at hstatus
  exact Nat.le_of_not_lt hstatus

/-- **One run that guards all candidates hides them.** -/
theorem hidden (hm : m.WellFormed) (h : Outcome m es status count m') (hstatus : status ≠ .failure)
    {f : Function} (hf : f ∈ m'.functions) {b : Block} (hb : b ∈ f.blocks)
    {before after : List Instruction} {i : Instruction} (hi : b.instructions = before ++ i :: after)
    (hcandidate : isCandidate m'.declaredConstants i = true) : Hidden m' i after := by
  rw [h.target] at hf
  obtain ⟨f₀, hf₀, rfl⟩ := List.mem_map.1 hf
  obtain ⟨b₀, hb₀, rfl⟩ := List.mem_map.1 hb
  obtain ⟨j, hj, pre, post, rest, hsplit, rfl⟩ := exists_of_flatMap_guarded hi
  cases hguard : guardOf? (guards es) j with
  | none =>
    rw [guarded_of_not_mem (guardOf?_eq_none_iff.1 hguard)] at hsplit
    obtain ⟨rfl, rfl⟩ : pre = [] ∧ i = j := by
      cases pre with
      | nil => exact ⟨rfl, (List.cons.inj hsplit).1.symm⟩
      | cons x pre => simp at hsplit
    have hbody : i ∈ bodies m :=
      List.mem_flatMap.2 ⟨b₀, List.mem_flatMap.2 ⟨f₀, hf₀, hb₀⟩, hj⟩
    rw [h.isCandidate_eq hm fun id hid => hm.below i ((bodies_sublist m).subset hbody) id
      (List.mem_append_right _ hid)] at hcandidate
    have hmem : i ∈ candidates m := List.mem_filter.2 ⟨hbody, hcandidate⟩
    rw [← h.shifts_eq_candidates hstatus] at hmem
    exact absurd hmem (guardOf?_eq_none_iff.1 hguard)
  | some g =>
    rw [guarded_of_guardOf? hguard] at hsplit
    cases pre with
    | nil =>
      obtain ⟨rfl, rfl⟩ := List.cons.inj hsplit
      exact ⟨g.temporary, g.insertion, rest, rfl, rfl, rfl, rfl,
        h.uses_temporary hm (mem_of_guardOf? hguard).1⟩
    | cons x pre =>
      -- the bit field insert is no shift
      obtain ⟨rfl, rfl⟩ : i = g.insertion ∧ pre = [] := by
        cases pre with
        | nil => exact ⟨(List.cons.inj (List.cons.inj hsplit).2).1.symm, rfl⟩
        | cons y pre => simp at hsplit
      cases hcandidate

end Outcome

/-! ## Any number of runs

A later run renames the shift again and puts its own guard between the shift and the old one. -/

/-- What a run that succeeds does to a well-formed module. -/
theorem Succeeds.outcome {m m' : Module} (hm : m.WellFormed) (h : Succeeds m m') :
    ∃ es status count, status ≠ .failure ∧ Outcome m es status count m' := by
  obtain ⟨log, run, s, status, hrun, hstatus, hsucceeded, rfl⟩ := h
  obtain ⟨es, count, -, houtcome⟩ :=
    runBarrier_outcome hm Cache.Reachable.empty.sound hrun hstatus
  exact ⟨es, status, count, hsucceeded, houtcome⟩

/-- Runs keep a module well-formed. -/
theorem wellFormed_of_runs {m m' : Module} (hm : m.WellFormed)
    (hruns : Relation.TransGen Succeeds m m') : m'.WellFormed := by
  induction hruns with
  | single h =>
    obtain ⟨es, status, count, -, houtcome⟩ := h.outcome hm
    exact houtcome.wellFormed hm
  | tail _ h ih =>
    obtain ⟨es, status, count, -, houtcome⟩ := h.outcome ih
    exact houtcome.wellFormed ih

theorem anonymous_sublist_of_runs {m m' : Module} (hm : m.WellFormed)
    (hruns : Relation.TransGen Succeeds m m') :
    (m.instructions.map anonymous).Sublist (m'.instructions.map anonymous) := by
  induction hruns with
  | single h =>
    obtain ⟨es, status, count, -, houtcome⟩ := h.outcome hm
    exact houtcome.anonymous_sublist
  | tail hruns h ih =>
    obtain ⟨es, status, count, -, houtcome⟩ := h.outcome (wellFormed_of_runs hm hruns)
    exact ih.trans houtcome.anonymous_sublist

theorem hidden_of_succeeds {m m' : Module} (hm : m.WellFormed) (h : Succeeds m m') :
    ∀ f ∈ m'.functions, ∀ b ∈ f.blocks, ∀ before i after, b.instructions = before ++ i :: after →
      isCandidate m'.declaredConstants i = true → Hidden m' i after := by
  intro f hf b hb before i after hi hcandidate
  obtain ⟨es, status, count, hstatus, houtcome⟩ := h.outcome hm
  exact houtcome.hidden hm hstatus hf hb hi hcandidate

/-- **After runs that succeed, the result of a constant shift is used once, by its guard.**  Every
old instruction still refers to the ids it referred to. -/
theorem shifts_hidden {settings : Settings} {source : String} {m m' : Module}
    (hparse : Assembly.parse settings source = .ok m)
    (hruns : Relation.TransGen Succeeds m m') :
    (∀ f ∈ m'.functions, ∀ b ∈ f.blocks, ∀ before i after,
      b.instructions = before ++ i :: after → isCandidate m'.declaredConstants i = true →
      Hidden m' i after) ∧
    (m.instructions.map anonymous).Sublist (m'.instructions.map anonymous) := by
  have hm := Assembly.wellFormed_of_parse hparse
  refine ⟨?_, anonymous_sublist_of_runs hm hruns⟩
  -- only the last run matters, but it started with a well-formed module because of the others
  cases hruns with
  | single h => exact hidden_of_succeeds hm h
  | tail hruns h => exact hidden_of_succeeds (wellFormed_of_runs hm hruns) h

theorem shifts_hidden_sample :
    Assembly.parse {} sampleText = .ok sample ∧
      ∃ m', Relation.TransGen Succeeds sample m' ∧
        ∀ f ∈ m'.functions, ∀ b ∈ f.blocks, ∀ before i after,
          b.instructions = before ++ i :: after → isCandidate m'.declaredConstants i = true →
          Hidden m' i after := by
  have hruns : Relation.TransGen Succeeds sample (Pass.runBarrier { target := sample }).2.target :=
    .single ⟨[], _, _, .changed, rfl, status_sample, nofun, rfl⟩
  exact ⟨parse_sample, _, hruns, (shifts_hidden parse_sample hruns).1⟩

end Barrier
end ShiftBarrier
