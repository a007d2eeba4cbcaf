import ShiftBarrier.Proofs.Barrier.Exact
import ShiftBarrier.Proofs.Validation

/-!
# What the validator reports after a run

The ids that were there before a run are known where they were known before, every id that is added
is defined once and before it is used, and blocks end as they ended.  So the same is wrong with the
module as before.

* `inOrder_guarded` is the induction over the instructions of a function.
* `findings_runBarrier` is about a run of the pass, whatever its status is.
-/

set_option autoImplicit false

namespace ShiftBarrier
namespace Barrier

open Validation

/-! ## Guarded instructions

The walk of the validator goes through a guarded list as through the old one: the insert defines
what the shift defined, and uses what is known by then. -/

section Guarded

variable {gs : List Guard} {is : List Instruction} {p : Id → Bool}

theorem results_guarded (gs : List Guard) (i : Instruction) :
    results (guarded gs i) = ((guardOf? gs i).map Guard.temporary).toList ++ i.result.toList := by
  rw [guarded]
  cases h : guardOf? gs i with
  | none => rw [results_cons]; exact List.append_nil _
  | some g =>
    obtain ⟨-, rfl⟩ := mem_of_guardOf? h
    rw [results_cons, results_cons]
    show [g.temporary] ++ (g.shift.result.toList ++ []) = _
    rw [List.append_nil]
    rfl

theorem results_flatMap {α : Type} (f : α → List Instruction) (as : List α) :
    results (as.flatMap f) = as.flatMap fun a => results (f a) := List.filterMap_flatMap ..

/-- Without the new results there are those that were there before. -/
theorem filter_results_guarded (his : ∀ i ∈ is, ∀ id ∈ i.result, p id = true)
    (hgs : ∀ g ∈ gs, p g.temporary = false) :
    (results (is.flatMap (guarded gs))).filter p = results is := by
  rw [results_flatMap, List.filter_flatMap, results, List.filterMap_eq_flatMap_toList]
  refine List.flatMap_congr fun i hi => ?_
  have hold : i.result.toList.filter p = i.result.toList :=
    List.filter_eq_self.2 fun id hid => his i hi id (Option.mem_toList.1 hid)
  rw [results_guarded, List.filter_append, hold]
  cases h : guardOf? gs i with
  | none => rfl
  | some g => simp [hgs g (mem_of_guardOf? h).1]

/-- The new results, in order. -/
theorem filter_not_results_guarded (his : ∀ i ∈ is, ∀ id ∈ i.result, p id = true)
    (hgs : ∀ g ∈ gs, p g.temporary = false) :
    (results (is.flatMap (guarded gs))).filter (fun id => !p id)
      = (is.filterMap (guardOf? gs)).map Guard.temporary := by
  rw [results_flatMap, List.filter_flatMap, List.map_filterMap, List.filterMap_eq_flatMap_toList]
  refine List.flatMap_congr fun i hi => ?_
  have hold : i.result.toList.filter (fun id => !p id) = [] := by
    rw [List.filter_eq_nil_iff]
    intro id hid
    simp [his i hi id (Option.mem_toList.1 hid)]
  rw [results_guarded, List.filter_append, hold, List.append_nil]
  cases h : guardOf? gs i with
  | none => rfl
  | some g => simp [hgs g (mem_of_guardOf? h).1]

/-- A block ends as it ended: a shift ends no block, and neither does what comes behind it. -/
theorem isTerminated_guardedBlock (hgs : ∀ g ∈ gs, g.shift.isTerminator = false) (b : Block) :
    (guardedBlock gs b).isTerminated = b.isTerminated := by
  rw [Block.isTerminated, Block.isTerminated, guardedBlock]
  rcases List.eq_nil_or_concat b.instructions with hnil | ⟨init, i, hconcat⟩
  · rw [hnil]
    rfl
  · rw [hconcat, List.concat_eq_append, List.flatMap_append, List.flatMap_singleton,
      List.getLast?_append, List.getLast?_concat, guarded]
    cases h : guardOf? gs i with
    | none => rfl
    | some g =>
      obtain ⟨hg, rfl⟩ := mem_of_guardOf? h
      exact (hgs g hg).symm

/-- What a check of one instruction depends on. -/
theorem keys_undefinedUses_congr {known known' later later' : List Id} {i j : Instruction}
    (hopcode : j.opcode = i.opcode) (huses : j.uses = i.uses) (hi : ∀ id ∈ i.uses, p id = true)
    (hlater : Agree p later later') (hknown : Agree p known known') :
    (undefinedUses (if j.opcode = "OpPhi" then later' ++ known' else known') j).map Finding.key
      = (undefinedUses (if i.opcode = "OpPhi" then later ++ known else known) i).map
          Finding.key := by
  rw [keys_undefinedUses, keys_undefinedUses, hopcode, huses]
  congr 1
  refine List.filter_congr fun id hid => ?_
  split
  · rw [hlater.append hknown id (hi id hid)]
  · rw [hknown id (hi id hid)]

/-- The shift is checked as before, and the insert uses nothing that is not known. -/
theorem keys_inOrder_guarded {later later' known known' : List Id} {i : Instruction}
    (hi : ∀ id ∈ i.uses, p id = true) (hlater : Agree p later later')
    (hknown : Agree p known known') (hgs : ∀ g ∈ gs,
      isKnown known' g.zero = true ∧ ∀ id ∈ g.shift.type, isKnown known' id = true) :
    (inOrder later' known' (guarded gs i)).map Finding.key
      = (undefinedUses (if i.opcode = "OpPhi" then later ++ known else known) i).map
          Finding.key := by
  rw [guarded]
  cases hguard : guardOf? gs i with
  | none =>
    rw [inOrder, inOrder, List.append_nil]
    exact keys_undefinedUses_congr rfl rfl hi hlater hknown
  | some g =>
    obtain ⟨hg, rfl⟩ := mem_of_guardOf? hguard
    obtain ⟨hzero, htype⟩ := hgs g hg
    have hinsertion : undefinedUses (g.temporary :: known') g.insertion = [] := by
      refine undefinedUses_eq_nil fun id hid => ?_
      rw [isKnown_cons]
      rcases List.mem_append.1 hid with hid | hid
      · rw [htype id (Option.mem_toList.1 hid), Bool.or_true]
      · have hcases : id = g.temporary ∨ id = g.zero := by
          simpa [Instruction.inputs, Guard.insertion, Operand.id?] using hid
        rcases hcases with rfl | rfl
        · rw [Id.same_refl, Bool.true_or]
        · rw [hzero, Bool.or_true]
    -- the temporary is defined by the shift, right before the insert uses it
    have hsplit : inOrder later' known' [g.renamed, g.insertion]
        = undefinedUses (if g.renamed.opcode = "OpPhi" then later' ++ known' else known') g.renamed
          ++ undefinedUses (g.temporary :: known') g.insertion := by
      rw [inOrder, inOrder, inOrder, List.append_nil]
      rfl
    rw [hsplit, hinsertion, List.append_nil]
    exact keys_undefinedUses_congr rfl rfl hi hlater hknown

/-- **The uses that are not defined are the same, whatever is guarded**, if the ids that a guard
needs are known. -/
theorem inOrder_guarded (hp : Numeric p) {later later' known known' : List Id}
    (huses : ∀ i ∈ is, ∀ id ∈ i.uses, p id = true) (hlater : Agree p later later')
    (hknown : Agree p known known') (htemporary : ∀ g ∈ gs, p g.temporary = false)
    (hgs : ∀ g ∈ gs, isKnown known' g.zero = true ∧ ∀ id ∈ g.shift.type, isKnown known' id = true) :
    (inOrder later' known' (is.flatMap (guarded gs))).map Finding.key
      = (inOrder later known is).map Finding.key := by
  induction is generalizing known known' with
  | nil => rfl
  | cons i is ih =>
    have hrest : Agree p (i.result.toList ++ known)
        ((results (guarded gs i)).reverse ++ known') := by
      rw [results_guarded, List.reverse_append, List.append_assoc]
      have hresult : i.result.toList.reverse = i.result.toList := by cases i.result <;> rfl
      rw [hresult]
      refine (Agree.refl _).append ?_
      cases hguard : guardOf? gs i with
      | none => exact hknown
      | some g => exact hknown.cons_right hp (htemporary g (mem_of_guardOf? hguard).1)
    rw [List.flatMap_cons, inOrder_append, List.map_append, inOrder, List.map_append]
    congr 1
    · exact keys_inOrder_guarded (huses i List.mem_cons_self) hlater hknown hgs
    · refine ih (fun j hj => huses j (List.mem_cons_of_mem _ hj)) hrest fun g hg => ?_
      obtain ⟨hzero, htype⟩ := hgs g hg
      refine ⟨?_, fun id hid => ?_⟩
      · rw [isKnown_append, hzero, Bool.or_true]
      · rw [isKnown_append, htype id hid, Bool.or_true]

end Guarded

/-! ## Old ids

Findings are about old ids only, since new ones are defined once, before all of their uses. -/

/-- The ids that were there before. -/
def isOld (m : Module) (id : Id) : Bool := decide (id.number < m.bound)

theorem isOld_numeric (m : Module) : Numeric (isOld m) := by
  intro a b hsame
  rw [isOld, isOld, Id.same_iff.1 hsame]

theorem isOld_of_mention {m : Module} (hm : m.WellFormed) {i : Instruction}
    (hi : i ∈ m.instructions) {id : Id} (hid : id ∈ i.mentions) : isOld m id = true :=
  decide_eq_true (hm.below i hi id hid).2

theorem isOld_of_use {m : Module} (hm : m.WellFormed) {i : Instruction}
    (hi : i ∈ m.instructions) {id : Id} (hid : id ∈ i.uses) : isOld m id = true :=
  isOld_of_mention hm hi (List.mem_append_right _ hid)

theorem isOld_of_result {m : Module} (hm : m.WellFormed) {i : Instruction}
    (hi : i ∈ m.instructions) {id : Id} (hid : id ∈ i.result) : isOld m id = true :=
  isOld_of_mention hm hi (List.mem_append_left _ (Option.mem_toList.2 hid))

namespace Outcome

variable {m m' : Module} {es : List Event} {status : PassStatus} {count : GuardCount}

theorem isOld_id (hm : m.WellFormed) (h : Outcome m es status count m') {e : Event}
    (he : e ∈ es) : isOld m e.id = false := by
  have hge := ((h.fresh hm).2 e he).1
  exact decide_eq_false (Nat.not_lt.2 hge)

theorem isOld_temporary (hm : m.WellFormed) (h : Outcome m es status count m') :
    ∀ g ∈ guards es, isOld m g.temporary = false :=
  fun _ hg => h.isOld_id hm (mem_guards.1 hg)

theorem results_declarations (h : Outcome m es status count m') :
    results m'.globals = results m.globals ++ (declarations es).map Declaration.id :=
  h.globals_results

/-- The results of old instructions are old. -/
theorem filter_results_of_subset (hm : m.WellFormed) {is : List Instruction}
    (his : ∀ i ∈ is, i ∈ m.instructions) :
    (results is).filter (isOld m) = results is ∧
      (results is).filter (fun id => !isOld m id) = [] := by
  have hold : ∀ id ∈ results is, isOld m id = true := by
    intro id hid
    obtain ⟨i, hi, hresult⟩ := List.mem_filterMap.1 hid
    exact isOld_of_result hm (his i hi) hresult
  refine ⟨List.filter_eq_self.2 hold, List.filter_eq_nil_iff.2 fun id hid => ?_⟩
  simp [hold id hid]

theorem filter_declarations (hm : m.WellFormed) (h : Outcome m es status count m') :
    ((declarations es).map Declaration.id).filter (isOld m) = [] := by
  rw [List.filter_eq_nil_iff]
  intro id hid
  obtain ⟨d, hd, rfl⟩ := List.mem_map.1 hid
  rw [Bool.not_eq_true]
  exact h.isOld_id hm (mem_declarations.1 hd)

theorem filter_results_function (hm : m.WellFormed) (h : Outcome m es status count m')
    {f : Function} (hf : f ∈ m.functions) :
    (results (guardedFunction (guards es) f).instructions).filter (isOld m)
      = results f.instructions := by
  have hheader : ∀ i ∈ f.definition :: f.params, i ∈ m.instructions :=
    fun i hi => mem_instructions_of_function hf (List.mem_append_left _ hi)
  have hbody : ∀ i ∈ f.blocks.flatMap Block.instructions, ∀ id ∈ i.result, isOld m id = true :=
    fun i hi id hid =>
      isOld_of_result hm (mem_instructions_of_function hf (List.mem_append_right _ hi)) hid
  rw [instructions_guardedFunction, results_append, List.filter_append,
    (filter_results_of_subset hm hheader).1, filter_results_guarded hbody (h.isOld_temporary hm),
    ← results_append]
  rfl

/-- Without the new ids, the results are those of before. -/
theorem filter_results (hm : m.WellFormed) (h : Outcome m es status count m') :
    (results m'.instructions).filter (isOld m) = results m.instructions := by
  have hpreamble : ∀ i ∈ m.preamble, i ∈ m.instructions :=
    fun i hi => List.mem_append_left _ (List.mem_append_left _ hi)
  have hglobals : ∀ i ∈ m.globals, i ∈ m.instructions :=
    fun i hi => List.mem_append_left _ (List.mem_append_right _ hi)
  have hfunctions : (results (m'.functions.flatMap Function.instructions)).filter (isOld m)
      = results (m.functions.flatMap Function.instructions) := by
    rw [h.target, rewritten, List.flatMap_map, results_flatMap, results_flatMap,
      List.filter_flatMap]
    exact List.flatMap_congr fun f hf => h.filter_results_function hm hf
  have hpreamble' : m'.preamble = m.preamble := by rw [h.target, rewritten]
  rw [Module.instructions, results_append, results_append, hpreamble', h.results_declarations,
    List.filter_append, List.filter_append, List.filter_append, hfunctions,
    (filter_results_of_subset hm hpreamble).1, (filter_results_of_subset hm hglobals).1,
    h.filter_declarations hm, List.append_nil, ← results_append, ← results_append]
  rfl

/-- The new results are the new ids. -/
theorem new_results_perm (hm : m.WellFormed) (h : Outcome m es status count m') :
    ((results m'.instructions).filter fun id => !isOld m id).Perm
      ((declarations es).map Declaration.id ++ (guards es).map Guard.temporary) := by
  have hheaders : ∀ i ∈ headers m, i ∈ m.instructions :=
    fun i hi => (Barrier.perm_instructions m).mem_iff.2 (List.mem_append_left _ hi)
  have hbodies : ∀ i ∈ bodies m, ∀ id ∈ i.result, isOld m id = true :=
    fun i hi id hid => isOld_of_result hm ((bodies_sublist m).subset hi) hid
  have hdeclared : results ((declarations es).map Declaration.instruction)
      = (declarations es).map Declaration.id := results_instruction _
  have hperm : (results m'.instructions).Perm ((results (headers m)
      ++ (declarations es).map Declaration.id)
      ++ results ((bodies m).flatMap (guarded (guards es)))) := by
    rw [h.target, ← bodies_rewritten, ← hdeclared, ← results_append, ← results_append]
    exact ((Barrier.perm_instructions _).trans
      ((headers_rewritten m es).append_right _)).filterMap _
  refine (hperm.filter _).trans (List.Perm.of_eq ?_)
  rw [List.filter_append, List.filter_append, (filter_results_of_subset hm hheaders).2,
    filter_not_results_guarded hbodies (h.isOld_temporary hm),
    filterMap_guardOf? (hm.nodup_instructions.sublist (bodies_sublist m)) h.guards_sublist,
    List.nil_append]
  congr 1
  rw [List.filter_eq_self]
  intro id hid
  obtain ⟨d, hd, rfl⟩ := List.mem_map.1 hid
  rw [Bool.not_eq_true']
  exact h.isOld_id hm (mem_declarations.1 hd)

/-- Each new id is the result of one instruction. -/
theorem nodup_new_results (hm : m.WellFormed) (h : Outcome m es status count m') :
    (((results m'.instructions).filter fun id => !isOld m id).map Id.number).Nodup := by
  rw [((h.new_results_perm hm).map Id.number).nodup_iff]
  exact (h.rewrites hm).fresh.1

/-- No id is defined twice after a run if none was before. -/
theorem definedOnce (hm : m.WellFormed) (honce : m.DefinedOnce)
    (h : Outcome m es status count m') : m'.DefinedOnce := by
  have hperm := List.filter_append_perm (isOld m) (results m'.instructions)
  rw [h.filter_results hm] at hperm
  have hsorted : (results m'.instructions ++ m'.labels).Perm ((results m.instructions ++ m.labels)
      ++ (results m'.instructions).filter fun id => !isOld m id) := by
    rw [h.labels_eq]
    refine (hperm.symm.append_right m.labels).trans ?_
    rw [List.append_assoc, List.append_assoc]
    exact List.perm_append_comm.append_left _
  refine (hsorted.map Id.number).nodup_iff.2 ?_
  rw [List.map_append, List.nodup_append]
  refine ⟨honce, h.nodup_new_results hm, fun n hn k hk heq => ?_⟩
  obtain ⟨id, hid, rfl⟩ := List.mem_map.1 hn
  obtain ⟨new, hnew, rfl⟩ := List.mem_map.1 hk
  have hlt : id.number < m.bound := by
    rcases List.mem_append.1 hid with hid | hid
    · obtain ⟨i, hi, hresult⟩ := List.mem_filterMap.1 hid
      exact of_decide_eq_true (isOld_of_result hm hi hresult)
    · exact (hm.labels_below id hid).2
  have hge := (List.mem_filter.1 hnew).2
  rw [isOld, ← heq, decide_eq_true hlt] at hge
  cases hge

/-! ## Part by part

The validator checks the parts of a module one by one, and so does the comparison. -/

theorem keys_redefined (hm : m.WellFormed) (h : Outcome m es status count m') :
    (redefined m').map Finding.key = (redefined m).map Finding.key := by
  rw [Validation.keys_redefined (h.wellFormed hm).nodup_serials,
    Validation.keys_redefined hm.nodup_serials,
    repeated_filter (isOld_numeric m) (Agree.refl []) (fun _ _ _ => rfl) (h.nodup_new_results hm),
    h.filter_results hm]

/-- What is defined anywhere in the module. -/
theorem agree_results (hm : m.WellFormed) (h : Outcome m es status count m') :
    Agree (isOld m) (results m.instructions) (results m'.instructions) := by
  rw [← h.filter_results hm]
  exact Agree.filter (isOld_numeric m) _

theorem inPreamble_eq (hm : m.WellFormed) (h : Outcome m es status count m') :
    inPreamble m' = inPreamble m := by
  have hpreamble : m'.preamble = m.preamble := by rw [h.target, rewritten]
  rw [inPreamble, inPreamble, hpreamble, h.labels_eq]
  refine List.flatMap_congr fun i hi => undefinedUses_congr fun id hid => ?_
  have hmem : i ∈ m.instructions := List.mem_append_left _ (List.mem_append_left _ hi)
  exact ((h.agree_results hm).append (Agree.refl _) id (isOld_of_use hm hmem hid)).symm

theorem shared_eq (h : Outcome m es status count m') : shared m' = shared m := by
  rw [shared, shared, h.target, rewritten, List.map_map]
  rfl

/-- Every new constant is declared after what it is made of. -/
theorem inOrder_declarations {log : Log} {r : Registry}
    (hsteps : Steps (Registry.start m log) es r) {known : List Id}
    (hknown : ∀ id ∈ results m.globals, isKnown known id = true) :
    inOrder [] known ((declarations es).map Declaration.instruction) = [] := by
  generalize hstart : Registry.start m log = start at hsteps
  induction hsteps with
  | refl => rfl
  | @tail r r' es e hsteps hstep ih =>
    cases hstep with
    | guarded log' hdue =>
      rw [declarations_append, List.map_append, inOrder_append, ih]
      rfl
    | @declared d log' hdue =>
      subst hstart
      have hlast : declarations [Event.declared d] = [d] := rfl
      have hids : results ((declarations es).map Declaration.instruction)
          = (declarations es).map Declaration.id := results_instruction _
      rw [declarations_append, List.map_append, inOrder_append, ih, hids, hlast,
        List.map_singleton, inOrder, inOrder, List.append_nil, List.nil_append, List.nil_append,
        ite_self]
      refine undefinedUses_eq_nil fun id hid => ?_
      rw [isKnown_append, isKnown_reverse]
      rcases List.mem_cons.1 hid with rfl | hid
      · have htypes : r.types = m.declaredTypes := hsteps.types_eq
        have htype := hdue.type
        rw [htypes] at htype
        rw [hknown _ (type_mem_results htype), Bool.or_true]
      · obtain ⟨type, hzero⟩ := hdue.zero
        obtain ⟨c, hc⟩ := hzero.exists_of_mem_inputs hid
        rw [constants_eq hsteps] at hc
        rcases List.mem_append.1 (mem_of_constantsWith hc) with hid | hid
        · rw [hknown _ hid, Bool.or_true]
        · rw [isKnown_of_mem hid, Bool.true_or]

theorem inGlobals_eq (h : Outcome m es status count m') : inGlobals m' = inGlobals m := by
  obtain ⟨log, r, hsteps⟩ := h.steps
  have hglobals : m'.globals = m.globals ++ (declarations es).map Declaration.instruction := by
    rw [h.target, rewritten]
  have hnew : inOrder [] ((results m.globals).reverse ++ shared m)
      ((declarations es).map Declaration.instruction) = [] := by
    refine inOrder_declarations hsteps fun id hid => ?_
    rw [isKnown_append, isKnown_reverse, isKnown_of_mem hid, Bool.true_or]
  rw [inGlobals, inGlobals, h.shared_eq, hglobals, inOrder_append, hnew, List.append_nil]

/-- What is defined outside of functions. -/
theorem agree_shared (hm : m.WellFormed) (h : Outcome m es status count m') :
    Agree (isOld m) (results m.globals ++ shared m) (results m'.globals ++ shared m') := by
  have hglobals : ∀ i ∈ m.globals, i ∈ m.instructions :=
    fun i hi => List.mem_append_left _ (List.mem_append_right _ hi)
  have hfilter : (results m'.globals).filter (isOld m) = results m.globals := by
    rw [h.results_declarations, List.filter_append, (filter_results_of_subset hm hglobals).1,
      h.filter_declarations hm, List.append_nil]
  rw [h.shared_eq, ← hfilter]
  exact (Agree.filter (isOld_numeric m) _).append (Agree.refl _)

/-- What a guard needs is known in every function. -/
theorem isKnown_guard (h : Outcome m es status count m') {g : Guard} (hg : g ∈ guards es)
    {known : List Id} (hknown : ∀ id ∈ results m'.globals, isKnown known id = true) :
    isKnown known g.zero = true ∧ ∀ id ∈ g.shift.type, isKnown known id = true := by
  obtain ⟨-, type, found, c, htype, hdeclared, -, hc⟩ := h.guard_of_mem hg
  refine ⟨hknown _ (h.constant_mem_results hc), fun id hid => ?_⟩
  obtain rfl : type = id := Option.some.inj (htype.symm.trans hid)
  obtain ⟨key, hkey, hmem⟩ := TypeTable.mem_of_type? hdeclared
  have hresult : key ∈ results m'.globals := by
    rw [h.results_declarations]
    refine List.mem_append_left _ ?_
    exact (TypeTable.readFrom_analyze m).ids.subset (List.mem_map_of_mem hmem)
  obtain ⟨found, hfound, heq⟩ := isKnown_iff.1 (hknown key hresult)
  exact isKnown_iff.2 ⟨found, hfound, (Id.same_iff.1 hkey).symm.trans heq⟩

theorem keys_unterminated (h : Outcome m es status count m') (f : Function) :
    (unterminated (guardedFunction (guards es) f)).map Finding.key
      = (unterminated f).map Finding.key := by
  have hshift : ∀ g ∈ guards es, g.shift.isTerminator = false := by
    intro g hg
    have hcandidate := (h.candidate_of_mem hg).2
    rw [isCandidate, Bool.and_eq_true, beq_iff_eq] at hcandidate
    rw [Instruction.isTerminator, hcandidate.1]
    decide
  rw [unterminated, unterminated, guardedFunction, List.filter_map, List.map_map, List.map_map,
    List.map_map]
  congr 1
  refine List.filter_congr fun b _ => ?_
  rw [Function.comp_apply, isTerminated_guardedBlock hshift]

theorem keys_inFunction (hm : m.WellFormed) (h : Outcome m es status count m') {f : Function}
    (hf : f ∈ m.functions) :
    (inFunction (results m'.globals ++ shared m') (guardedFunction (guards es) f)).map Finding.key
      = (inFunction (results m.globals ++ shared m) f).map Finding.key := by
  have hlabels : (guardedFunction (guards es) f).labels = f.labels := by
    rw [Function.labels, Function.labels, guardedFunction, List.map_map]
    rfl
  have hlater : Agree (isOld m) (results f.instructions)
      (results (guardedFunction (guards es) f).instructions) := by
    rw [← h.filter_results_function hm hf]
    exact Agree.filter (isOld_numeric m) _
  have hknown := (Agree.refl (p := isOld m) f.labels).append (h.agree_shared hm)
  have huses : ∀ i ∈ f.instructions, ∀ id ∈ i.uses, isOld m id = true :=
    fun i hi id hid => isOld_of_use hm (mem_instructions_of_function hf hi) hid
  have hheader := inOrder_congr (fun i hi => huses i (List.mem_append_left _ hi)) hlater hknown
  have hguards : ∀ g ∈ guards es, isKnown ((results (f.definition :: f.params)).reverse
      ++ (f.labels ++ (results m'.globals ++ shared m'))) g.zero = true ∧
      ∀ id ∈ g.shift.type, isKnown ((results (f.definition :: f.params)).reverse
        ++ (f.labels ++ (results m'.globals ++ shared m'))) id = true :=
    fun g hg => h.isKnown_guard hg fun id hid => by simp [isKnown_of_mem hid]
  have hbody := inOrder_guarded (isOld_numeric m)
    (fun i hi => huses i (List.mem_append_right _ hi)) hlater ((Agree.refl _).append hknown)
    (h.isOld_temporary hm) hguards
  rw [inFunction, inFunction, List.map_append, List.map_append, h.keys_unterminated, hlabels]
  congr 1
  rw [instructions_guardedFunction, inOrder_append, List.map_append,
    ← instructions_guardedFunction, hbody, ← hheader]
  rw [← List.map_append, ← inOrder_append]
  rfl

/-- **The same is wrong with the module as before.** -/
theorem keys_findings (hm : m.WellFormed) (h : Outcome m es status count m') :
    (findings m').map Finding.key = (findings m).map Finding.key := by
  have hfunctions : (m'.functions.flatMap (inFunction (results m'.globals ++ shared m'))).map
      Finding.key = (m.functions.flatMap (inFunction (results m.globals ++ shared m))).map
      Finding.key := by
    have hfunctions' : m'.functions = m.functions.map (guardedFunction (guards es)) := by
      rw [h.target, rewritten]
    rw [hfunctions', List.flatMap_map, List.map_flatMap, List.map_flatMap]
    exact List.flatMap_congr fun f hf => h.keys_inFunction hm hf
  simp only [findings]
  rw [List.map_append, List.map_append, List.map_append, List.map_append, List.map_append,
    List.map_append, hfunctions, h.keys_redefined hm, h.inPreamble_eq hm, h.inGlobals_eq]

end Outcome

/-- **The pass neither adds nor hides what is wrong with a module**, whatever its status is. -/
theorem findings_runBarrier {settings : Settings} {source : String} {m : Module}
    (hparse : Assembly.parse settings source = .ok m) {cache : Cache}
    (hcache : Cache.Reachable m cache) {log : Log} {run : PassRun} {s : Session}
    (hrun : Pass.runBarrier { target := m, cache, log } = (run, s)) {status : PassStatus}
    (hstatus : run.result = .ok status) :
    (findings s.target).map Finding.key = (findings m).map Finding.key := by
  have hm := Assembly.wellFormed_of_parse hparse
  obtain ⟨es, count, -, h⟩ := runBarrier_outcome hm hcache.sound hrun hstatus
  exact h.keys_findings hm

theorem findings_runBarrier_sample :
    Assembly.parse {} sampleText = .ok sample ∧
      (findings (Pass.runBarrier { target := sample }).2.target).map Finding.key
        = (findings sample).map Finding.key :=
  ⟨parse_sample, findings_runBarrier parse_sample .empty rfl status_sample⟩

end Barrier
end ShiftBarrier
