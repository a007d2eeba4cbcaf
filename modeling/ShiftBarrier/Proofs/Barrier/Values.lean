import ShiftBarrier.Proofs.Barrier.Exact
import ShiftBarrier.Proofs.Barrier.Reanalysis
import ShiftBarrier.Proofs.Evaluation

/-!
# Values before and after a run

A block and the guarded block are run side by side.  A guarded shift leaves its value to the
temporary, the bit field insert copies it to the old id, and no other instruction sees a difference.

* `Related` is what the environments of the two runs have to do with each other.
* `step_alike` and `step_guarded` are the steps of the simulation, `run_alike` is the run.
* `evaluate_runBarrier` says that the pass preserves values, if the module can be analysed again;
  by `evaluate_wide` a module with a type that is too long cannot.
-/

set_option autoImplicit false

namespace ShiftBarrier
namespace Barrier

open Evaluator

variable {m m' : Module} {gs reached : List Guard} {ds : List Declaration}
  {inputs env env' : Environment} {i : Instruction} {g : Guard}

/-- The evaluator of the declarations of a module. -/
abbrev oldEvaluator (m : Module) : Evaluator := ⟨m.declaredTypes, some m.declaredConstants⟩

/-- The evaluator of the module after a run. -/
abbrev newEvaluator (m : Module) (ds : List Declaration) : Evaluator :=
  ⟨m.declaredTypes, some (constantsWith m ds)⟩

/-! ## The constants of the two modules

The evaluator reads both modules anew, so the constants have to be compared before the runs are. -/

namespace Rewrites

variable {w n : Nat} {s : Bool} {z : Id} {c : Constant} {type : Ty}

theorem le_declaration (h : Rewrites m gs ds m') {d : Declaration} (hd : d ∈ ds) :
    m.bound ≤ d.id.number :=
  (h.fresh.2 _ (List.mem_append_left _ (List.mem_map_of_mem hd))).1

theorem le_temporary (h : Rewrites m gs ds m') (hg : g ∈ gs) : m.bound ≤ g.temporary.number :=
  (h.fresh.2 _ (List.mem_append_right _ (List.mem_map_of_mem hg))).1

theorem candidate (h : Rewrites m gs ds m') (hg : g ∈ gs) : g.shift ∈ candidates m := by
  have hmem := List.mem_map_of_mem (f := Guard.shift) hg
  rw [h.shifts] at hmem
  exact List.mem_of_mem_take hmem

theorem opcode_shift (h : Rewrites m gs ds m') (hg : g ∈ gs) :
    g.shift.opcode = "OpShiftLeftLogical" := by
  have hcandidate := (List.mem_filter.1 (h.candidate hg)).2
  rw [isCandidate, Bool.and_eq_true, beq_iff_eq] at hcandidate
  exact hcandidate.1

theorem isTerminator_shift (h : Rewrites m gs ds m') (hg : g ∈ gs) :
    g.shift.isTerminator = false := by
  rw [Instruction.isTerminator, h.opcode_shift hg]
  decide +kernel

theorem nodup_shifts (h : Rewrites m gs ds m') : (gs.map Guard.shift).Nodup := by
  rw [h.shifts]
  exact (h.nodup.sublist (candidates_sublist m)).sublist (List.take_sublist _ _)

theorem nodup_constants (hm : m.WellFormed) (honce : m.DefinedOnce) (h : Rewrites m gs ds m') :
    ((constantsWith m ds).entries.map (·.1.number)).Nodup := by
  have hold := nodup_declaredConstants honce
  have hnew : ((ds.map fun d => (d.id, d.constant)).map (·.1.number)).Nodup := by
    have hnodup := h.fresh.1
    rw [List.map_append, List.map_map] at hnodup
    rw [List.map_map]
    exact (List.nodup_append.1 hnodup).1
  rw [constantsWith, List.map_append, List.nodup_append]
  refine ⟨hold, hnew, fun k hk k' hk' => ?_⟩
  obtain ⟨entry, hentry, rfl⟩ := List.mem_map.1 hk
  rw [List.map_map] at hk'
  obtain ⟨d, hd, rfl⟩ := List.mem_map.1 hk'
  exact Nat.ne_of_lt (Nat.lt_of_lt_of_le (constant_below hm hentry).2 (h.le_declaration hd))

/-- Old ids stand for the same constants, which are made of old ids. -/
theorem extends_constants (hm : m.WellFormed) (h : Rewrites m gs ds m') :
    Extends (·.number < m.bound) m.declaredConstants (constantsWith m ds) where
  same id hid := by
    refine ConstantTable.constant?_append fun entry hentry => ?_
    obtain ⟨d, hd, rfl⟩ := List.mem_map.1 hentry
    have hge := h.le_declaration hd
    rw [Id.same_eq_false_iff]
    dsimp only at hid ⊢
    omega
  closed id type cs hcs c hc := by
    obtain ⟨key, -, hmem⟩ := ConstantTable.mem_of_constant? hcs
    rcases (ConstantTable.readFrom_analyze m.declaredTypes m).formed _ hmem with
      _ | _ | _ | hdeclared | _
    obtain ⟨entry, hentry, hsame⟩ := ConstantTable.isDeclared_iff.1 (hdeclared c hc)
    rw [← Id.same_iff.1 hsame]
    exact (constant_below hm hentry).2

/-! ### Zeros -/

/-- Constants of integer types are integers. -/
theorem exists_int_of_mem (honce : m.DefinedOnce) (h : Rewrites m gs ds m') {v : Number}
    (hmem : (z, Constant.scalar (.int w s) v) ∈ (constantsWith m ds).entries) :
    ∃ k, v = .int k := by
  rcases List.mem_append.1 hmem with hmem | hmem
  · rcases (ConstantTable.readFrom_analyze m.declaredTypes m).formed _ hmem with
      _ | htype | _ | _ | _
    · exact ⟨_, rfl⟩
    · exact absurd rfl (htype w s)
  · obtain ⟨d, hd, heq⟩ := List.mem_map.1 hmem
    obtain ⟨⟨type, hzero⟩, -⟩ := h.zeros d hd
    have hconstant : d.constant = .scalar (.int w s) v := congrArg Prod.snd heq
    rw [hconstant] at hzero
    rcases hzero.cases_of_once honce with ⟨w', s', -, hc⟩ | ⟨w', s', n, z', -, hc, -⟩
    · cases hc
      exact ⟨0, rfl⟩
    · cases hc

theorem constant?_zero (hm : m.WellFormed) (honce : m.DefinedOnce) (h : Rewrites m gs ds m')
    (hz : (constantsWith m ds).id? (.zero w s) = some z) :
    (constantsWith m ds).constant? z = some (.zero w s) := by
  obtain ⟨found, hsame, hmem⟩ := ConstantTable.mem_of_id? hz
  rw [ConstantTable.constant?_of_mem (h.nodup_constants hm honce) hmem]
  cases found with
  | scalar type v =>
    rw [Constant.zero, Constant.same, Bool.and_eq_true, Ty.same_int_iff] at hsame
    obtain ⟨rfl, hv⟩ := hsame
    obtain ⟨k, rfl⟩ := h.exists_int_of_mem honce hmem
    have hk : k = 0 := eq_of_beq hv
    rw [hk, Constant.zero]
  | _ => cases hsame

/-- **The zero of a guard is a zero**, where it has no other value. -/
theorem operandValue_zero (hm : m.WellFormed) (honce : m.DefinedOnce) (h : Rewrites m gs ds m')
    (hzero : IsZeroOf m.declaredTypes (constantsWith m ds) type c)
    (hz : (constantsWith m ds).id? c = some z) (henv : env.value? z = none) :
    operandValue (newEvaluator m ds) env (.id z) = .ok (zeroOf type) := by
  rcases hzero.cases_of_once honce with ⟨w, s, rfl, rfl⟩ | ⟨w, s, n, lane, rfl, rfl, hlane⟩
  · rw [operandValue_of_constant? henv (h.constant?_zero hm honce hz)]
    exact constantValue_integer
  · obtain ⟨found, hsame, hmem⟩ := ConstantTable.mem_of_id? hz
    have hfound := ConstantTable.constant?_of_mem (h.nodup_constants hm honce) hmem
    cases found with
    | composite type' cs =>
      rw [Constant.same, Bool.and_eq_true] at hsame
      obtain ⟨hlength, hcs⟩ := isEqv_replicate_iff.1 hsame.2
      have hlanes : ∀ c ∈ cs, (constantsWith m ds).constant? c
          = some (.scalar (.int w s) (.int 0)) := by
        intro c hc
        rw [ConstantTable.constant?_congr (hcs c hc)]
        exact h.constant?_zero hm honce hlane
      rw [operandValue_of_constant? henv hfound, zeroOf, ← hlength]
      exact constantValue_zeros hlanes
    | _ => cases hsame

end Rewrites

/-! ## The two environments

Between two instructions the environments differ in the temporaries, which no old instruction
reads. -/

/-- The old ids have the same values, and of the new ones the temporaries of the guards that were
reached have one.  Constants have none. -/
structure Related (m : Module) (reached : List Guard) (env env' : Environment) : Prop where
  old : ∀ id, id.number < m.bound → env'.value? id = env.value? id
  new : ∀ id, m.bound ≤ id.number → env.value? id = none ∧
    ((env'.value? id).isSome = true ↔ ∃ g ∈ reached, g.temporary.same id = true)
  constants : ∀ id, m.declaredConstants.isDeclared id = true → env.value? id = none

namespace Related

theorem bind (h : Related m reached env env') {id : Id} (hid : id.number < m.bound)
    (hconstant : m.declaredConstants.isDeclared id = false) (v : Value) :
    Related m reached (env.bind id v) (env'.bind id v) where
  old key hkey := by
    rw [Environment.value?_bind, Environment.value?_bind, h.old key hkey]
  new key hkey := by
    have hother : ¬ id.same key = true := by
      rw [Id.same_iff]
      omega
    rw [Environment.value?_bind, Environment.value?_bind, if_neg hother, if_neg hother]
    exact h.new key hkey
  constants key hkey := by
    have hother : ¬ id.same key = true := by
      intro hsame
      rw [ConstantTable.isDeclared_congr hsame, hkey] at hconstant
      cases hconstant
    rw [Environment.value?_bind, if_neg hother]
    exact h.constants key hkey

theorem bind_temporary (h : Related m reached env env') (hg : m.bound ≤ g.temporary.number)
    (v : Value) : Related m (reached ++ [g]) env (env'.bind g.temporary v) where
  old key hkey := by
    have hother : ¬ g.temporary.same key = true := by
      rw [Id.same_iff]
      omega
    rw [Environment.value?_bind, if_neg hother]
    exact h.old key hkey
  new key hkey := by
    obtain ⟨hnone, hsome⟩ := h.new key hkey
    refine ⟨hnone, ?_⟩
    rw [Environment.value?_bind]
    by_cases hsame : g.temporary.same key = true
    · rw [if_pos hsame]
      exact iff_of_true rfl ⟨g, List.mem_append_right _ (List.mem_singleton_self g), hsame⟩
    · rw [if_neg hsame, hsome]
      simp [hsame, or_and_right, exists_or]
  constants := h.constants

end Related

/-- Inputs are values of old ids, but not of constants or of results that a guard defines. -/
def Admissible (m : Module) (gs : List Guard) (inputs : Environment) : Prop :=
  ∀ entry ∈ inputs, entry.1.number < m.bound ∧ m.declaredConstants.isDeclared entry.1 = false ∧
    ∀ g ∈ gs, ∀ result ∈ g.shift.result, result.same entry.1 = false

theorem value?_eq_none_iff {id : Id} :
    env.value? id = none ↔ ∀ entry ∈ env, entry.1.same id = false := by
  rw [Environment.value?, Option.map_eq_none_iff, List.find?_eq_none]
  simp only [Bool.not_eq_true]

namespace Admissible

theorem related (h : Admissible m gs inputs) : Related m [] inputs inputs where
  old _ _ := rfl
  new id hid := by
    have hnone : inputs.value? id = none := by
      refine value?_eq_none_iff.2 fun entry hentry => ?_
      have hlt := (h entry hentry).1
      rw [Id.same_eq_false_iff]
      omega
    rw [hnone]
    simp
  constants id hid := by
    refine value?_eq_none_iff.2 fun entry hentry => ?_
    rw [Bool.eq_false_iff]
    intro hsame
    have hnot := (h entry hentry).2.1
    rw [ConstantTable.isDeclared_congr hsame, hid] at hnot
    cases hnot

theorem result_eq_none (h : Admissible m gs inputs) (hg : g ∈ gs) {id : Id}
    (hid : g.shift.result = some id) : inputs.value? id = none := by
  refine value?_eq_none_iff.2 fun entry hentry => ?_
  have hnot := (h entry hentry).2.2 g hg id hid
  rw [Id.same_eq_false_iff] at hnot ⊢
  exact Ne.symm hnot

end Admissible

/-! ## Steps

One instruction of the old block corresponds to one or two of the new.  Two are one step here. -/

/-- What an instruction of a block mentions are old ids. -/
theorem number_lt_of_mem (hm : m.WellFormed) (hi : i ∈ bodies m) {id : Id}
    (hid : id ∈ i.mentions) : id.number < m.bound :=
  (hm.below i ((bodies_sublist m).subset hi) id hid).2

/-- What an instruction of a block reads has the same value in both runs. -/
theorem Related.read (hrel : Related m reached env env') (hm : m.WellFormed)
    (hi : i ∈ bodies m) : ∀ id ∈ i.inputs, id.number < m.bound ∧
      env'.value? id = env.value? id := by
  intro id hid
  have hlt : id.number < m.bound := number_lt_of_mem hm hi
    (List.mem_append_right _ (List.mem_append_right _ hid))
  exact ⟨hlt, hrel.old id hlt⟩

/-- Both runs may define what an instruction of a block defines. -/
theorem Related.bind_result (hrel : Related m reached env env') (hm : m.WellFormed)
    (honce : m.DefinedOnce) (hi : i ∈ bodies m) {id : Id} (hresult : i.result = some id)
    (v : Value) : Related m reached (env.bind id v) (env'.bind id v) := by
  have hmem : id ∈ i.mentions := by
    rw [Instruction.mentions, hresult]
    exact List.mem_append_left _ (List.mem_singleton_self id)
  refine hrel.bind (number_lt_of_mem hm hi hmem) ?_ v
  rw [Bool.eq_false_iff]
  intro hdeclared
  obtain ⟨entry, hentry, hsame⟩ := ConstantTable.isDeclared_iff.1 hdeclared
  have hglobal := (ConstantTable.readFrom_analyze m.declaredTypes m).ids.subset
    (List.mem_map_of_mem hentry)
  rw [honce.same_eq_false ((bodies_sublist_functions m).subset hi) hresult hglobal] at hsame
  cases hsame

theorem run_guarded {ev : Evaluator} (hg : g.shift.isTerminator = false) (is : List Instruction) :
    ev.run inputs env (g.renamed :: g.insertion :: is)
      = (ev.step inputs env g.renamed >>= fun env => ev.step inputs env g.insertion) >>= fun env =>
        ev.run inputs env is := by
  have hrenamed : g.renamed.isTerminator = false := hg
  have hinsertion : g.insertion.isTerminator = false := by
    show Opcode.isTerminator "OpBitFieldInsert" = false
    decide +kernel
  rw [run_cons hrenamed, bind_assoc]
  congr 1
  funext env
  exact run_cons hinsertion is

/-- The guards that a run through instructions reaches. -/
def reachedIn (gs : List Guard) (is : List Instruction) : List Guard :=
  (is.takeWhile fun i => !i.isTerminator).filterMap (guardOf? gs)

theorem mem_reachedIn (hnodup : (gs.map Guard.shift).Nodup) {is : List Instruction} :
    g ∈ reachedIn gs is ↔ g ∈ gs ∧ g.shift ∈ is.takeWhile fun i => !i.isTerminator := by
  rw [reachedIn, List.mem_filterMap]
  constructor
  · rintro ⟨i, hi, hguard⟩
    obtain ⟨hg, rfl⟩ := mem_of_guardOf? hguard
    exact ⟨hg, hi⟩
  · rintro ⟨hg, hi⟩
    exact ⟨g.shift, hi, guardOf?_of_mem hnodup hg⟩

section Simulation

variable (hm : m.WellFormed) (h : Rewrites m gs ds m')
include hm h

/-- The zero of a guard has no value in the second run, and is no temporary. -/
theorem zero_unbound (hrel : Related m reached env env') (hreached : reached ⊆ gs) {c : Constant}
    {z : Id} (hz : (constantsWith m ds).id? c = some z) :
    env'.value? z = none ∧ ∀ g ∈ gs, g.temporary.same z = false := by
  have hnodup := h.fresh.1
  obtain ⟨found, -, hmem⟩ := ConstantTable.mem_of_id? hz
  rcases List.mem_append.1 hmem with hold | hnew
  · have hlt : z.number < m.bound := (constant_below hm hold).2
    refine ⟨?_, fun g hg => ?_⟩
    · rw [hrel.old z hlt]
      exact hrel.constants z (ConstantTable.isDeclared_of_mem hold)
    · have hge := h.le_temporary hg
      rw [Id.same_eq_false_iff]
      omega
  · obtain ⟨d, hd, heq⟩ := List.mem_map.1 hnew
    cases heq
    have hother : ∀ g ∈ gs, g.temporary.same d.id = false := by
      intro g hg
      rw [List.map_append, List.nodup_append] at hnodup
      rw [Id.same_eq_false_iff]
      refine Ne.symm (hnodup.2.2 _ (List.mem_map_of_mem ?_) _ (List.mem_map_of_mem ?_))
      · exact List.mem_map_of_mem hd
      · exact List.mem_map_of_mem hg
    refine ⟨?_, hother⟩
    rw [← Option.not_isSome_iff_eq_none, (hrel.new d.id (h.le_declaration hd)).2]
    rintro ⟨g, hg, hsame⟩
    rw [hother g (hreached hg)] at hsame
    cases hsame

variable (honce : m.DefinedOnce)
include honce

/-- **An instruction that is not guarded does the same in both runs.** -/
theorem step_alike (hrel : Related m reached env env') (hi : i ∈ bodies m) :
    Alike (Related m reached) ((oldEvaluator m).step inputs env i)
      ((newEvaluator m ds).step inputs env' i) := by
  rw [step, step]
  cases hresult : i.result with
  | none => exact hrel
  | some id =>
    dsimp only
    by_cases hinput : (inputs.value? id).isSome = true
    · rw [if_pos hinput, if_pos hinput]
      exact hrel
    · rw [if_neg hinput, if_neg hinput]
      refine (instruction_alike (h.extends_constants hm) rfl rfl rfl (hrel.read hm hi)).bind ?_
      rintro v _ rfl
      exact hrel.bind_result hm honce hi hresult v

/-- **The bit field insert gives the value of the shift.** -/
theorem insertion_eq (hrel : Related m reached env env') (hreached : reached ⊆ gs) (hg : g ∈ gs)
    {v : Value}
    (hv : instruction (oldEvaluator m) env g.shift = .ok v) :
    instruction (newEvaluator m ds) (env'.bind g.temporary v) g.insertion
      = .ok v := by
  obtain ⟨-, typeId, type, c, htypeId, htype, hzero, hz⟩ := h.guards g hg
  obtain ⟨w, hwidth, args, -, hcomputes⟩ := instruction_eq_ok_iff.1 hv
  have hopcode : g.shift.opcode ≠ "OpCopyObject" := by
    rw [h.opcode_shift hg]
    decide
  have htypeOf : g.shift.type.bind m.declaredTypes.type? = some type := by
    rw [htypeId]
    exact htype
  -- the value of the shift was cut to its type, and only therefore is the insert the identity
  rw [htypeOf] at hwidth hcomputes
  obtain ⟨_, ⟨⟩, htyped⟩ := hasType_of_computes hwidth hopcode hcomputes
  obtain ⟨hunbound, hother⟩ := zero_unbound hm h hrel hreached hz
  have hvalue : (env'.bind g.temporary v).value? g.temporary = some v := by
    rw [Environment.value?_bind, if_pos (Id.same_refl _)]
  have hnone : (env'.bind g.temporary v).value? g.zero = none := by
    rw [Environment.value?_bind, if_neg (by rw [hother g hg]; exact Bool.false_ne_true)]
    exact hunbound
  have hoperand := h.operandValue_zero hm honce hzero hz hnone
  refine instruction_eq_ok_iff.2
    ⟨w, ?_, [v, zeroOf type, zeroOf type, zeroOf type], mapM_eq_ok_iff.2 ?_, ?_⟩
  · exact htypeOf ▸ hwidth
  · exact .cons (operandValue_of_value? hvalue) (.cons hoperand (.cons hoperand
      (.cons hoperand .nil)))
  · show Computes "OpBitFieldInsert" (g.shift.type.bind m.declaredTypes.type?) w _ v
    rw [htypeOf]
    exact computes_insert htyped hwidth

/-- **A guarded shift and its bit field insert do what the shift did.** -/
theorem step_guarded (hinputs : Admissible m gs inputs) (hrel : Related m reached env env')
    (hreached : reached ⊆ gs) (hg : g ∈ gs) :
    Alike (Related m (reached ++ [g])) ((oldEvaluator m).step inputs env g.shift)
      ((newEvaluator m ds).step inputs env' g.renamed >>= fun env' =>
        (newEvaluator m ds).step inputs env' g.insertion) := by
  obtain ⟨id, hresult⟩ := Option.isSome_iff_exists.1 (h.guards g hg).1
  have hinput := hinputs.result_eq_none hg hresult
  have htemporary : inputs.value? g.temporary = none :=
    (hinputs.related.new _ (h.le_temporary hg)).1
  have hmem : g.shift ∈ bodies m := (candidates_sublist m).subset (h.candidate hg)
  have hshift : Alike Eq ((oldEvaluator m).instruction env g.shift)
      ((newEvaluator m ds).instruction env' g.renamed) :=
    instruction_alike (h.extends_constants hm) rfl rfl rfl (hrel.read hm hmem)
  have hrenamed : g.renamed.result = some g.temporary := rfl
  rw [step_of_result hresult hinput, step_of_result hrenamed htemporary, bind_assoc]
  refine hshift.with_ok.bind ?_
  rintro v _ ⟨rfl, hv, -⟩
  have hbound := (hrel.bind_temporary (h.le_temporary hg) v).bind_result hm honce hmem hresult v
  show Alike _ _ ((newEvaluator m ds).step inputs (env'.bind g.temporary v) g.insertion)
  have hinsertion : g.insertion.result = some id := hresult
  rw [step_of_result hinsertion hinput, insertion_eq hm h honce hrel hreached hg hv]
  exact hbound

/-- **The run through the guarded instructions does what the run through the old ones did.** -/
theorem run_alike (hinputs : Admissible m gs inputs) {is : List Instruction}
    (his : ∀ i ∈ is, i ∈ bodies m) (hrel : Related m reached env env') (hreached : reached ⊆ gs) :
    Alike (Related m (reached ++ reachedIn gs is)) ((oldEvaluator m).run inputs env is)
      ((newEvaluator m ds).run inputs env' (is.flatMap (guarded gs))) := by
  -- the guards that were reached grow on the way, so that the relation changes with every shift
  induction is generalizing reached env env' with
  | nil =>
    rw [reachedIn, List.takeWhile_nil, List.filterMap_nil, List.append_nil]
    exact hrel
  | cons i is ih =>
    obtain ⟨hi, hrest⟩ := List.forall_mem_cons.1 his
    rw [List.flatMap_cons]
    by_cases hterm : i.isTerminator = true
    · -- a shift ends no block, so both runs end at the same instruction
      have hnone : guarded gs i = [i] := by
        refine guarded_of_not_mem fun hmem => ?_
        obtain ⟨g, hg, rfl⟩ := List.mem_map.1 hmem
        rw [h.isTerminator_shift hg] at hterm
        cases hterm
      rw [hnone, List.singleton_append, run_of_isTerminator hterm, run_of_isTerminator hterm,
        reachedIn, List.takeWhile_cons, if_neg (by rw [hterm]; exact Bool.false_ne_true),
        List.filterMap_nil, List.append_nil]
      exact hrel
    · have hfalse : i.isTerminator = false := Bool.eq_false_iff.2 hterm
      have hreachedIn : reachedIn gs (i :: is) = (guardOf? gs i).toList ++ reachedIn gs is := by
        rw [reachedIn, List.takeWhile_cons, if_pos (by rw [hfalse]; rfl), List.filterMap_cons]
        cases guardOf? gs i <;> rfl
      rw [run_cons hfalse, hreachedIn]
      cases hguard : guardOf? gs i with
      | none =>
        rw [guarded, hguard]
        dsimp only
        rw [List.singleton_append, run_cons hfalse]
        exact (step_alike hm h honce hrel hi).bind fun env env' hrel => ih hrest hrel hreached
      | some g =>
        obtain ⟨hg, rfl⟩ := mem_of_guardOf? hguard
        have hsubset : reached ++ [g] ⊆ gs :=
          List.append_subset.2 ⟨hreached, List.cons_subset.2 ⟨hg, List.nil_subset _⟩⟩
        rw [guarded_of_guardOf? hguard, List.cons_append, List.cons_append, List.nil_append,
          run_guarded hfalse]
        refine (step_guarded hm h honce hinputs hrel hreached hg).bind fun env env' hrel => ?_
        have hall := ih hrest hrel hsubset
        rwa [List.append_assoc] at hall

end Simulation

/-! ## Evaluation before and after a run -/

/-- Evaluates a block of a module, whose declarations are read anew. -/
def evaluate (m : Module) (inputs : Environment) (b : Block) : Except Error Environment := do
  (← Evaluator.ofModule m).block inputs b

theorem evaluate_eq_ok_iff {b : Block} : evaluate m inputs b = .ok env ↔
    ∃ r, Registry.ofModule m = .ok r ∧
      Evaluator.run ⟨r.types, some r.constants⟩ inputs inputs b.instructions = .ok env := by
  rw [evaluate, Evaluator.ofModule, bind_eq_ok_iff]
  simp only [bind_eq_ok_iff, pure, Except.pure, Except.ok.injEq]
  constructor
  · rintro ⟨_, ⟨r, hr, rfl⟩, hrun⟩
    exact ⟨r, hr, hrun⟩
  · rintro ⟨r, hr, hrun⟩
    exact ⟨_, ⟨r, hr, rfl⟩, hrun⟩

theorem evaluate_old {r : Registry} (hr : Registry.ofModule m = .ok r) {b : Block} :
    evaluate m inputs b = .ok env ↔
      (oldEvaluator m).run inputs inputs b.instructions = .ok env := by
  rw [evaluate_eq_ok_iff]
  obtain ⟨-, -, rfl⟩ := Registry.ofModule_eq_ok_iff.1 hr
  simp only [hr, Except.ok.injEq, exists_eq_left']
  rfl

theorem evaluate_new (honce : m.DefinedOnce) {r : Registry} (hr : Registry.ofModule m = .ok r)
    {es : List Event} {status : PassStatus} {count : GuardCount}
    (h : Outcome m es status count m') {b : Block} :
    evaluate m' inputs b = .ok env ↔ (∀ d ∈ declarations es, d.Fits) ∧
      (newEvaluator m (declarations es)).run inputs inputs b.instructions = .ok env := by
  rw [evaluate_eq_ok_iff]
  simp only [h.ofModule_eq_ok_iff honce hr]
  constructor
  · rintro ⟨_, ⟨hfits, rfl⟩, hok⟩
    exact ⟨hfits, hok⟩
  · rintro ⟨hfits, hok⟩
    exact ⟨_, ⟨hfits, rfl⟩, hok⟩

/-- Values are kept, and the temporaries that were reached are the only new ones. -/
theorem Related.values (h : Related m reached env env')
    (hreached : ∀ g ∈ reached, m.bound ≤ g.temporary.number) :
    (∀ id v, env.value? id = some v → env'.value? id = some v) ∧
      ∀ id, (env'.value? id).isSome = true ↔
        (env.value? id).isSome = true ∨ ∃ g ∈ reached, g.temporary.same id = true := by
  refine ⟨fun id v hv => ?_, fun id => ?_⟩
  · by_cases hid : id.number < m.bound
    · rw [h.old id hid, hv]
    · rw [(h.new id (Nat.not_lt.1 hid)).1] at hv
      cases hv
  · by_cases hid : id.number < m.bound
    · rw [h.old id hid, or_iff_left]
      rintro ⟨g, hg, hsame⟩
      have hge := hreached g hg
      have heq := Id.same_iff.1 hsame
      omega
    · obtain ⟨hnone, hsome⟩ := h.new id (Nat.not_lt.1 hid)
      rw [hsome, hnone, or_iff_right]
      exact Bool.false_ne_true

/-- **The pass preserves values.**  Every block evaluates as it did, whatever the status, if no zero
was declared of a type so long that it cannot be read again. -/
theorem evaluate_runBarrier {settings : Settings} {source : String}
    (hparse : Assembly.parse settings source = .ok m) (honce : m.DefinedOnce) {r : Registry}
    (hr : Registry.ofModule m = .ok r) {cache : Cache} (hcache : Cache.Reachable m cache)
    {log : Log} {run : PassRun} {s : Session}
    (hrun : Pass.runBarrier { target := m, cache, log } = (run, s)) {status : PassStatus}
    (hstatus : run.result = .ok status) :
    ∃ gs ds, Rewrites m gs ds s.target ∧
      ∀ f ∈ m.functions, ∀ b ∈ f.blocks, ∀ inputs, Admissible m gs inputs →
        ((∃ env', evaluate s.target inputs (guardedBlock gs b) = .ok env') ↔
          (∃ env, evaluate m inputs b = .ok env) ∧ ∀ d ∈ ds, d.Fits) ∧
        ∀ env env', evaluate m inputs b = .ok env →
          evaluate s.target inputs (guardedBlock gs b) = .ok env' →
          (∀ id v, env.value? id = some v → env'.value? id = some v) ∧
          ∀ id, (env'.value? id).isSome = true ↔ (env.value? id).isSome = true ∨
            ∃ g ∈ gs, g.shift ∈ b.instructions.takeWhile (fun i => !i.isTerminator) ∧
              g.temporary.same id = true := by
  have hm := Assembly.wellFormed_of_parse hparse
  obtain ⟨es, count, -, houtcome⟩ := runBarrier_outcome hm hcache.sound hrun hstatus
  have h := houtcome.rewrites hm
  refine ⟨guards es, declarations es, h, fun f hf b hb inputs hinputs => ?_⟩
  have hbodies : ∀ i ∈ b.instructions, i ∈ bodies m := by
    intro i hi
    rw [bodies_eq]
    exact List.mem_flatMap.2 ⟨f, hf, List.mem_flatMap.2 ⟨b, hb, hi⟩⟩
  have halike := run_alike hm h honce hinputs hbodies hinputs.related (List.nil_subset _)
  rw [List.nil_append] at halike
  refine ⟨?_, fun env env' henv henv' => ?_⟩
  · simp only [evaluate_old hr, evaluate_new honce hr houtcome, exists_and_left]
    rw [halike.exists_ok_iff, and_comm]
    rfl
  · have hok := (evaluate_old hr).1 henv
    have hok' := ((evaluate_new honce hr houtcome).1 henv').2
    have hrelated := halike.of_ok hok hok'
    obtain ⟨hvalues, hnew⟩ := hrelated.values fun g hg =>
      h.le_temporary ((mem_reachedIn h.nodup_shifts).1 hg).1
    refine ⟨hvalues, fun id => ?_⟩
    simp only [hnew, mem_reachedIn h.nodup_shifts, and_assoc]

/-- The guard of the example keeps the value of the shift. -/
theorem evaluate_runBarrier_sample :
    Assembly.parse {} sampleText = .ok sample ∧ sample.DefinedOnce ∧
      (∃ r, Registry.ofModule sample = .ok r) ∧
      ∃ gs ds, Rewrites sample gs ds (Pass.runBarrier { target := sample }).2.target ∧
        ∃ f ∈ sample.functions, ∃ b ∈ f.blocks, Admissible sample gs [(⟨4, none⟩, .scalar 5)] ∧
          ∃ env', evaluate (Pass.runBarrier { target := sample }).2.target
              [(⟨4, none⟩, .scalar 5)] (guardedBlock gs b) = .ok env' ∧
            env'.value? ⟨6, none⟩ = some (.scalar 40) := by
  have honce : sample.DefinedOnce := by
    rw [Module.DefinedOnce]
    decide
  obtain ⟨r, hr⟩ : ∃ r, Registry.ofModule sample = .ok r := ⟨_, rfl⟩
  obtain ⟨gs, ds, h, hvalues⟩ :=
    evaluate_runBarrier parse_sample honce hr .empty rfl status_sample
  have hinputs : Admissible sample gs [(⟨4, none⟩, .scalar 5)] := by
    intro entry hentry
    rw [List.mem_singleton.1 hentry]
    refine ⟨by decide, by decide, fun g hg result hresult => ?_⟩
    have hall : ∀ i ∈ candidates sample, ∀ id ∈ i.result, id.same ⟨4, none⟩ = false := by
      decide
    exact hall _ (h.candidate hg) result hresult
  have hfits : ∀ d ∈ ds, d.Fits := by
    intro d hd w s htype
    obtain ⟨found, hsame, hmem⟩ := TypeTable.mem_of_id? (h.zeros d hd).2
    rw [htype, Ty.same_int_iff] at hsame
    have hall : ∀ entry ∈ sample.declaredTypes.entries, entry.2 = .int 32 false := by decide
    have heq := hall _ hmem
    rw [hsame] at heq
    cases heq
    decide
  have hbefore : evaluate sample [(⟨4, none⟩, .scalar 5)] (sample.blocks.head (by decide))
      = .ok [(⟨4, none⟩, .scalar 5), (⟨6, none⟩, .scalar 40)] := rfl
  obtain ⟨hiff, hsame⟩ :=
    hvalues _ (List.mem_singleton_self _) _ (List.mem_singleton_self _) _ hinputs
  obtain ⟨env', henv'⟩ := hiff.2 ⟨⟨_, hbefore⟩, hfits⟩
  exact ⟨parse_sample, honce, ⟨r, hr⟩, gs, ds, h, _, List.mem_singleton_self _, _,
    List.mem_singleton_self _, hinputs, env', henv', (hsame _ _ hbefore henv').1 _ _ rfl⟩

/-! ### A type that is too long -/

/-- A shift of an integer of `2 ^ 70` bits, and a block behind it that does nothing. -/
def wideText : String :=
  "%1 = OpTypeInt 1180591620717411303424 0\n%2 = OpTypeInt 32 0\n%3 = OpConstant %2 3\n" ++
  "%4 = OpFunction %2 None %2\n%5 = OpLabel\n%6 = OpShiftLeftLogical %1 %3 %3\n" ++
  "OpBranch %7\n%7 = OpLabel\nOpReturn\nOpFunctionEnd\n"

/-- The module of that text. -/
def wide : Module :=
  { globals :=
      [{ opcode := "OpTypeInt", result := some ⟨1, none⟩,
         operands := [.literal (.int (2 ^ 70)) none, .literal (.int 0) none], serial := 0 },
       { opcode := "OpTypeInt", result := some ⟨2, none⟩,
         operands := [.literal (.int 32) none, .literal (.int 0) none], serial := 1 },
       { opcode := "OpConstant", type := some ⟨2, none⟩, result := some ⟨3, none⟩,
         operands := [.literal (.int 3) none], serial := 2 }]
    functions :=
      [{ id := ⟨4, none⟩
         definition :=
           { opcode := "OpFunction", type := some ⟨2, none⟩, result := some ⟨4, none⟩,
             operands := [.enumerant "None", .id ⟨2, none⟩], serial := 3 }
         blocks :=
           [{ label := ⟨5, none⟩
              instructions :=
                [{ opcode := "OpShiftLeftLogical", type := some ⟨1, none⟩,
                   result := some ⟨6, none⟩, operands := [.id ⟨3, none⟩, .id ⟨3, none⟩],
                   serial := 4 },
                 { opcode := "OpBranch", operands := [.id ⟨7, none⟩], serial := 5 }] },
            { label := ⟨7, none⟩
              instructions := [{ opcode := "OpReturn", serial := 6 }] }] }]
    bound := 8
    nextSerial := 7 }

/-- After the pass, the zero of the long type cannot be read, and no block can be evaluated. -/
theorem evaluate_wide :
    Assembly.parse {} wideText = .ok wide ∧ wide.DefinedOnce ∧
      (∃ r, Registry.ofModule wide = .ok r) ∧
      (Pass.runBarrier { target := wide }).1.result = .ok .changed ∧
      ∃ b, wide.blocks[1]? = some b ∧
        (Pass.runBarrier { target := wide }).2.target.blocks[1]? = some b ∧
        evaluate wide [] b = .ok [] ∧
        ∀ env, evaluate (Pass.runBarrier { target := wide }).2.target [] b ≠ .ok env := by
  refine ⟨toOption_eq_some_iff.1 (by decide +kernel), ?_, ⟨_, rfl⟩, rfl, _, rfl, rfl, rfl, ?_⟩
  · rw [Module.DefinedOnce]
    decide
  · have herror : evaluate (Pass.runBarrier { target := wide }).2.target []
        ⟨⟨7, none⟩, [{ opcode := "OpReturn", serial := 6 }]⟩ = .error (.tooLong (2 ^ 70)) := rfl
    intro env henv
    cases herror.symm.trans henv

end Barrier
end ShiftBarrier
