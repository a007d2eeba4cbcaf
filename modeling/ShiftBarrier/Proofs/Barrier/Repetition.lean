import ShiftBarrier.Proofs.Barrier.Findings
import ShiftBarrier.Proofs.Barrier.Hiding
import ShiftBarrier.Proofs.Barrier.Resources

/-!
# Repeated runs

A guarded shift is still a shift by a constant, so every further run puts one more bit field insert
between the shift and the inserts that are there.  The zeros were declared by the first run.

* `Round` is one run that succeeds, and `Round.next` what the run after it finds: the same
  candidates but for their results, and a zero for each of them.
* `zeroFor` is the zero of a type.
* `Chain` describes what a shift has become, and `Grown` what a module has; `Grown.step` is the
  induction step.
* `repeated_runs` puts this together for any number of runs.
-/

set_option autoImplicit false

namespace ShiftBarrier
namespace Barrier

/-! ## The candidates after a run

A shift keeps its operands, so it is a candidate again, under its new result.  The insert behind it
is no shift. -/

namespace Outcome

variable {m m' : Module} {es : List Event} {status : PassStatus} {count : GuardCount}
  {i : Instruction}

theorem guarded_of_not_candidate (h : Outcome m es status count m')
    (hi : isCandidate m.declaredConstants i = false) : guarded (guards es) i = [i] := by
  refine guarded_of_not_mem fun hmem => ?_
  obtain ⟨g, hg, rfl⟩ := List.mem_map.1 hmem
  rw [(h.candidate_of_mem hg).2] at hi
  cases hi

/-- A run that succeeds guards every candidate. -/
theorem exists_guard (h : Outcome m es status count m') (hstatus : status ≠ .failure)
    (hi : i ∈ candidates m) : ∃ g ∈ guards es, g.shift = i ∧ guardOf? (guards es) i = some g := by
  rw [← h.shifts_eq_candidates hstatus] at hi
  cases hguard : guardOf? (guards es) i with
  | none => exact absurd hi (guardOf?_eq_none_iff.1 hguard)
  | some g =>
    obtain ⟨hg, hshift⟩ := mem_of_guardOf? hguard
    exact ⟨g, hg, hshift, rfl⟩

theorem isCandidate_renamed (hm : m.WellFormed) (h : Outcome m es status count m') {g : Guard}
    (hg : g ∈ guards es) : isCandidate m'.declaredConstants g.renamed = true := by
  obtain ⟨hbody, hcandidate⟩ := h.candidate_of_mem hg
  rw [← hcandidate, ← h.isCandidate_eq hm (uses_below hm _ hbody)]
  rfl

/-- **The candidates after a run are the shifts that it renamed.** -/
theorem candidates_eq (hm : m.WellFormed) (h : Outcome m es status count m')
    (hstatus : status ≠ .failure) : candidates m' = (guards es).map Guard.renamed := by
  have hone : ∀ i ∈ bodies m, (guarded (guards es) i).filter (isCandidate m'.declaredConstants)
      = ((guardOf? (guards es) i).map Guard.renamed).toList := by
    intro i hi
    cases hguard : guardOf? (guards es) i with
    | none =>
      have hnot : isCandidate m.declaredConstants i = false := by
        rw [← Bool.not_eq_true]
        intro hcandidate
        obtain ⟨g, -, -, hsome⟩ := h.exists_guard hstatus (List.mem_filter.2 ⟨hi, hcandidate⟩)
        rw [hguard] at hsome
        cases hsome
      rw [h.guarded_of_not_candidate hnot,
        List.filter_cons_of_neg (by simp [h.isCandidate_eq hm (uses_below hm i hi), hnot])]
      rfl
    | some g =>
      have hinsertion : isCandidate m'.declaredConstants g.insertion = false := rfl
      rw [guarded_of_guardOf? hguard,
        List.filter_cons_of_pos (h.isCandidate_renamed hm (mem_of_guardOf? hguard).1),
        List.filter_cons_of_neg (by simp [hinsertion])]
      rfl
  have hnodup := hm.nodup_instructions.sublist (bodies_sublist m)
  rw [candidates, h.target, bodies_rewritten, List.filter_flatMap, ← h.target,
    List.flatMap_congr hone, ← List.filterMap_eq_flatMap_toList, ← List.map_filterMap,
    filterMap_guardOf? hnodup h.guards_sublist]

end Outcome

/-! ## Zeros -/

/-- The zero that the guards of a type are made of. -/
def zeroFor (t : ConstantTable) : Ty → Option Id
  | .int w s => t.id? (.zero w s)
  | .vector (.int w s) n => (t.id? (.zero w s)).bind fun z =>
    t.id? (.composite (.vector (.int w s) n) (List.replicate n z))
  | _ => none

section Zeros

variable {m : Module} {t : ConstantTable} {type : Ty} {c : Constant} {z : Id}

theorem zeroFor_of_isZeroOf (honce : m.DefinedOnce) (hzero : IsZeroOf m.declaredTypes t type c)
    (hid : t.id? c = some z) : zeroFor t type = some z := by
  rcases hzero.cases_of_once honce with ⟨w, s, rfl, rfl⟩ | ⟨w, s, n, z', rfl, rfl, hz'⟩
  · exact hid
  · rw [zeroFor, hz', Option.bind_some, hid]

/-- All zeros that it takes to make the zero of a type are there with it. -/
theorem hasZero_of_isZeroOf (honce : m.DefinedOnce) (hzero : IsZeroOf m.declaredTypes t type c)
    (hid : t.id? c = some z) : ∀ needed ∈ needs type, hasZero t needed = true := by
  rcases hzero.cases_of_once honce with ⟨w, s, rfl, rfl⟩ | ⟨w, s, n, z', rfl, rfl, hz'⟩
  · rw [needs, List.forall_mem_singleton, hasZero_int, hid]
    rfl
  · rw [needs, List.forall_mem_cons, List.forall_mem_singleton, hasZero_int, hasZero_vector hz',
      hz', hid]
    exact ⟨rfl, rfl⟩

end Zeros

/-! ## One round

What a round leaves behind is just what the next round has to know. -/

/-- A run on fresh analyses that ends well, with the guards that it reports. -/
def SucceedsWith (m : Module) (count : GuardCount) (m' : Module) : Prop :=
  ∃ log run s status, Pass.runBarrier { target := m, log } = (run, s) ∧
    run.result = .ok status ∧ status ≠ .failure ∧ run.guards = some count ∧ s.target = m'

/-- A run that succeeds, in terms of its events. -/
structure Round (m : Module) (es : List Event) (count : GuardCount) (m' : Module) : Prop where
  wellFormed : m.WellFormed
  once : m.DefinedOnce
  readable : ∃ r, Registry.ofModule m = .ok r
  outcome : ∃ status, status ≠ .failure ∧ Outcome m es status count m'
  /-- An id for every candidate and for every zero that is missing. -/
  bound : m'.bound = m.bound + (candidates m).length +
    (missing m.declaredConstants ((candidates m).flatMap (needsOf m.declaredTypes))).card

section Round

variable {m m' m'' : Module} {es es' : List Event} {count count' : GuardCount}

theorem SucceedsWith.round (hm : m.WellFormed) (honce : m.DefinedOnce)
    (h : SucceedsWith m count m') : ∃ es, Round m es count m' := by
  obtain ⟨log, run, s, status, hrun, hresult, hstatus, hcount, rfl⟩ := h
  obtain ⟨r, hr⟩ := exists_ofModule_of_runBarrier hrun hresult
  obtain ⟨es, count', hcount', houtcome⟩ :=
    runBarrier_outcome hm Cache.Reachable.empty.sound hrun hresult
  rw [hcount'] at hcount
  cases hcount
  have hsuccess : run.result = .ok .changed ∨ run.result = .ok .unchanged := by
    rw [hresult]
    cases status with
    | failure => exact absurd rfl hstatus
    | changed => exact .inl rfl
    | unchanged => exact .inr rfl
  refine ⟨es, hm, honce, ⟨r, hr⟩, ⟨status, hstatus, houtcome⟩, ?_⟩
  rw [runBarrier_of_ofModule hr] at hrun
  exact barrierOn_bound hm honce hrun hsuccess

namespace Round

theorem guards_length (h : Round m es count m') : (guards es).length = (candidates m).length := by
  obtain ⟨status, hstatus, houtcome⟩ := h.outcome
  rw [← houtcome.shifts_eq_candidates hstatus, List.length_map]

/-- The guards are counted by the types of the candidates. -/
theorem count_eq (h : Round m es count m') :
    count = { scalar := (candidates m).countP fun i => !isVectorResult m.declaredTypes i
              vector := (candidates m).countP fun i => isVectorResult m.declaredTypes i } := by
  obtain ⟨status, hstatus, houtcome⟩ := h.outcome
  rw [houtcome.count, countGuards_eq, ← houtcome.shifts_eq_candidates hstatus, List.countP_map,
    List.countP_map, Nat.zero_add, Nat.zero_add]
  rfl

theorem total_eq (h : Round m es count m') : count.total = (candidates m).length := by
  obtain ⟨status, -, houtcome⟩ := h.outcome
  rw [houtcome.count, total_countGuards, h.guards_length]
  exact Nat.zero_add _

/-- The zeros that the guards of a run are made of are there when it is over. -/
theorem hasZero_of_mem (h : Round m es count m') {g : Guard} (hg : g ∈ guards es) :
    ∀ type ∈ needsOf m.declaredTypes g.shift,
      hasZero (constantsWith m (declarations es)) type = true := by
  obtain ⟨status, -, houtcome⟩ := h.outcome
  obtain ⟨-, id, type, c, hid, htype, hzero, hc⟩ := houtcome.guard_of_mem hg
  have hneeds : needsOf m.declaredTypes g.shift = needs type := by
    rw [needsOf, hid, Option.bind_some, htype, Option.elim_some]
  rw [hneeds]
  exact hasZero_of_isZeroOf h.once hzero hc

/-- **What the next run finds**: as many candidates of the same types, and a zero for each, so that
it declares nothing. -/
theorem next (h : Round m es count m') (h' : Round m' es' count' m'') :
    m'.declaredTypes = m.declaredTypes ∧
      m'.declaredConstants = constantsWith m (declarations es) ∧
      declarations es' = [] ∧ count' = count := by
  obtain ⟨status, hstatus, houtcome⟩ := h.outcome
  obtain ⟨status', hstatus', houtcome'⟩ := h'.outcome
  have htypes := houtcome.declaredTypes_eq
  have hconstants : m'.declaredConstants = constantsWith m (declarations es) := by
    obtain ⟨r, hr⟩ := h.readable
    obtain ⟨r', hr'⟩ := h'.readable
    obtain ⟨-, -, hstart⟩ := Registry.ofModule_eq_ok_iff.1 hr'
    obtain ⟨-, hleft⟩ := (houtcome.ofModule_eq_ok_iff h.once hr).1 hr'
    exact congrArg Registry.constants (hstart.symm.trans hleft)
  have hcandidates := houtcome.candidates_eq h.wellFormed hstatus
  have hnone : missing m'.declaredConstants ((candidates m').flatMap (needsOf m'.declaredTypes))
      = ∅ := by
    rw [Finset.eq_empty_iff_forall_notMem]
    intro type hmissing
    obtain ⟨htype, hno⟩ := mem_missing.1 hmissing
    rw [hcandidates, htypes, List.flatMap_map] at htype
    obtain ⟨g, hg, hneeded⟩ := List.mem_flatMap.1 htype
    rw [hconstants, h.hasZero_of_mem hg type hneeded] at hno
    cases hno
  refine ⟨htypes, hconstants, ?_, ?_⟩
  · have hbound := h'.bound
    have hguards := h'.guards_length
    have hadded := (houtcome'.rewrites h'.wellFormed).bound
    rw [hnone, Finset.card_empty] at hbound
    rw [← List.length_eq_zero_iff]
    omega
  · rw [h'.count_eq, h.count_eq, hcandidates, htypes, ← houtcome.shifts_eq_candidates hstatus,
      List.countP_map, List.countP_map, List.countP_map, List.countP_map]
    rfl

end Round
end Round

/-! ## Chains

The last insert of a chain defines the id of the old shift, so the users of the shift do not
notice. -/

/-- What a shift `i` has become after `n` runs.  It has another result, and behind it stand `n` bit
field inserts of no bits, each of which consumes the result of the instruction right before it.  The
last of them defines the id that the shift defined. -/
structure Chain (zero : Id) (n : Nat) (i shift : Instruction) (inserts : List Instruction) :
    Prop where
  same : anonymous shift = anonymous i
  length : inserts.length = n
  kind : ∀ j ∈ inserts, j.opcode = "OpBitFieldInsert" ∧ j.type = i.type
  links : (shift :: inserts).IsChain fun j k =>
    ∃ id, j.result = some id ∧ k.operands = [.id id, .id zero, .id zero, .id zero]
  last : (shift :: inserts).getLast?.bind Instruction.result = i.result

namespace Chain

variable {zero : Id} {n : Nat} {i shift : Instruction} {inserts : List Instruction}

theorem refl (zero : Id) (i : Instruction) : Chain zero 0 i i [] :=
  ⟨rfl, rfl, List.forall_mem_nil _, List.isChain_singleton _, rfl⟩

theorem type_eq (h : Chain zero n i shift inserts) : shift.type = i.type := by
  have htype : (anonymous shift).type = (anonymous i).type := by rw [h.same]
  exact htype

/-- One more guard comes between the shift and its inserts. -/
theorem guard {g : Guard} (h : Chain g.zero n i g.shift inserts) :
    Chain g.zero (n + 1) i g.renamed (g.insertion :: inserts) where
  same := h.same
  length := congrArg (· + 1) h.length
  kind := List.forall_mem_cons.2 ⟨⟨rfl, h.type_eq⟩, h.kind⟩
  links := by
    refine List.isChain_cons_cons.2 ⟨⟨g.temporary, rfl, rfl⟩, ?_⟩
    -- the insert has taken the result of the shift over
    exact List.isChain_cons.2 (List.isChain_cons.1 h.links)
  last := by
    have hlast := h.last
    rw [List.getLast?_cons_cons]
    cases inserts with
    | nil => exact hlast
    | cons j inserts =>
      rw [List.getLast?_cons_cons] at hlast ⊢
      exact hlast

/-- None of the inserts is a candidate. -/
theorem not_candidate (h : Chain zero n i shift inserts) (t : ConstantTable) :
    ∀ j ∈ inserts, isCandidate t j = false := by
  intro j hj
  rw [isCandidate, (h.kind j hj).1]
  rfl

end Chain

/-! ## Modules with chains -/

/-- A function in which every instruction is replaced by others. -/
def chained (chains : Instruction → List Instruction) (f : Function) : Function :=
  { f with blocks := f.blocks.map fun b =>
      { b with instructions := b.instructions.flatMap chains } }

theorem chained_singleton (f : Function) : chained (fun i => [i]) f = f := by
  have hblock : ∀ b : Block, { b with instructions := b.instructions.flatMap fun i => [i] } = b :=
    fun b => by rw [List.flatMap_singleton']
  rw [chained, funext hblock, List.map_id']

theorem guardedFunction_chained (gs : List Guard) (chains : Instruction → List Instruction)
    (f : Function) : guardedFunction gs (chained chains f)
      = chained (fun i => (chains i).flatMap (guarded gs)) f := by
  simp only [guardedFunction, guardedBlock, chained, List.map_map, Function.comp_def,
    List.flatMap_assoc]

/-- The module `m'` is `m` with a chain of `n` inserts behind every candidate. -/
structure Grown (m : Module) (zero : Ty → Id) (n : Nat) (chains : Instruction → List Instruction)
    (m' : Module) : Prop where
  functions : m'.functions = m.functions.map (chained chains)
  bound_le : m.bound ≤ m'.bound
  others : ∀ i ∈ bodies m, isCandidate m.declaredConstants i = false →
    chains i = [i] ∧ isCandidate m'.declaredConstants i = false
  shifts : ∀ i ∈ candidates m, ∃ type shift inserts, resultType? m i = some type ∧
    chains i = shift :: inserts ∧ shift ∈ candidates m' ∧ Chain (zero type) n i shift inserts

/-- **One more run makes every chain longer by one insert.** -/
theorem Grown.step {m m' m'' : Module} {zero : Ty → Id} {n : Nat}
    {chains : Instruction → List Instruction} {es : List Event} {count : GuardCount}
    (hm : m.WellFormed) (h : Grown m zero n chains m') (hround : Round m' es count m'')
    (hzero : ∀ g ∈ guards es, ∃ type, resultType? m g.shift = some type ∧ g.zero = zero type) :
    Grown m zero (n + 1) (fun i => (chains i).flatMap (guarded (guards es))) m'' := by
  obtain ⟨status, hstatus, houtcome⟩ := hround.outcome
  refine ⟨?_, ?_, fun i hi hnot => ?_, fun i hi => ?_⟩
  · rw [houtcome.target, rewritten, h.functions, List.map_map]
    exact List.map_congr_left fun f _ => guardedFunction_chained _ _ f
  · exact Nat.le_trans h.bound_le (by rw [houtcome.bound_eq]; omega)
  · obtain ⟨hsingle, hnot'⟩ := h.others i hi hnot
    have hbelow : ∀ id ∈ i.uses, id.Below m'.bound :=
      fun id hid => (uses_below hm i hi id hid).mono h.bound_le
    refine ⟨?_, (houtcome.isCandidate_eq hround.wellFormed hbelow).trans hnot'⟩
    rw [hsingle, List.flatMap_singleton, houtcome.guarded_of_not_candidate hnot']
  · obtain ⟨type, shift, inserts, htype, hchain, hcandidate, hlinks⟩ := h.shifts i hi
    obtain ⟨g, hg, rfl, hguard⟩ := houtcome.exists_guard hstatus hcandidate
    have hsame : zero type = g.zero := by
      obtain ⟨type', htype', hzero'⟩ := hzero g hg
      rw [resultType?, hlinks.type_eq] at htype'
      rw [hzero', Option.some.inj (htype.symm.trans htype')]
    rw [hsame] at hlinks
    refine ⟨type, g.renamed, g.insertion :: inserts, htype, ?_, ?_, hsame ▸ hlinks.guard⟩
    · have hrest : inserts.flatMap (guarded (guards es)) = inserts := by
        rw [List.flatMap_congr fun j hj =>
          houtcome.guarded_of_not_candidate (hlinks.not_candidate _ j hj), List.flatMap_singleton']
      rw [hchain, List.flatMap_cons, guarded_of_guardOf? hguard, hrest]
      rfl
    · rw [houtcome.candidates_eq hround.wellFormed hstatus]
      exact List.mem_map_of_mem hg

/-! ## Any number of runs

By induction over the runs; the first is special, as it declares the zeros. -/

section Runs

variable {n : Nat} {ms : Nat → Module} {counts : Nat → GuardCount}

/-- Runs that succeed keep a module well-formed, and define no id twice. -/
theorem rounds_of_runs (hm : (ms 0).WellFormed) (honce : (ms 0).DefinedOnce)
    (hruns : ∀ k < n, SucceedsWith (ms k) (counts k) (ms (k + 1))) :
    ∀ k < n, ∃ es, Round (ms k) es (counts k) (ms (k + 1)) := by
  intro k
  induction k with
  | zero => exact fun hk => (hruns 0 hk).round hm honce
  | succ k ih =>
    intro hk
    obtain ⟨es, h⟩ := ih (Nat.lt_of_succ_lt hk)
    obtain ⟨status, -, houtcome⟩ := h.outcome
    exact (hruns (k + 1) hk).round (houtcome.wellFormed h.wellFormed)
      (houtcome.definedOnce h.wellFormed h.once)

/-- The zero of a type that a run leaves behind. -/
def zeroAfter (m : Module) (ds : List Declaration) (type : Ty) : Id :=
  (zeroFor (constantsWith m ds) type).getD Id.invalid

/-- A run on `m` has the types and, in the end, the constants of a run on `m₀`. -/
structure SameTables (m₀ : Module) (ds₀ : List Declaration) (m : Module) (ds : List Declaration) :
    Prop where
  types : m.declaredTypes = m₀.declaredTypes
  constants : constantsWith m ds = constantsWith m₀ ds₀

theorem Round.zero_of_mem {m₀ m m' : Module} {ds₀ : List Declaration} {es : List Event}
    {count : GuardCount} (h : Round m es count m')
    (hsame : SameTables m₀ ds₀ m (declarations es)) {g : Guard} (hg : g ∈ guards es) :
    ∃ type, resultType? m₀ g.shift = some type ∧ g.zero = zeroAfter m₀ ds₀ type := by
  obtain ⟨status, -, houtcome⟩ := h.outcome
  obtain ⟨-, id, type, c, hid, htype, hzero, hc⟩ := houtcome.guard_of_mem hg
  have hfor := zeroFor_of_isZeroOf h.once hzero hc
  refine ⟨type, ?_, ?_⟩
  · rw [resultType?, hid, Option.bind_some, ← hsame.types, htype]
  · rw [zeroAfter, ← hsame.constants, hfor, Option.getD_some]

/-- **Every run works with the tables of the first**, and none after it declares anything. -/
theorem rounds_alike (hrounds : ∀ k < n, ∃ es, Round (ms k) es (counts k) (ms (k + 1)))
    {es₀ : List Event} (hfirst : Round (ms 0) es₀ (counts 0) (ms 1)) :
    ∀ k < n, ∃ es, Round (ms k) es (counts k) (ms (k + 1)) ∧
      SameTables (ms 0) (declarations es₀) (ms k) (declarations es) ∧
      counts k = counts 0 ∧ (1 ≤ k → declarations es = []) := by
  intro k
  induction k with
  | zero => exact fun _ => ⟨es₀, hfirst, ⟨rfl, rfl⟩, rfl, nofun⟩
  | succ k ih =>
    intro hk
    obtain ⟨es, h, hsame, hcount, -⟩ := ih (Nat.lt_of_succ_lt hk)
    obtain ⟨es', h'⟩ := hrounds (k + 1) hk
    obtain ⟨htypes, hconstants, hnone, hcount'⟩ := h.next h'
    refine ⟨es', h', ⟨htypes.trans hsame.types, ?_⟩, hcount'.trans hcount, fun _ => hnone⟩
    rw [hnone, constantsWith_nil, hconstants, hsame.constants]

/-- **The chains grow by one insert with each run.** -/
theorem grown_of_rounds {es₀ : List Event} (hfirst : Round (ms 0) es₀ (counts 0) (ms 1))
    (halike : ∀ k < n, ∃ es, Round (ms k) es (counts k) (ms (k + 1)) ∧
      SameTables (ms 0) (declarations es₀) (ms k) (declarations es)) :
    ∀ k ≤ n, ∃ chains, Grown (ms 0) (zeroAfter (ms 0) (declarations es₀)) k chains (ms k) := by
  intro k
  induction k with
  | zero =>
    refine fun _ => ⟨fun i => [i], ?_, Nat.le_refl _, fun i _ hnot => ⟨rfl, hnot⟩, fun i hi => ?_⟩
    · rw [funext chained_singleton, List.map_id']
    · -- that its type is known is seen by its first guard
      obtain ⟨status, hstatus, houtcome⟩ := hfirst.outcome
      obtain ⟨g, hg, rfl, -⟩ := houtcome.exists_guard hstatus hi
      obtain ⟨type, htype, -⟩ := hfirst.zero_of_mem ⟨rfl, rfl⟩ hg
      exact ⟨type, g.shift, [], htype, rfl, hi, .refl _ _⟩
  | succ k ih =>
    intro hk
    obtain ⟨chains, hchains⟩ := ih (Nat.le_of_succ_le hk)
    obtain ⟨es, h, hsame⟩ := halike k hk
    exact ⟨_, hchains.step hfirst.wellFormed h fun g hg => h.zero_of_mem hsame hg⟩

/-- **The law of repeated runs.**  All of them add as many guards, with the same zeros; only the
first declares anything; and every candidate ends up with a chain of inserts behind it. -/
theorem repeated_runs {settings : Settings} {source : String}
    (hparse : Assembly.parse settings source = .ok (ms 0)) (honce : (ms 0).DefinedOnce)
    (hn : 1 ≤ n) (hruns : ∀ k < n, SucceedsWith (ms k) (counts k) (ms (k + 1))) :
    (∀ k < n, counts k = counts 0) ∧
    (∀ k, 1 ≤ k → k < n → (ms (k + 1)).globals = (ms k).globals ∧
      (ms (k + 1)).bound = (ms k).bound + (counts k).total) ∧
    ∃ zero : Ty → Id,
      (∀ k < n, ∃ gs ds, Rewrites (ms k) gs ds (ms (k + 1)) ∧ gs.length = (counts k).total ∧
        ∀ g ∈ gs, ∃ type, resultType? (ms 0) g.shift = some type ∧ g.zero = zero type) ∧
      ∃ chains, (ms n).functions = (ms 0).functions.map (chained chains) ∧
        (∀ i ∈ bodies (ms 0), i ∉ candidates (ms 0) → chains i = [i]) ∧
        ∀ i ∈ candidates (ms 0), ∃ type shift inserts, resultType? (ms 0) i = some type ∧
          chains i = shift :: inserts ∧ Chain (zero type) n i shift inserts := by
  have hrounds := rounds_of_runs (Assembly.wellFormed_of_parse hparse) honce hruns
  obtain ⟨es₀, hfirst⟩ := hrounds 0 hn
  have halike := rounds_alike hrounds hfirst
  obtain ⟨chains, hchains⟩ := grown_of_rounds hfirst
    (fun k hk => (halike k hk).imp fun _ h => ⟨h.1, h.2.1⟩) n (Nat.le_refl n)
  refine ⟨fun k hk => ?_, fun k hpos hk => ?_, zeroAfter (ms 0) (declarations es₀),
    fun k hk => ?_, chains, hchains.functions, fun i hi hnot => (hchains.others i hi ?_).1,
    fun i hi => ?_⟩
  · obtain ⟨es, -, -, hcount, -⟩ := halike k hk
    exact hcount
  · obtain ⟨es, h, -, -, hnone⟩ := halike k hk
    obtain ⟨status, -, houtcome⟩ := h.outcome
    have hglobals := (houtcome.rewrites h.wellFormed).globals
    have hbound := (houtcome.rewrites h.wellFormed).bound
    rw [hnone hpos, List.map_nil, List.append_nil] at hglobals
    rw [hnone hpos, h.guards_length, ← h.total_eq, List.length_nil, Nat.zero_add] at hbound
    exact ⟨hglobals, hbound⟩
  · obtain ⟨es, h, hsame, -⟩ := halike k hk
    obtain ⟨status, -, houtcome⟩ := h.outcome
    refine ⟨guards es, declarations es, houtcome.rewrites h.wellFormed, ?_,
      fun g hg => h.zero_of_mem hsame hg⟩
    rw [h.guards_length, h.total_eq]
  · rw [← Bool.not_eq_true]
    exact fun hcandidate => hnot (List.mem_filter.2 ⟨hi, hcandidate⟩)
  · obtain ⟨type, shift, inserts, htype, hchain, -, hlinks⟩ := hchains.shifts i hi
    exact ⟨type, shift, inserts, htype, hchain, hlinks⟩

end Runs

/-! ### An example -/

/-- A module after so many runs. -/
def afterRuns (m : Module) : Nat → Module
  | 0 => m
  | k + 1 => (Pass.runBarrier { target := afterRuns m k }).2.target

/-- Two runs put two inserts behind the shift. -/
theorem repeated_runs_sample :
    Assembly.parse {} sampleText = .ok sample ∧ sample.DefinedOnce ∧
      (∀ k < 2, SucceedsWith (afterRuns sample k) ⟨1, 0⟩ (afterRuns sample (k + 1))) ∧
      (afterRuns sample 2).bound = (afterRuns sample 1).bound + 1 ∧
      ∃ i ∈ candidates sample, ∃ zero shift inserts, Chain zero 2 i shift inserts := by
  have honce : sample.DefinedOnce := by
    rw [Module.DefinedOnce]
    decide
  have hruns : ∀ k < 2, SucceedsWith (afterRuns sample k) ⟨1, 0⟩ (afterRuns sample (k + 1)) := by
    intro k hk
    obtain rfl | rfl : k = 0 ∨ k = 1 := by omega
    · exact ⟨[], _, _, .changed, rfl, rfl, by decide, rfl, rfl⟩
    · exact ⟨[], _, _, .changed, rfl, rfl, by decide, rfl, rfl⟩
  obtain ⟨-, hadded, zero, -, chains, -, -, hchains⟩ :=
    repeated_runs parse_sample honce (by decide) hruns
  obtain ⟨i, hi⟩ : ∃ i, i ∈ candidates sample := ⟨_, List.mem_singleton_self _⟩
  obtain ⟨type, shift, inserts, -, -, hchain⟩ := hchains i hi
  exact ⟨parse_sample, honce, hruns, (hadded 1 (by decide) (by decide)).2, i, hi, zero type, shift,
    inserts, hchain⟩

end Barrier
end ShiftBarrier
