import Mathlib.Data.List.Flatten
import ShiftBarrier.Pass
import ShiftBarrier.Proofs.Barrier.Run
import ShiftBarrier.Proofs.Freshness

/-!
# The module after a run

* `candidates` lists the shifts of a module that need a barrier.
* `rewritten` is the module after a run, in terms of the events of the run alone.
* `Outcome` is what is known of a run of the pass that returns a status, and `runBarrier_outcome`
  establishes it; `runBarrier_fresh` and `barrierOn_outcome` tell what becomes of a fresh cache.
* `Outcome.wellFormed` says that a well-formed module stays so, `Outcome.fresh` that all new ids
  are fresh.
-/

set_option autoImplicit false

namespace ShiftBarrier
namespace Barrier

open scoped List

/-! ## Candidates of a module -/

/-- The candidates of a module, by function, block and instruction. -/
def candidates (m : Module) : List Instruction :=
  (bodies m).filter (isCandidate m.declaredConstants)

theorem bodies_eq (m : Module) :
    bodies m = m.functions.flatMap fun f => f.blocks.flatMap Block.instructions := by
  rw [bodies, Module.blocks, List.flatMap_assoc]

theorem bodies_sublist_functions (m : Module) :
    (bodies m).Sublist (m.functions.flatMap Function.instructions) := by
  rw [bodies_eq]
  exact List.Sublist.flatMap_right _ fun f _ => List.sublist_append_right _ _

theorem bodies_sublist (m : Module) : (bodies m).Sublist m.instructions :=
  (bodies_sublist_functions m).trans (List.sublist_append_right _ _)

theorem candidates_sublist (m : Module) : (candidates m).Sublist (bodies m) := List.filter_sublist

theorem start_ready {m : Module} (hm : m.WellFormed) (log : Log) :
    Ready (Registry.start m log) (bodies m) where
  formed := (TypeTable.readFrom_analyze m).formed
  below i hi := hm.below i ((bodies_sublist m).subset hi)
  nodup := hm.nodup_instructions.sublist (bodies_sublist m)

/-! ## The rewritten module -/

/-- The module after events. -/
def rewritten (m : Module) (es : List Event) : Module :=
  { m with
    globals := m.globals ++ (declarations es).map Declaration.instruction
    functions := m.functions.map (guardedFunction (guards es))
    bound := m.bound + es.length
    nextSerial := m.nextSerial + es.length }

/-- The declared constants of a module, and those that were declared on demand. -/
def constantsWith (m : Module) (ds : List Declaration) : ConstantTable :=
  ⟨m.declaredConstants.entries ++ ds.map fun d => (d.id, d.constant)⟩

theorem constantsWith_nil (m : Module) : constantsWith m [] = m.declaredConstants := by
  rw [constantsWith, List.map_nil, List.append_nil]

/-- The ids of declared constants are results of globals, old or new. -/
theorem mem_of_constantsWith {m : Module} {ds : List Declaration} {c : Constant} {id : Id}
    (hid : (constantsWith m ds).id? c = some id) :
    id ∈ m.globals.filterMap Instruction.result ++ ds.map Declaration.id := by
  obtain ⟨found, -, hmem⟩ := ConstantTable.mem_of_id? hid
  rcases List.mem_append.1 hmem with hmem | hmem
  · refine List.mem_append_left _ ?_
    exact (ConstantTable.readFrom_analyze _ m).ids.subset (List.mem_map_of_mem hmem)
  · obtain ⟨d, hd, heq⟩ := List.mem_map.1 hmem
    cases heq
    exact List.mem_append_right _ (List.mem_map_of_mem hd)

theorem rewritten_nil (m : Module) : rewritten m [] = m := by
  have hfunctions : m.functions.map (guardedFunction []) = m.functions := by
    rw [List.map_congr_left fun f _ => guardedFunction_nil f, List.map_id']
  rw [rewritten, guards_nil, hfunctions]
  simp [declarations]

/-! ## How a run ends

A run on any reachable cache is a run on the tables of the module, because no analysis in the cache
disagrees with them. -/

/-- The status of a run that guarded so many of the candidates. -/
def statusAfter (guarded candidates : Nat) : PassStatus :=
  if guarded < candidates then .failure else if candidates = 0 then .unchanged else .changed

theorem statusAfter_eq_failure_iff {guarded candidates : Nat} :
    statusAfter guarded candidates = .failure ↔ guarded < candidates := by
  rw [statusAfter]
  split
  · simp_all
  · split <;> simp_all

theorem statusAfter_eq_unchanged_iff {guarded candidates : Nat} :
    statusAfter guarded candidates = .unchanged ↔ candidates = 0 := by
  rw [statusAfter]
  split
  · next hlt =>
    have hpos : candidates ≠ 0 := by omega
    simp [hpos]
  · split <;> simp_all

theorem statusAfter_eq_changed_iff {guarded candidates : Nat} (hle : guarded ≤ candidates) :
    statusAfter guarded candidates = .changed ↔ candidates ≠ 0 ∧ guarded = candidates := by
  rw [statusAfter]
  split
  · next hlt =>
    have hne : guarded ≠ candidates := by omega
    simp [hne]
  · have heq : guarded = candidates := by omega
    split <;> simp_all

theorem total_add (n : GuardCount) (isVector : Bool) : (n.add isVector).total = n.total + 1 := by
  cases isVector <;> simp only [GuardCount.add, GuardCount.total] <;> grind

theorem total_countGuards (types : TypeTable) (n : GuardCount) (gs : List Guard) :
    (countGuards types n gs).total = n.total + gs.length := by
  induction gs generalizing n with
  | nil => rfl
  | cons g gs ih =>
    rw [countGuards, List.foldl_cons, ← countGuards, ih, total_add, List.length_cons]
    omega

/-- A run of the pass on `m` that returned a status. -/
structure Outcome (m : Module) (es : List Event) (status : PassStatus) (count : GuardCount)
    (m' : Module) : Prop where
  steps : ∃ log r, Steps (Registry.start m log) es r
  target : m' = rewritten m es
  first : (guards es).map Guard.shift <+: candidates m
  status : status = statusAfter (guards es).length (candidates m).length
  count : count = countGuards m.declaredTypes {} (guards es)

/-- What leaves everything as it is does so in a row. -/
theorem sweep_of_idle {α : Type} {step : α → State → List α × Option Stop × State} {as : List α}
    (h : ∀ a ∈ as, ∀ s, step a s = ([a], none, s)) (s : State) :
    sweep step as s = (as, none, s) := by
  induction as with
  | nil => rfl
  | cons a as ih =>
    obtain ⟨ha, has⟩ := List.forall_mem_cons.1 h
    rw [sweep, ha]
    dsimp only
    rw [ih has]
    rfl

/-- Without tables of constants there is nothing to do, whatever the tables are. -/
theorem run_of_runWithoutConstants {m : Module} (h : runWithoutConstants m = .ok ()) {r : Registry}
    (hr : r.target = m) : run r = (none, { registry := r }) := by
  subst hr
  have hblock : ∀ b ∈ r.target.blocks, ∀ s, onBlock b s = ([b], none, s) := by
    intro b hb s
    have hinstruction : ∀ i ∈ b.instructions, ∀ s, onInstruction i s = ([i], none, s) := by
      intro i hi s
      have hnone := forM_eq_ok_iff.1 (forM_eq_ok_iff.1 h b hb) i hi
      rw [bind_eq_ok_iff] at hnone
      obtain ⟨amount, hamount, hnone⟩ := hnone
      cases amount with
      | none =>
        rw [onInstruction, candidate?, hamount]
        rfl
      | some amount => cases hnone
    rw [onBlock, sweep_of_idle hinstruction]
  have hfunction : ∀ f ∈ r.target.functions, ∀ s, onFunction f s = ([f], none, s) := by
    intro f hf s
    rw [onFunction, sweep_of_idle fun b hb => hblock b (List.mem_flatMap.2 ⟨f, hf, hb⟩)]
  rw [run, sweep_of_idle hfunction]

/-- A run on tables that returns a status. -/
theorem barrierOn_cases {types : TypeTable} {constants : ConstantTable} {s s' : Session}
    {run : PassRun} {status : PassStatus} (hrun : Pass.barrierOn types constants s = (run, s'))
    (hstatus : run.result = .ok status) :
    ∃ stop done, Barrier.run ⟨⟨s.target, types, s.log⟩, constants⟩ = (stop, done) ∧
      s'.target = done.registry.target ∧ run.guards = some done.count ∧
      s'.cache = (s.cache.setTypes done.registry.types).setConstants done.registry.constants ∧
      ((stop = some .failed ∧ status = .failure) ∨
        (stop = none ∧ status = if done.count.total = 0 then .unchanged else .changed)) := by
  obtain ⟨stop, done, log, hbarrier, hended, hguards, rfl, -⟩ := barrierOn_eq hrun
  refine ⟨stop, done, hbarrier, rfl, hguards, rfl, ?_⟩
  generalize run.result = result at hended hstatus
  cases hended with
  | raised => cases hstatus
  | failed =>
    cases hstatus
    exact .inl ⟨rfl, rfl⟩
  | unchanged hnone =>
    cases hstatus
    exact .inr ⟨rfl, (if_pos hnone).symm⟩
  | changed hsome =>
    cases hstatus
    exact .inr ⟨rfl, (if_neg hsome).symm⟩

/-- A run of the pass that returns a status is a run on the tables of the module. -/
theorem runBarrier_cases {s s' : Session} {run : PassRun} {status : PassStatus}
    (hcache : s.cache.Sound s.target) (hrun : Pass.runBarrier s = (run, s'))
    (hstatus : run.result = .ok status) :
    ∃ stop done, Barrier.run (Registry.start s.target s.log) = (stop, done) ∧
      s'.target = done.registry.target ∧ run.guards = some done.count ∧
      ((stop = some .failed ∧ status = .failure) ∨
        (stop = none ∧ status = if done.count.total = 0 then .unchanged else .changed)) := by
  cases passOutcome hrun with
  | noTypes | noConstants => cases hstatus
  | pending =>
    cases hnone : runWithoutConstants s.target with
    | error e => rw [hnone] at hstatus; cases hstatus
    | ok _ =>
      rw [hnone] at hstatus
      cases hstatus
      exact ⟨none, _, run_of_runWithoutConstants hnone rfl, rfl, rfl, .inr ⟨rfl, rfl⟩⟩
  | tables htypes hconstants hon =>
    obtain ⟨rfl, hsound⟩ := hcache.requestTypes htypes
    obtain hdeclared | ⟨⟨⟩, -⟩ := hsound.requestConstants hconstants
    cases hdeclared
    obtain ⟨stop, done, hbarrier, htarget, hguards, -, hcases⟩ := barrierOn_cases hon hstatus
    exact ⟨stop, done, hbarrier, htarget, hguards, hcases⟩

/-- A run on the tables of a module, in terms of its events. -/
theorem outcome_of_run {m : Module} (hm : m.WellFormed) {log : Log} {stop : Option Stop}
    {done : State} (hrun : Barrier.run (Registry.start m log) = (stop, done)) {status : PassStatus}
    (hstatus : (stop = some .failed ∧ status = .failure) ∨
      (stop = none ∧ status = if done.count.total = 0 then .unchanged else .changed)) :
    ∃ es, Outcome m es status done.count done.registry.target ∧
      done.registry.types = m.declaredTypes ∧
      done.registry.constants = constantsWith m (declarations es) := by
  obtain ⟨es, last, hswept, hregistry, hcount⟩ := run_spec (start_ready hm log) hrun
  have hsteps : Steps (Registry.start m log) es last.registry := hswept.steps
  have hlength : done.count.total = (guards es).length := by
    rw [hcount, hswept.count, total_countGuards]
    exact Nat.zero_add _
  refine ⟨es, ?_, ?_, ?_⟩
  · exact
      { steps := ⟨log, _, hsteps⟩
        target := by rw [hregistry, hsteps.target_eq]; rfl
        first := hswept.first
        status := by
          rw [statusAfter]
          rcases hstatus with ⟨rfl, rfl⟩ | ⟨rfl, rfl⟩
          · exact (if_pos (hswept.failed rfl)).symm
          · have hall := congrArg List.length (hswept.all rfl)
            rw [List.length_map] at hall
            rw [hlength, hall, candidates]
            exact (if_neg (Nat.lt_irrefl _)).symm
        count := by rw [hcount, hswept.count]; rfl }
  · rw [hregistry]
    exact hsteps.types_eq
  · rw [hregistry]
    exact hsteps.constants_eq

/-- **A run of the pass, in terms of its events.** -/
theorem runBarrier_outcome {s s' : Session} {run : PassRun} {status : PassStatus}
    (hm : s.target.WellFormed) (hcache : s.cache.Sound s.target)
    (hrun : Pass.runBarrier s = (run, s')) (hstatus : run.result = .ok status) :
    ∃ es count, run.guards = some count ∧ Outcome s.target es status count s'.target := by
  obtain ⟨stop, done, hbarrier, htarget, hguards, hcases⟩ := runBarrier_cases hcache hrun hstatus
  obtain ⟨es, houtcome, -, -⟩ := outcome_of_run hm hbarrier hcases
  exact ⟨es, done.count, hguards, htarget ▸ houtcome⟩

/-- On a fresh cache the pass runs on the tables of the module. -/
theorem runBarrier_fresh {s s' : Session} {run : PassRun} {status : PassStatus}
    (hcache : s.cache.Fresh s.target) (hrun : Pass.runBarrier s = (run, s'))
    (hstatus : run.result = .ok status) :
    ∃ r, ∃ c : Cache, Registry.ofModule s.target = .ok r ∧ c.Fresh s.target ∧
      Pass.barrierOn s.target.declaredTypes s.target.declaredConstants { s with cache := c }
        = (run, s') := by
  cases passOutcome hrun with
  | noTypes | noConstants => cases hstatus
  | pending htypes hconstants =>
    obtain ⟨-, hfresh⟩ := hcache.requestTypes htypes
    obtain ⟨⟨r, -, ⟨⟩⟩, -⟩ := hfresh.requestConstants hconstants
  | tables htypes hconstants hon =>
    obtain ⟨⟨-, rfl⟩, hfresh⟩ := hcache.requestTypes htypes
    obtain ⟨⟨r, hr, hdeclared⟩, hfresh⟩ := hfresh.requestConstants hconstants
    obtain ⟨-, -, rfl⟩ := Registry.ofModule_eq_ok_iff.1 hr
    cases hdeclared
    exact ⟨_, _, hr, hfresh, hon⟩

/-- A run on the tables of a module enters the constants that it declares. -/
theorem barrierOn_outcome {m : Module} (hm : m.WellFormed) {c : Cache} {log : Log} {s : Session}
    {run : PassRun} {status : PassStatus}
    (hrun : Pass.barrierOn m.declaredTypes m.declaredConstants { target := m, cache := c, log }
      = (run, s)) (hstatus : run.result = .ok status) :
    ∃ es count, Outcome m es status count s.target ∧
      s.cache = (c.setTypes m.declaredTypes).setConstants (constantsWith m (declarations es)) := by
  obtain ⟨stop, done, hbarrier, htarget, -, hentered, hcases⟩ := barrierOn_cases hrun hstatus
  obtain ⟨es, houtcome, htypes, hconstants⟩ := outcome_of_run hm hbarrier hcases
  rw [htypes, hconstants] at hentered
  exact ⟨es, _, htarget ▸ houtcome, hentered⟩

/-! ## The instructions of the rewritten module -/

/-- The instructions of a module outside of blocks. -/
def headers (m : Module) : List Instruction :=
  m.preamble ++ m.globals ++ m.functions.flatMap fun f => f.definition :: f.params

theorem perm_instructions (m : Module) : m.instructions.Perm (headers m ++ bodies m) := by
  rw [headers, bodies_eq, List.append_assoc]
  have hperm := List.flatMap_append_perm m.functions (fun f => f.definition :: f.params)
    fun f => f.blocks.flatMap Block.instructions
  exact hperm.symm.append_left _

theorem instructions_guardedFunction (gs : List Guard) (f : Function) :
    (guardedFunction gs f).instructions = f.definition :: f.params
      ++ (f.blocks.flatMap Block.instructions).flatMap (guarded gs) := by
  rw [Function.instructions, guardedFunction, List.flatMap_map, List.flatMap_assoc]
  rfl

theorem mem_instructions_of_function {m : Module} {f : Function} (hf : f ∈ m.functions)
    {i : Instruction} (hi : i ∈ f.instructions) : i ∈ m.instructions :=
  List.mem_append_right _ (List.mem_flatMap.2 ⟨f, hf, hi⟩)

theorem bodies_rewritten (m : Module) (es : List Event) :
    bodies (rewritten m es) = (bodies m).flatMap (guarded (guards es)) := by
  rw [bodies_eq, bodies_eq, rewritten, List.flatMap_map, List.flatMap_assoc]
  refine List.flatMap_congr fun f _ => ?_
  rw [guardedFunction, List.flatMap_map, List.flatMap_assoc]
  rfl

theorem headers_rewritten (m : Module) (es : List Event) :
    (headers (rewritten m es)).Perm
      (headers m ++ (declarations es).map Declaration.instruction) := by
  have hheads : (rewritten m es).functions.flatMap (fun f => f.definition :: f.params)
      = m.functions.flatMap fun f => f.definition :: f.params := by
    rw [rewritten, List.flatMap_map]
    rfl
  rw [headers, headers, hheads]
  show (m.preamble ++ (m.globals ++ _) ++ _).Perm _
  simp only [List.append_assoc]
  exact (List.perm_append_comm.append_left _).append_left _

/-- **Up to order, the instructions are the old ones renamed, and one for each event.** -/
theorem perm_rewritten {m : Module} {es : List Event} (hm : m.instructions.Nodup)
    (hshifts : ((guards es).map Guard.shift).Sublist (bodies m)) :
    (rewritten m es).instructions.Perm
      (m.instructions.map (renamedBy (guards es)) ++ es.map Event.inserted) := by
  have hnodup := (perm_instructions m).nodup_iff.1 hm
  rw [List.nodup_append] at hnodup
  have hheaders : (headers m).map (renamedBy (guards es)) = headers m := by
    conv_rhs => rw [← List.map_id (headers m)]
    refine List.map_congr_left fun i hi => renamedBy_of_not_mem fun hmem => ?_
    exact hnodup.2.2 i hi i (hshifts.subset hmem) rfl
  have hrenamed := (perm_instructions m).map (renamedBy (guards es))
  rw [List.map_append, hheaders] at hrenamed
  have hbodies := perm_guarded (guards es) (bodies m)
  rw [filterMap_guardOf? hnodup.2.1 hshifts] at hbodies
  calc (rewritten m es).instructions
    _ ~ headers (rewritten m es) ++ bodies (rewritten m es) := perm_instructions _
    _ ~ (headers m ++ (declarations es).map Declaration.instruction)
          ++ ((bodies m).map (renamedBy (guards es)) ++ (guards es).map Guard.insertion) :=
        (headers_rewritten m es).append (bodies_rewritten m es ▸ hbodies)
    _ ~ (headers m ++ (bodies m).map (renamedBy (guards es)))
          ++ ((declarations es).map Declaration.instruction
            ++ (guards es).map Guard.insertion) := by
        simp only [List.append_assoc]
        refine .append_left _ ?_
        rw [← List.append_assoc, ← List.append_assoc]
        exact List.perm_append_comm.append_right _
    _ ~ m.instructions.map (renamedBy (guards es)) ++ es.map Event.inserted :=
        hrenamed.symm.append (perm_events Event.inserted es)

theorem labels_rewritten (m : Module) (es : List Event) : (rewritten m es).labels = m.labels := by
  rw [Module.labels, Module.labels, rewritten, List.flatMap_map]
  refine List.flatMap_congr fun f _ => ?_
  rw [guardedFunction, Function.labels, Function.labels, List.map_map]
  rfl

/-- The serial numbers still tell the instructions apart. -/
theorem serials_rewritten {m : Module} (hm : m.WellFormed) {r r' : Registry} {es : List Event}
    (hr : r.target = m) (hsteps : Steps r es r')
    (hshifts : ((guards es).map Guard.shift).Sublist (bodies m)) :
    ((rewritten m es).instructions.map Instruction.serial).Nodup ∧
      ∀ i ∈ (rewritten m es).instructions, i.serial < (rewritten m es).nextSerial := by
  subst hr
  have hperm : ((rewritten r.target es).instructions.map Instruction.serial).Perm
      (r.target.instructions.map Instruction.serial ++ es.map Event.serial) := by
    have hperm := (perm_rewritten hm.nodup_instructions hshifts).map Instruction.serial
    simpa only [List.map_append, List.map_map, Function.comp_def, serial_renamedBy,
      Event.serial_inserted] using hperm
  have hnext : r'.target.nextSerial = r.target.nextSerial + es.length := by rw [hsteps.target_eq]
  constructor
  · rw [hperm.nodup_iff, List.nodup_append]
    refine ⟨hm.nodup_serials, hsteps.nodup_serials, fun n hn n' hn' => ?_⟩
    obtain ⟨i, hi, rfl⟩ := List.mem_map.1 hn
    obtain ⟨e, he, rfl⟩ := List.mem_map.1 hn'
    exact Nat.ne_of_lt (Nat.lt_of_lt_of_le (hm.serial_lt i hi) (hsteps.serial_mem_range he).1)
  · intro i hi
    show i.serial < r.target.nextSerial + es.length
    rcases List.mem_append.1 (hperm.mem_iff.1 (List.mem_map_of_mem hi)) with hmem | hmem
    · obtain ⟨j, hj, heq⟩ := List.mem_map.1 hmem
      have hlt := hm.serial_lt j hj
      omega
    · obtain ⟨e, he, heq⟩ := List.mem_map.1 hmem
      have hlt := (hsteps.serial_mem_range he).2
      omega

namespace Outcome

variable {m m' : Module} {es : List Event} {status : PassStatus} {count : GuardCount}

theorem guards_sublist (h : Outcome m es status count m') :
    ((guards es).map Guard.shift).Sublist (bodies m) :=
  h.first.sublist.trans (candidates_sublist m)

/-- Every guard is for a candidate. -/
theorem candidate_of_mem (h : Outcome m es status count m') {g : Guard} (hg : g ∈ guards es) :
    g.shift ∈ bodies m ∧ isCandidate m.declaredConstants g.shift = true :=
  List.mem_filter.1 (h.first.subset (List.mem_map_of_mem hg))

theorem perm_instructions (hm : m.WellFormed) (h : Outcome m es status count m') :
    m'.instructions.Perm
      (m.instructions.map (renamedBy (guards es)) ++ es.map Event.inserted) :=
  h.target ▸ perm_rewritten hm.nodup_instructions h.guards_sublist

/-! ## Ids of the rewritten module

All ids that were taken lie between the old bound and the new one. -/

theorem bound_eq (h : Outcome m es status count m') : m'.bound = m.bound + es.length := by
  rw [h.target, rewritten]

theorem labels_eq (h : Outcome m es status count m') : m'.labels = m.labels :=
  h.target ▸ labels_rewritten m es

/-- **The new ids are fresh**: mentioned nowhere before, and each taken once. -/
theorem fresh (hm : m.WellFormed) (h : Outcome m es status count m') :
    (es.map (·.id.number)).Nodup ∧ ∀ e ∈ es, m.bound ≤ e.id.number ∧ e.id.number < m'.bound ∧
      ∀ id ∈ m.mentions, id.same e.id = false := by
  obtain ⟨log, r, hsteps⟩ := h.steps
  refine ⟨hsteps.nodup_ids, fun e he => ?_⟩
  have hrange := hsteps.id_mem_range he
  have hbound : r.target.bound = m'.bound := by
    rw [hsteps.bound_eq, h.bound_eq]
    rfl
  rw [hbound] at hrange
  refine ⟨hrange.1, hrange.2, fun id hid => ?_⟩
  have hbelow := hm.mentions_below hid
  rw [Id.same_eq_false_iff]
  exact Nat.ne_of_lt (Nat.lt_of_lt_of_le hbelow.2 hrange.1)

/-- The ids of declared types are results of globals. -/
theorem type_mem_results {id : Id} {type : Ty} (h : m.declaredTypes.id? type = some id) :
    id ∈ m.globals.filterMap Instruction.result := by
  obtain ⟨found, -, hmem⟩ := TypeTable.mem_of_id? h
  exact (TypeTable.readFrom_analyze m).ids.subset (List.mem_map_of_mem hmem)

theorem globals_results (h : Outcome m es status count m') :
    m'.globals.filterMap Instruction.result = m.globals.filterMap Instruction.result
      ++ (declarations es).map Declaration.id := by
  rw [h.target, rewritten, List.filterMap_append, results_instruction]

/-! ## Declared constants of the rewritten module -/

theorem constants_eq {log : Log} {r : Registry} (h : Steps (Registry.start m log) es r) :
    r.constants = constantsWith m (declarations es) := h.constants_eq

/-- Every constant that was declared is a zero of a declared type. -/
theorem zero_of_mem (h : Outcome m es status count m') {d : Declaration}
    (hd : d ∈ declarations es) :
    (∃ type, IsZeroOf m.declaredTypes (constantsWith m (declarations es)) type d.constant) ∧
      m.declaredTypes.id? d.constant.type = some d.type := by
  obtain ⟨log, r, hsteps⟩ := h.steps
  rw [← constants_eq hsteps]
  have htypes : r.types = m.declaredTypes := hsteps.types_eq
  rw [← htypes]
  exact hsteps.declared (mem_declarations.1 hd)

/-- Every guard is made of a zero of the type of its shift. -/
theorem guard_of_mem (h : Outcome m es status count m') {g : Guard} (hg : g ∈ guards es) :
    g.shift.result.isSome = true ∧ ∃ id type c, g.shift.type = some id ∧
      m.declaredTypes.type? id = some type ∧
      IsZeroOf m.declaredTypes (constantsWith m (declarations es)) type c ∧
      (constantsWith m (declarations es)).id? c = some g.zero := by
  obtain ⟨log, r, hsteps⟩ := h.steps
  rw [← constants_eq hsteps]
  have htypes : r.types = m.declaredTypes := hsteps.types_eq
  rw [← htypes]
  exact hsteps.guarded (mem_guards.1 hg)

theorem constant_mem_results (h : Outcome m es status count m') {c : Constant} {id : Id}
    (hid : (constantsWith m (declarations es)).id? c = some id) :
    id ∈ m'.globals.filterMap Instruction.result := by
  rw [h.globals_results]
  exact mem_of_constantsWith hid

/-! ## Well-formedness -/

theorem global_below (hm : m.WellFormed) {id : Id}
    (hid : id ∈ m.globals.filterMap Instruction.result) : id.Below m.bound := by
  obtain ⟨i, hi, hresult⟩ := List.mem_filterMap.1 hid
  refine hm.below i (List.mem_append_left _ (List.mem_append_right _ hi)) id ?_
  rw [Instruction.mentions, hresult]
  exact List.mem_append_left _ (List.mem_singleton_self _)

theorem id_below (hm : m.WellFormed) (h : Outcome m es status count m') {e : Event}
    (he : e ∈ es) : e.id.Below m'.bound := by
  obtain ⟨hge, hlt, -⟩ := (h.fresh hm).2 e he
  exact ⟨Nat.lt_of_lt_of_le hm.bound_pos hge, hlt⟩

theorem global_below' (hm : m.WellFormed) (h : Outcome m es status count m') {id : Id}
    (hid : id ∈ m'.globals.filterMap Instruction.result) : id.Below m'.bound := by
  rw [h.globals_results] at hid
  rcases List.mem_append.1 hid with hid | hid
  · exact (global_below hm hid).mono (by rw [h.bound_eq]; omega)
  · obtain ⟨d, hd, rfl⟩ := List.mem_map.1 hid
    exact h.id_below hm (mem_declarations.1 hd)

theorem inserted_below (hm : m.WellFormed) (h : Outcome m es status count m') {e : Event}
    (he : e ∈ es) {id : Id} (hid : id ∈ e.inserted.mentions) : id.Below m'.bound := by
  have hle : m.bound ≤ m'.bound := by
    rw [h.bound_eq]
    omega
  cases e with
  | declared d =>
    obtain ⟨⟨type, hzero⟩, htype⟩ := h.zero_of_mem (mem_declarations.2 he)
    rcases List.mem_cons.1 hid with rfl | hid
    · exact h.id_below hm he
    rcases List.mem_cons.1 hid with rfl | hid
    · exact (global_below hm (type_mem_results htype)).mono hle
    · obtain ⟨c, hc⟩ := hzero.exists_of_mem_inputs hid
      exact h.global_below' hm (h.constant_mem_results hc)
  | guarded g =>
    have hg := mem_guards.2 he
    obtain ⟨-, -, -, c, -, -, -, hc⟩ := h.guard_of_mem hg
    have hshift : ∀ id ∈ g.shift.mentions, id.Below m'.bound := fun id hid =>
      (hm.below _ ((bodies_sublist m).subset (h.candidate_of_mem hg).1) id hid).mono hle
    rcases List.mem_append.1 hid with hid | hid
    · exact hshift id (List.mem_append_left _ hid)
    rcases List.mem_append.1 hid with hid | hid
    · exact hshift id (List.mem_append_right _ (List.mem_append_left _ hid))
    · have hcases : id = g.temporary ∨ id = g.zero := by
        simpa [Instruction.inputs, Event.inserted, Guard.insertion, Operand.id?] using hid
      rcases hcases with rfl | rfl
      · exact h.id_below hm he
      · exact h.global_below' hm (h.constant_mem_results hc)

theorem renamedBy_below (hm : m.WellFormed) (h : Outcome m es status count m') {i : Instruction}
    (hi : i ∈ m.instructions) {id : Id} (hid : id ∈ (renamedBy (guards es) i).mentions) :
    id.Below m'.bound := by
  have hold : ∀ id ∈ i.mentions, id.Below m'.bound := fun id hid =>
    (hm.below i hi id hid).mono (by rw [h.bound_eq]; omega)
  rcases renamedBy_cases (guards es) i with ⟨-, heq⟩ | ⟨g, hg, -, heq⟩
  · exact hold id (heq ▸ hid)
  · rw [heq] at hid
    rcases List.mem_cons.1 hid with rfl | hid
    · exact h.id_below hm (mem_guards.1 hg)
    · exact hold id (List.mem_append_right _ hid)

/-- **A run keeps a module well-formed.** -/
theorem wellFormed (hm : m.WellFormed) (h : Outcome m es status count m') : m'.WellFormed where
  bound_pos := by
    have hpos := hm.bound_pos
    rw [h.bound_eq]
    omega
  below i hi id hid := by
    rcases List.mem_append.1 ((h.perm_instructions hm).mem_iff.1 hi) with hi | hi
    · obtain ⟨j, hj, rfl⟩ := List.mem_map.1 hi
      exact h.renamedBy_below hm hj hid
    · obtain ⟨e, he, rfl⟩ := List.mem_map.1 hi
      exact h.inserted_below hm he hid
  labels_below id hid :=
    (hm.labels_below id (h.labels_eq ▸ hid)).mono (by rw [h.bound_eq]; omega)
  nodup_serials := by
    obtain ⟨log, r, hsteps⟩ := h.steps
    exact h.target ▸ (serials_rewritten hm rfl hsteps h.guards_sublist).1
  serial_lt := by
    obtain ⟨log, r, hsteps⟩ := h.steps
    exact h.target ▸ (serials_rewritten hm rfl hsteps h.guards_sublist).2

end Outcome

/-- The ids of declared constants are below the bound. -/
theorem constant_below {m : Module} (hm : m.WellFormed) {entry : Id × Constant}
    (h : entry ∈ m.declaredConstants.entries) : entry.1.Below m.bound :=
  Outcome.global_below hm
    ((ConstantTable.readFrom_analyze m.declaredTypes m).ids.subset (List.mem_map_of_mem h))

end Barrier
end ShiftBarrier
