import ShiftBarrier.Proofs.Barrier.Equivariance
import ShiftBarrier.Proofs.Barrier.Findings
import ShiftBarrier.Proofs.Barrier.Reanalysis
import ShiftBarrier.Proofs.Passes

/-!
# Cached analyses after runs of the pass

A run of the pass enters the constants that it declares in the cached tables, and leaves the other
entries as they are.  After a run that changes the module all of them are dropped; after one that
changes nothing they are still fresh.  But a run that fails ends it all, and the entries stay,
although the module may have been changed by then.

* `run_idle` and `barrierOn_idle`: a run that adds no guards changes nothing.
* `Survives` are the entries that are still fresh after a run that failed.
* `Keeps` says what a pass keeps when it succeeds, `keeps_chain` what passes keep that succeed one
  after the other, and `runResolved_invariant` what comes of a list of them.
* `cached_after_runAll` is what is cached in the end; `cached_stale` shows an entry that is not
  fresh.
-/

set_option autoImplicit false

namespace ShiftBarrier
namespace Barrier

open Validation

/-! ## Runs without guards -/

/-- A step that adds no guards changes nothing. -/
def Quiet {α : Type} (step : α → State → List α × Option Stop × State) : Prop :=
  ∀ {a s out s'}, step a s = (out, none, s') → s.count.total ≤ s'.count.total ∧
    (s'.count.total = s.count.total → out = [a] ∧ s' = s)

theorem Quiet.sweep {α : Type} {step : α → State → List α × Option Stop × State}
    (h : Quiet step) {as out : List α} {s s' : State}
    (hsweep : sweep step as s = (out, none, s')) : s.count.total ≤ s'.count.total ∧
      (s'.count.total = s.count.total → out = as ∧ s' = s) := by
  induction as generalizing s out with
  | nil =>
    cases hsweep
    exact ⟨Nat.le_refl _, fun _ => ⟨rfl, rfl⟩⟩
  | cons a as ih =>
    cases sweep_outcome hsweep with
    | passed hhead htail =>
      obtain ⟨hle, hhead⟩ := h hhead
      obtain ⟨hle', htail⟩ := ih htail
      refine ⟨Nat.le_trans hle hle', fun heq => ?_⟩
      -- neither part may have added a guard
      obtain ⟨rfl, rfl⟩ := hhead (by omega)
      obtain ⟨rfl, rfl⟩ := htail heq
      exact ⟨rfl, rfl⟩

theorem quiet_onInstruction : Quiet onInstruction := by
  intro i s out s' h
  cases onInstruction_outcome h with
  | passed => exact ⟨Nat.le_refl _, fun _ => ⟨rfl, rfl⟩⟩
  | @candidate c _ _ _ _ hguard =>
    cases guard_outcome hguard with
    | put =>
      have hadded := total_add s.count c.isVector
      dsimp only
      exact ⟨by omega, fun heq => absurd heq (by omega)⟩

theorem quiet_onBlock : Quiet onBlock := by
  intro b s out s' h
  obtain ⟨is, hsweep, rfl⟩ := onBlock_eq h
  obtain ⟨hle, hquiet⟩ := quiet_onInstruction.sweep hsweep
  refine ⟨hle, fun heq => ?_⟩
  obtain ⟨rfl, rfl⟩ := hquiet heq
  exact ⟨rfl, rfl⟩

theorem quiet_onFunction : Quiet onFunction := by
  intro f s out s' h
  obtain ⟨bs, hsweep, rfl⟩ := onFunction_eq h
  obtain ⟨hle, hquiet⟩ := quiet_onBlock.sweep hsweep
  refine ⟨hle, fun heq => ?_⟩
  obtain ⟨rfl, rfl⟩ := hquiet heq
  exact ⟨rfl, rfl⟩

/-- **A run that adds no guards changes nothing.** -/
theorem run_idle {r : Registry} {s : State} (h : run r = (none, s)) (hcount : s.count.total = 0) :
    s = { registry := r } := by
  obtain ⟨fs, s', hsweep, rfl⟩ := run_eq h
  obtain ⟨rfl, rfl⟩ := (quiet_onFunction.sweep hsweep).2 hcount
  rfl

/-- A run on tables that reports no change enters them again, and that is all. -/
theorem barrierOn_idle {types : TypeTable} {constants : ConstantTable} {s s' : Session}
    {run : PassRun} (hrun : Pass.barrierOn types constants s = (run, s'))
    (hresult : run.result = .ok .unchanged) :
    s' = { s with cache := (s.cache.setTypes types).setConstants constants } := by
  obtain ⟨stop, done, log, hbarrier, hended, -, rfl, hlog⟩ := barrierOn_eq hrun
  rw [hresult] at hended hlog
  cases hended with
  | unchanged hnone =>
    obtain rfl := run_idle hbarrier hnone
    rw [hlog (by simp)]

/-! ## Definitions and uses after a run

Every event defines an id that the old table does not know. -/

theorem isDefined_congr (t : DefUse) {id key : Id} (h : id.same key = true) :
    t.isDefined id = t.isDefined key := by
  rw [DefUse.isDefined, DefUse.isDefined]
  congr 1
  funext entry
  rw [Id.same, Id.same, Id.same_iff.1 h]

/-- The defined ids are the results of the instructions. -/
theorem isDefined_foldl (is : List Instruction) (t : DefUse) (id : Id) :
    (is.foldl DefUse.record t).isDefined id = (t.isDefined id || isKnown (results is) id) := by
  induction is generalizing t with
  | nil => exact (Bool.or_false _).symm
  | cons i is ih =>
    rw [List.foldl_cons, ih, results_cons, isKnown_append, ← Bool.or_assoc]
    congr 1
    rw [DefUse.record]
    cases i.result with
    | none => exact (Bool.or_false _).symm
    | some key =>
      have hkey : isKnown (some key).toList id = key.same id := by
        rw [Option.toList_some, isKnown, List.any_cons, List.any_nil, Bool.or_false, Id.same_comm]
      rw [hkey]
      dsimp only
      split
      · next hdefined =>
        cases hsame : key.same id with
        | false => exact (Bool.or_false _).symm
        | true =>
          have hid : t.isDefined id = true := (isDefined_congr t hsame).symm.trans hdefined
          rw [Bool.or_true]
          exact hid
      · rw [DefUse.isDefined, List.any_append, List.any_cons, List.any_nil, Bool.or_false]
        rfl

theorem isDefined_analyze (m : Module) (id : Id) :
    (DefUse.analyze m).isDefined id = isKnown (results m.instructions) id :=
  isDefined_foldl _ {} id

/-- **The table of definitions and uses is kept by no event.** -/
theorem Outcome.analyze_defUse_eq_iff {m m' : Module} {es : List Event} {status : PassStatus}
    {count : GuardCount} (hm : m.WellFormed) (h : Outcome m es status count m') :
    DefUse.analyze m = DefUse.analyze m' ↔ es = [] := by
  constructor
  · intro heq
    rw [List.eq_nil_iff_forall_not_mem]
    intro e he
    have hnew : e.id ∈ results m'.instructions := by
      have hmem := (perm_events Event.id es).mem_iff.2 (List.mem_map_of_mem he)
      exact (List.mem_filter.1 ((h.new_results_perm hm).mem_iff.2 hmem)).1
    have hknown := isKnown_of_mem hnew
    rw [← isDefined_analyze, ← heq, isDefined_analyze, isKnown_iff] at hknown
    obtain ⟨key, hkey, hnumber⟩ := hknown
    obtain ⟨i, hi, hresult⟩ := List.mem_filterMap.1 hkey
    have hold := isOld_of_result hm hi hresult
    rw [← isOld_numeric m (Id.same_iff.2 hnumber), h.isOld_id hm he] at hold
    cases hold
  · rintro rfl
    rw [h.target, rewritten_nil]

/-! ## What survives a run that fails

A run that fails returns early: nothing is dropped, although the module was changed. -/

/-- The entries that are still fresh after a run that put guards `gs` and constants `ds` into the
module and then failed. -/
def Survives (gs : List Guard) (ds : List Declaration) : CachedAnalysis → Prop
  | .types _ => True
  | .constants _ => ∀ d ∈ ds, d.Fits
  | .defUse _ => gs = [] ∧ ds = []
  | .abstract => False

theorem guards_eq_nil_and_declarations_eq_nil_iff {es : List Event} :
    guards es = [] ∧ declarations es = [] ↔ es = [] := by
  have hlength := (perm_events Event.id es).length_eq
  rw [List.length_append, List.length_map, List.length_map, List.length_map] at hlength
  constructor
  · rintro ⟨hguards, hdeclarations⟩
    rw [hguards, hdeclarations] at hlength
    exact List.length_eq_zero_iff.1 hlength.symm
  · rintro rfl
    exact ⟨rfl, rfl⟩

/-- **What is fresh after a run that changed the module**, of the entries that it left. -/
theorem Outcome.fresh_iff_survives {m m' : Module} {es : List Event} {status : PassStatus}
    {count : GuardCount} (hm : m.WellFormed) (honce : m.DefinedOnce) {r : Registry}
    (hr : Registry.ofModule m = .ok r) (h : Outcome m es status count m') {c : Cache}
    (hc : c.Fresh m) {e : CachedAnalysis}
    (he : e ∈ (c.setConstants (constantsWith m (declarations es))).entries) :
    e.Fresh m' ↔ Survives (guards es) (declarations es) e := by
  obtain ⟨e', he', rfl⟩ := List.mem_map.1 he
  have hfresh := hc e' he'
  cases e' with
  | types t =>
    obtain ⟨hok, rfl⟩ := CachedAnalysis.fresh_types_iff.1 hfresh
    refine iff_of_true (CachedAnalysis.fresh_types_iff.2 ⟨?_, h.declaredTypes_eq.symm⟩) trivial
    rw [h.analyze_types_eq, hok]
  | constants t =>
    refine CachedAnalysis.fresh_constants_iff.trans ?_
    simp only [h.ofModule_eq_ok_iff honce hr]
    constructor
    · rintro ⟨-, ⟨hfits, -⟩, -⟩
      exact hfits
    · exact fun hfits => ⟨_, ⟨hfits, rfl⟩, rfl⟩
  | defUse t =>
    obtain rfl := CachedAnalysis.fresh_defUse_iff.1 hfresh
    exact CachedAnalysis.fresh_defUse_iff.trans
      ((h.analyze_defUse_eq_iff hm).trans guards_eq_nil_and_declarations_eq_nil_iff.symm)
  | abstract => exact absurd hfresh CachedAnalysis.not_fresh_abstract

/-- A run that changes nothing leaves all entries fresh. -/
theorem fresh_of_runBarrier_unchanged {s s' : Session} {run : PassRun}
    (hcache : s.cache.Fresh s.target) (hrun : Pass.runBarrier s = (run, s'))
    (hresult : run.result = .ok .unchanged) :
    s'.target = s.target ∧ s'.cache.Fresh s'.target := by
  obtain ⟨r, c, -, hc, hon⟩ := runBarrier_fresh hcache hrun hresult
  have hidle := barrierOn_idle hon hresult
  dsimp only at hidle
  rw [Cache.setTypes_eq_self fun t ht => hc.types_eq ht,
    Cache.setConstants_eq_self fun t ht => hc.constants_eq ht] at hidle
  subst hidle
  exact ⟨rfl, hc⟩

/-- A session on a sound module with nothing stale in its cache. -/
structure Current (s : Session) : Prop where
  wellFormed : s.target.WellFormed
  once : s.target.DefinedOnce
  fresh : s.cache.Fresh s.target

namespace Current

variable {s s' : Session} {run : PassRun}

theorem unchanged (h : Current s) (hrun : Pass.runBarrier s = (run, s'))
    (hresult : run.result = .ok .unchanged) : Current s' := by
  obtain ⟨htarget, hfresh⟩ := fresh_of_runBarrier_unchanged h.fresh hrun hresult
  exact ⟨htarget ▸ h.wellFormed, htarget ▸ h.once, hfresh⟩

/-- After a run that changes the module, nothing is cached. -/
theorem changed (h : Current s) (hrun : Pass.runBarrier s = (run, s'))
    (hresult : run.result = .ok .changed) :
    Current { s' with cache := s'.cache.invalidateExcept [] } := by
  obtain ⟨r, c, -, -, hon⟩ := runBarrier_fresh h.fresh hrun hresult
  obtain ⟨es, count, houtcome, -⟩ := barrierOn_outcome h.wellFormed hon hresult
  refine ⟨houtcome.wellFormed h.wellFormed, houtcome.definedOnce h.wellFormed h.once, ?_⟩
  rw [Cache.invalidateExcept_nil]
  exact List.forall_mem_nil _

/-- After a run that fails, exactly what survives is fresh. -/
theorem failure (h : Current s) (hrun : Pass.runBarrier s = (run, s'))
    (hresult : run.result = .ok .failure) :
    ∃ gs ds, Rewrites s.target gs ds s'.target ∧
      ∀ e ∈ s'.cache.entries, e.Fresh s'.target ↔ Survives gs ds e := by
  obtain ⟨r, c, hr, hc, hon⟩ := runBarrier_fresh h.fresh hrun hresult
  obtain ⟨es, count, houtcome, hcache⟩ := barrierOn_outcome h.wellFormed hon hresult
  rw [Cache.setTypes_eq_self fun t ht => hc.types_eq ht] at hcache
  refine ⟨guards es, declarations es, houtcome.rewrites h.wellFormed, fun e he => ?_⟩
  exact houtcome.fresh_iff_survives h.wellFormed h.once hr hc (hcache ▸ he)

end Current

/-! ## Any number of runs

A session between two runs has nothing stale in its cache, so only the last run matters. -/

/-- What holds of sessions as long as a pass succeeds on them. -/
structure Keeps (P : Session → Prop) (p : Pass) : Prop where
  unchanged : ∀ {s s' run}, P s → p.run s = (run, s') → run.result = .ok .unchanged → P s'
  changed : ∀ {s s' run}, P s → p.run s = (run, s') → run.result = .ok .changed →
    P { s' with cache := s'.cache.invalidateExcept p.preserved }

section Keeping

variable {P : Session → Prop} {p : Pass} {ps : List Pass} {s s₁ s' : Session} {one : PassRun}
  {runs : List PassRun}

theorem Keeps.settle (h : Keeps P p) (hs : P s) (hrun : p.run s = (one, s₁))
    (hone : one.Succeeds) : P (p.settle one s₁) := by
  rw [Pass.settle]
  rcases hone with hone | hone
  · rw [hone]
    exact h.unchanged hs hrun hone
  · rw [hone]
    exact h.changed hs hrun hone

theorem keeps_chain (h : ∀ p ∈ ps, Keeps P p) (hs : P s) (hchain : Pass.Chain ps s runs s') :
    P s' := by
  induction hchain with
  | nil => exact hs
  | cons hrun hone _ ih =>
    obtain ⟨hp, hps⟩ := List.forall_mem_cons.1 h
    exact ih hps (hp.settle hs hrun hone)

/-- **What passes keep that are run in order.**  They may end with a failure; then those before the
last one lead to a session that it fails on. -/
theorem runResolved_invariant (h : ∀ p ∈ ps, Keeps P p) {start status : PassStatus} (hs : P s)
    (hrun : Pass.runResolved start ps s = ((.ok status, runs), s')) (hstart : start ≠ .failure) :
    (status ≠ .failure ∧ P s') ∨ status = .failure ∧
      ∃ before p after reached earlier s₀ run, ps = before ++ p :: after ∧
        Pass.runResolved start before s = ((.ok reached, earlier), s₀) ∧ P s₀ ∧
        p.run s₀ = (run, s') ∧ run.result = .ok .failure ∧ runs = earlier ++ [run] := by
  obtain ⟨runs', s'', hchain⟩ | ⟨before, p, after, earlier, s₀, last, s'', rfl, hchain, hlast,
    hfails⟩ := Pass.chain_or_fails ps s
  · cases (hchain.runResolved_eq start).symm.trans hrun
    exact .inl ⟨Pass.foldl_after_ne_failure hstart _, keeps_chain h hs hchain⟩
  · have hs₀ := keeps_chain (fun p hp => h p (List.mem_append_left _ hp)) hs hchain
    rw [hchain.runResolved_append, Pass.runResolved_of_fails hlast hfails] at hrun
    obtain hresult | ⟨e, hresult⟩ := PassRun.result_of_not_succeeds hfails
    · rw [hresult] at hrun
      cases hrun
      exact .inr ⟨rfl, before, p, after, _, earlier, s₀, last, rfl, hchain.runResolved_eq start,
        hs₀, hlast, hresult, rfl⟩
    · rw [hresult] at hrun
      cases hrun

end Keeping

/-- Choices that are all the barrier pass, by name or not. -/
theorem runAll_of_barriers {choices : List Pass.Choice}
    (h : ∀ choice ∈ choices, choice.resolve = .ok Pass.barrier) (s : Session) :
    Pass.runAll choices s
      = Pass.runResolved .unchanged (List.replicate choices.length Pass.barrier) s := by
  have hresolve : choices.mapM Pass.Choice.resolve
      = .ok (List.replicate choices.length Pass.barrier) := by
    rw [mapM_eq_ok_iff]
    induction choices with
    | nil => exact .nil
    | cons choice choices ih =>
      obtain ⟨hchoice, hchoices⟩ := List.forall_mem_cons.1 h
      exact .cons hchoice (ih hchoices)
  rw [Pass.runAll, hresolve]

/-- **What is cached after runs of the pass.**  Everything is fresh, unless the last run failed;
then only what survives that run is. -/
theorem cached_after_runAll {settings : Settings} {source : String} {m : Module}
    (hparse : Assembly.parse settings source = .ok m) (honce : m.DefinedOnce) {cache : Cache}
    (hcache : Cache.Filled m cache) {choices : List Pass.Choice}
    (hchoices : ∀ choice ∈ choices, choice.resolve = .ok Pass.barrier) {log : Log}
    {status : PassStatus} {runs : List PassRun} {s : Session}
    (hrun : Pass.runAll choices { target := m, cache, log } = ((.ok status, runs), s)) :
    (status ≠ .failure → ∀ e ∈ s.cache.entries, e.Fresh s.target) ∧
    (status = .failure → ∃ k < choices.length, ∃ reached earlier s₀ run gs ds,
      Pass.runAll (choices.take k) { target := m, cache, log } = ((.ok reached, earlier), s₀) ∧
      Pass.runBarrier s₀ = (run, s) ∧ runs = earlier ++ [run] ∧
      Rewrites s₀.target gs ds s.target ∧
      ∀ e ∈ s.cache.entries, e.Fresh s.target ↔ Survives gs ds e) := by
  have hstart : Current { target := m, cache, log } :=
    ⟨Assembly.wellFormed_of_parse hparse, honce, hcache.fresh⟩
  rw [runAll_of_barriers hchoices] at hrun
  have hbarrier : ∀ p ∈ List.replicate choices.length Pass.barrier, p = Pass.barrier :=
    fun p hp => List.eq_of_mem_replicate hp
  have hkeeps : Keeps Current Pass.barrier := ⟨Current.unchanged, Current.changed⟩
  have hall : ∀ p ∈ List.replicate choices.length Pass.barrier, Keeps Current p :=
    fun p hp => hbarrier p hp ▸ hkeeps
  rcases runResolved_invariant hall hstart hrun nofun with ⟨hstatus, hcurrent⟩ | ⟨rfl, before, p,
    after, reached, earlier, s₀, run, hsplit, hbefore, hs₀, hlast, hresult, hruns⟩
  · exact ⟨fun _ => hcurrent.fresh, fun heq => absurd heq hstatus⟩
  · rw [hsplit] at hbarrier
    obtain rfl := hbarrier p (by simp)
    have hlength := congrArg List.length hsplit
    rw [List.length_replicate, List.length_append, List.length_cons] at hlength
    have hearlier : Pass.runAll (choices.take before.length) { target := m, cache, log }
        = ((.ok reached, earlier), s₀) := by
      rw [runAll_of_barriers fun c hc => hchoices c (List.mem_of_mem_take hc), List.length_take,
        Nat.min_eq_left (by omega), ← hbefore]
      congr 1
      exact (List.eq_replicate_of_mem fun q hq => hbarrier q (List.mem_append_left _ hq)).symm
    obtain ⟨gs, ds, hrewrites, hfresh⟩ := hs₀.failure hlast hresult
    exact ⟨fun hne => absurd rfl hne, fun _ => ⟨before.length, by omega, reached, earlier, s₀, run,
      gs, ds, hearlier, hlast, hruns, hrewrites, hfresh⟩⟩

/-! ### An example -/

/-- Two shifts by three, of which the second is of a type that has no zero. -/
def failingText : String :=
  "%1 = OpTypeInt 32 0\n%2 = OpTypeFloat 32\n%3 = OpConstant %1 3\n" ++
  "%4 = OpFunction %1 None %1\n%5 = OpLabel\n%6 = OpShiftLeftLogical %1 %3 %3\n" ++
  "%7 = OpShiftLeftLogical %2 %3 %3\nOpReturn\nOpFunctionEnd\n"

/-- The module of that text. -/
def failing : Module :=
  { globals :=
      [{ opcode := "OpTypeInt", result := some ⟨1, none⟩,
         operands := [.literal (.int 32) none, .literal (.int 0) none], serial := 0 },
       { opcode := "OpTypeFloat", result := some ⟨2, none⟩,
         operands := [.literal (.int 32) none], serial := 1 },
       { opcode := "OpConstant", type := some ⟨1, none⟩, result := some ⟨3, none⟩,
         operands := [.literal (.int 3) none], serial := 2 }]
    functions :=
      [{ id := ⟨4, none⟩
         definition :=
           { opcode := "OpFunction", type := some ⟨1, none⟩, result := some ⟨4, none⟩,
             operands := [.enumerant "None", .id ⟨1, none⟩], serial := 3 }
         blocks :=
           [{ label := ⟨5, none⟩
              instructions :=
                [{ opcode := "OpShiftLeftLogical", type := some ⟨1, none⟩,
                   result := some ⟨6, none⟩, operands := [.id ⟨3, none⟩, .id ⟨3, none⟩],
                   serial := 4 },
                 { opcode := "OpShiftLeftLogical", type := some ⟨2, none⟩,
                   result := some ⟨7, none⟩, operands := [.id ⟨3, none⟩, .id ⟨3, none⟩],
                   serial := 5 },
                 { opcode := "OpReturn", serial := 6 }] }] }]
    bound := 8
    nextSerial := 7 }

theorem parse_failing : Assembly.parse {} failingText = .ok failing :=
  toOption_eq_some_iff.1 (by decide +kernel)

theorem failing_once : failing.DefinedOnce := by
  rw [Module.DefinedOnce]
  decide

/-- The session of a module whose definitions and uses were asked for. -/
def asked (m : Module) : Session := { target := m, cache := ⟨[.defUse (DefUse.analyze m)]⟩ }

theorem asked_filled (m : Module) : Cache.Filled m (asked m).cache := by
  have hrequest : Cache.request m .defUse {} = (.ok (), (asked m).cache) := rfl
  exact .request .empty hrequest

/-- The entries that are left are fresh if they survive the failing run. -/
theorem cached_after_runAll_sample :
    Assembly.parse {} failingText = .ok failing ∧ failing.DefinedOnce ∧
      Cache.Filled failing (asked failing).cache ∧ ∃ runs s,
        Pass.runAll [.name Pass.barrierName] (asked failing) = ((.ok .failure, runs), s) ∧
          s.cache.kinds = [.defUse, .types, .constants] ∧ ∃ m gs ds, Rewrites m gs ds s.target ∧
            ∀ e ∈ s.cache.entries, e.Fresh s.target ↔ Survives gs ds e := by
  obtain ⟨runs, s, hrun, hkinds⟩ : ∃ runs s,
      Pass.runAll [.name Pass.barrierName] (asked failing) = ((.ok .failure, runs), s) ∧
        s.cache.kinds = [.defUse, .types, .constants] := ⟨_, _, rfl, rfl⟩
  obtain ⟨-, hfailure⟩ := cached_after_runAll parse_failing failing_once (asked_filled failing)
    (List.forall_mem_singleton.2 rfl) hrun
  obtain ⟨k, -, reached, earlier, s₀, run, gs, ds, -, -, -, hrewrites, hfresh⟩ := hfailure rfl
  exact ⟨parse_failing, failing_once, asked_filled failing, runs, s, hrun, hkinds, s₀.target, gs,
    ds, hrewrites, hfresh⟩

/-- **An analysis may be stale after a failure**: it does not know the result of the shift that was
guarded. -/
theorem cached_stale :
    Assembly.parse {} failingText = .ok failing ∧ failing.DefinedOnce ∧
      Cache.Filled failing (asked failing).cache ∧ ∃ runs s,
        Pass.runAll [.name Pass.barrierName] (asked failing) = ((.ok .failure, runs), s) ∧
          ∃ e ∈ s.cache.entries, ¬ e.Fresh s.target := by
  refine ⟨parse_failing, failing_once, asked_filled failing, _, _, rfl,
    .defUse (DefUse.analyze failing), List.mem_cons_self, fun hfresh => ?_⟩
  have hdefined := congrArg (DefUse.isDefined · ⟨9, none⟩)
    (CachedAnalysis.fresh_defUse_iff.1 hfresh)
  exact absurd hdefined (by decide)

end Barrier
end ShiftBarrier
