import ShiftBarrier.Proofs.Barrier.Caching
import ShiftBarrier.Proofs.Barrier.Resources
import ShiftBarrier.Proofs.Calls

/-!
# Runs on a shared cache

Runs of the pass in one session share its cache: the tables stay from one run to the next, with what
was declared on demand in between.  That saves analyses, and changes nothing: every run does what it
does on a cache of its own.

* `Twin` relates registries whose constants answer alike; `run_twin` says that runs on them do the
  same.
* `InTune` is a session whose cached tables are those of its module, up to such constants, and
  `Prepares` is what may be asked of a session before the pass is run.
* `freshRuns` runs the pass on one fresh cache after the other, and `runAll_shared` compares.
* `shared_amiss` shows what a zero of an integer type longer than any integer does.
-/

set_option autoImplicit false

namespace ShiftBarrier
namespace Barrier

/-! ## Registries that answer alike

One table was kept up to date, the other is made anew.  They need not be equal: names and spellings
may differ, as long as every look-up comes out the same. -/

theorem isIntegral_congr {t t' : Ty} (h : t.same t' = true) : t.isIntegral = t'.isIntegral := by
  cases t <;> cases t' <;> simp_all [Ty.same, Ty.isIntegral]
  next e n e' n' => cases e <;> cases e' <;> simp_all [Ty.same]

theorem isIntegral_of_agrees {c c' : Constant} (h : c.Agrees c') :
    c.type.isIntegral = c'.type.isIntegral := by
  rcases h with rfl | h
  · rfl
  · refine isIntegral_congr ?_
    cases c <;> cases c' <;> simp_all [Constant.same, Constant.type]

/-- Results that are the same but for states that `R` relates. -/
inductive Beside {α σ : Type} (R : σ → σ → Prop) : α × σ → α × σ → Prop
  | intro (a : α) {s s' : σ} (h : R s s') : Beside R (a, s) (a, s')

/-- Two registries on one module, with the same types, and with constants that answer alike. -/
structure Twin (r r' : Registry) : Prop where
  same : r.toTypeRegistry = r'.toTypeRegistry
  constants : r.constants.Matches r'.constants

namespace Twin

variable {r r' : Registry}

theorem onTypes {α : Type} (h : Twin r r') (f : TypeRegistry → α × TypeRegistry) :
    Beside Twin (r.onTypes f) (r'.onTypes f) := by
  rw [Registry.onTypes, Registry.onTypes, h.same]
  exact .intro _ ⟨rfl, h.constants⟩

theorem takeId (h : Twin r r') : Beside Twin r.takeId r'.takeId := h.onTypes _

theorem constantId (h : Twin r r') (c : Constant) :
    Beside Twin (Registry.constantId c r) (Registry.constantId c r') := by
  rw [Registry.constantId, Registry.constantId, h.constants.id?_eq c]
  cases r'.constants.id? c with
  | some id => exact .intro id h
  | none =>
    have htype := h.onTypes (TypeRegistry.typeId c.type)
    generalize r.onTypes (TypeRegistry.typeId c.type) = x,
      r'.onTypes (TypeRegistry.typeId c.type) = x' at htype ⊢
    cases htype with
    | @intro type q q' h =>
      dsimp only
      split
      · have hid := h.takeId
        generalize q.takeId = y, q'.takeId = y' at hid ⊢
        cases hid with
        | @intro id p p' h =>
          dsimp only
          split
          · refine .intro id ⟨?_, h.constants.add id (.inl rfl)⟩
            dsimp only
            rw [h.same]
          · exact .intro _ h
      · exact .intro _ h

theorem zeroScalarId (h : Twin r r') (w : Nat) (s : Bool) :
    Beside Twin (Registry.zeroScalarId w s r) (Registry.zeroScalarId w s r') :=
  h.constantId _

theorem compositeId (h : Twin r r') (type : Id) (components : List Id) :
    Beside Twin (Registry.compositeId type components r)
      (Registry.compositeId type components r') := by
  have hdeclared : components.all r.constants.isDeclared
      = components.all r'.constants.isDeclared := by
    rw [funext h.constants.isDeclared_eq]
  rw [Registry.compositeId, Registry.compositeId, h.same, hdeclared]
  split
  · split
    · exact h.constantId _
    · exact .intro _ h
  · exact .intro _ h

theorem zeroVectorId (h : Twin r r') (w : Nat) (s : Bool) (n : Nat) :
    Beside Twin (Registry.zeroVectorId w s n r) (Registry.zeroVectorId w s n r') := by
  rw [Registry.zeroVectorId, Registry.zeroVectorId]
  have hzero := h.zeroScalarId w s
  generalize Registry.zeroScalarId w s r = x, Registry.zeroScalarId w s r' = x' at hzero ⊢
  cases hzero with
  | @intro zero q q' h =>
    dsimp only
    split
    · have htype := h.onTypes (TypeRegistry.vectorId (.int w s) n)
      generalize q.onTypes (TypeRegistry.vectorId (.int w s) n) = y,
        q'.onTypes (TypeRegistry.vectorId (.int w s) n) = y' at htype ⊢
      cases htype with
      | @intro type p p' h =>
        dsimp only
        split
        · exact h.compositeId _ _
        · exact .intro _ h
    · exact .intro _ h

/-- **The zeros of a type have the same ids**, whether they are found or declared. -/
theorem zeroId (h : Twin r r') (type : Id) :
    Beside Twin (Registry.zeroId type r) (Registry.zeroId type r') := by
  rw [Registry.zeroId, Registry.zeroId, h.same]
  split
  · exact h.zeroScalarId _ _
  · exact h.zeroVectorId _ _ _
  · exact .intro _ h

/-- The same instructions are candidates. -/
theorem candidate?_eq (h : Twin r r') (i : Instruction) :
    candidate? r.types r.constants i = candidate? r'.types r'.constants i := by
  rw [candidate?, candidate?, h.same]
  congr 1
  funext amount
  cases amount with
  | none => rfl
  | some amount =>
    have hconstant := h.constants.constant? amount
    dsimp only
    generalize r.constants.constant? amount = c, r'.constants.constant? amount = c' at hconstant ⊢
    cases hconstant with
    | none => rfl
    | some hagrees =>
      dsimp only
      rw [isIntegral_of_agrees hagrees]

end Twin

/-! ## Runs that do the same

Both runs see the same module, and from tables that answer alike they ask the same. -/

/-- States of runs on registries that answer alike, after as many guards. -/
structure State.Twin (s s' : State) : Prop where
  registry : Barrier.Twin s.registry s'.registry
  count : s.count = s'.count

namespace State.Twin

variable {s s' : State}

theorem write (h : State.Twin s s') (r : LogRecord) : State.Twin (s.write r) (s'.write r) := by
  refine ⟨⟨?_, h.registry.constants⟩, h.count⟩
  simp only [State.write, h.registry.same]

theorem report (h : State.Twin s s') (level : LogLevel) (message : String) (i : Instruction) :
    Beside State.Twin (s.report level message i) (s'.report level message i) := by
  rw [State.report, State.report]
  split
  · exact .intro _ (h.write _)
  · exact .intro _ h

theorem fail (h : State.Twin s s') (message : String) (i : Instruction) :
    Beside State.Twin (s.fail message i) (s'.fail message i) := by
  rw [State.fail, State.fail]
  have hreport := h.report .error message i
  generalize s.report .error message i = x, s'.report .error message i = x' at hreport ⊢
  cases hreport with
  | intro stop h => exact .intro _ h

/-- A report behind what was done. -/
theorem reported (h : State.Twin s s') (out : List Instruction) (level : LogLevel)
    (message : String) (i : Instruction) :
    Beside (Beside State.Twin)
      (match s.report level message i with | (stop, t) => (out, stop, t))
      (match s'.report level message i with | (stop, t) => (out, stop, t)) := by
  have hreport := h.report level message i
  generalize s.report level message i = x, s'.report level message i = x' at hreport ⊢
  cases hreport with
  | intro stop h => exact .intro _ (.intro _ h)

/-- A failure that ends a run. -/
theorem failed (h : State.Twin s s') (out : List Instruction) (message : String)
    (i : Instruction) :
    Beside (Beside State.Twin)
      (match s.fail message i with | (stop, t) => (out, some stop, t))
      (match s'.fail message i with | (stop, t) => (out, some stop, t)) := by
  have hfail := h.fail message i
  generalize s.fail message i = x, s'.fail message i = x' at hfail ⊢
  cases hfail with
  | intro stop h => exact .intro _ (.intro _ h)

end State.Twin

theorem guard_twin {s s' : State} (h : State.Twin s s') (c : Candidate) :
    Beside (Beside State.Twin) (guard c s) (guard c s') := by
  rw [guard, guard]
  have hzero := h.registry.zeroId c.type
  generalize s.registry.zeroId c.type = x, s'.registry.zeroId c.type = x' at hzero ⊢
  cases hzero with
  | @intro zero r r' hr =>
    dsimp only
    split
    · have htake := hr.takeId
      generalize r.takeId = y, r'.takeId = y' at htake ⊢
      cases htake with
      | @intro temporary q q' hq =>
        dsimp only
        split
        · rw [hq.same, h.count]
          refine State.Twin.reported ?_ _ _ _ _
          exact ⟨⟨rfl, hq.constants⟩, rfl⟩
        · refine State.Twin.failed ?_ _ _ _
          exact ⟨hq, h.count⟩
    · refine State.Twin.failed ?_ _ _ _
      exact ⟨hr, h.count⟩

/-- What does the same step by step does the same in a row. -/
theorem sweep_twin {α : Type} {step : α → State → List α × Option Stop × State}
    (hstep : ∀ a {s s'}, State.Twin s s' → Beside (Beside State.Twin) (step a s) (step a s'))
    (as : List α) {s s' : State} (h : State.Twin s s') :
    Beside (Beside State.Twin) (sweep step as s) (sweep step as s') := by
  induction as generalizing s s' with
  | nil => exact .intro _ (.intro _ h)
  | cons a as ih =>
    rw [sweep, sweep]
    have hhead := hstep a h
    generalize step a s = x, step a s' = x' at hhead ⊢
    obtain ⟨done, @⟨stop, t, t', h⟩⟩ := hhead
    cases stop with
    | some stop => exact .intro _ (.intro _ h)
    | none =>
      have htail := ih h
      dsimp only
      generalize sweep step as t = y, sweep step as t' = y' at htail ⊢
      obtain ⟨rest, ⟨stop, h⟩⟩ := htail
      exact .intro _ (.intro _ h)

theorem onInstruction_twin (i : Instruction) {s s' : State} (h : State.Twin s s') :
    Beside (Beside State.Twin) (onInstruction i s) (onInstruction i s') := by
  rw [onInstruction, onInstruction, h.registry.candidate?_eq i]
  split
  · exact .intro _ (.intro _ h)
  · exact .intro _ (.intro _ h)
  · exact guard_twin h _

theorem onBlock_twin (b : Block) {s s' : State} (h : State.Twin s s') :
    Beside (Beside State.Twin) (onBlock b s) (onBlock b s') := by
  rw [onBlock, onBlock]
  have hsweep := sweep_twin onInstruction_twin b.instructions h
  generalize sweep onInstruction b.instructions s = x,
    sweep onInstruction b.instructions s' = x' at hsweep ⊢
  obtain ⟨is, ⟨stop, h⟩⟩ := hsweep
  exact .intro _ (.intro _ h)

theorem onFunction_twin (f : Function) {s s' : State} (h : State.Twin s s') :
    Beside (Beside State.Twin) (onFunction f s) (onFunction f s') := by
  rw [onFunction, onFunction]
  have hsweep := sweep_twin onBlock_twin f.blocks h
  generalize sweep onBlock f.blocks s = x, sweep onBlock f.blocks s' = x' at hsweep ⊢
  obtain ⟨bs, ⟨stop, h⟩⟩ := hsweep
  exact .intro _ (.intro _ h)

/-- **Runs on registries that answer alike do the same.** -/
theorem run_twin {r r' : Registry} (h : Twin r r') : Beside State.Twin (run r) (run r') := by
  have hstart : State.Twin { registry := r } { registry := r' } := ⟨h, rfl⟩
  have hsweep := sweep_twin onFunction_twin r'.target.functions hstart
  rw [run, run, h.same]
  generalize sweep onFunction r'.target.functions { registry := r } = x,
    sweep onFunction r'.target.functions { registry := r' } = x' at hsweep ⊢
  obtain ⟨fs, @⟨stop, s, s', h⟩⟩ := hsweep
  refine .intro stop ⟨⟨?_, h.registry.constants⟩, h.count⟩
  dsimp only
  rw [h.registry.same]

theorem barrierEnd_twin {s s' : State} (h : State.Twin s s') (stop : Option Stop) :
    Beside State.Twin (Pass.barrierEnd stop s) (Pass.barrierEnd stop s') := by
  rw [Pass.barrierEnd.eq_def, Pass.barrierEnd.eq_def]
  dsimp only
  rw [h.count]
  split
  · exact .intro _ h
  · exact .intro _ h
  · split
    · exact .intro _ h
    · exact .intro _ (h.write _)

/-- On tables that answer alike, the pass does the same to the module and to the log. -/
theorem barrierOn_twin (types : TypeTable) {k k' : ConstantTable} (hk : k.Matches k') (m : Module)
    (c c' : Cache) (log : Log) :
    ∃ run target log' cache cache',
      Pass.barrierOn types k { target := m, cache := c, log }
        = (run, { target, cache, log := log' }) ∧
      Pass.barrierOn types k' { target := m, cache := c', log }
        = (run, { target, cache := cache', log := log' }) := by
  have htwin : Twin ⟨⟨m, types, log⟩, k⟩ ⟨⟨m, types, log⟩, k'⟩ := ⟨rfl, hk⟩
  rw [Pass.barrierOn, Pass.barrierOn]
  dsimp only
  have hrun := run_twin htwin
  generalize Barrier.run ⟨⟨m, types, log⟩, k⟩ = x, Barrier.run ⟨⟨m, types, log⟩, k'⟩ = x' at hrun ⊢
  obtain @⟨stop, s, s', h⟩ := hrun
  have hend := barrierEnd_twin h stop
  dsimp only
  generalize Pass.barrierEnd stop s = y, Pass.barrierEnd stop s' = y' at hend ⊢
  obtain @⟨result, s, s', h⟩ := hend
  dsimp only
  rw [h.registry.same, h.count]
  exact ⟨_, _, _, _, _, rfl, rfl⟩

/-! ## Sessions in tune with their modules -/

/-- The module can be analysed, and the cached tables are those of the analyses, up to constants
that answer alike. -/
def InTune (s : Session) : Prop :=
  ∃ r k, Registry.ofModule s.target = .ok r ∧ r.constants.Matches k ∧ s.cache.Holds r.types k

/-- The next run does what it does on a fresh cache. -/
def LikeNew (s : Session) : Prop := s.cache = {} ∨ InTune s

section Runs

variable {s s' : Session} {run : PassRun}

theorem InTune.runBarrier (h : InTune s) :
    ∃ r, ∃ c : Cache, ∃ k, Registry.ofModule s.target = .ok r ∧ r.constants.Matches k ∧
      c.Holds r.types k ∧ Pass.runBarrier s = Pass.barrierOn r.types k { s with cache := c } := by
  obtain ⟨r, k, hr, hk, hc⟩ := h
  obtain ⟨hok, hok', rfl⟩ := Registry.ofModule_eq_ok_iff.1 hr
  obtain ⟨c₁, htypes, hc₁⟩ := Cache.Holds.requestTypes hok hc
  obtain ⟨c₂, k', hconstants, hk', hc₂⟩ := Cache.Holds.requestConstants hok hok' hc₁
  refine ⟨_, c₂, k', hr, ?_, hc₂, ?_⟩
  · rcases hk' with rfl | rfl
    · exact hk
    · exact .refl _
  · rw [Pass.runBarrier]
    dsimp only
    rw [Session.tables_run_eq, htypes]
    dsimp only
    rw [hconstants]
    rfl

/-- After a run that changes nothing, the next one may use the cache. -/
theorem InTune.unchanged (h : InTune s) (hrun : Pass.runBarrier s = (run, s'))
    (hresult : run.result = .ok .unchanged) : InTune s' := by
  obtain ⟨r, c, k, hr, hk, hc, heq⟩ := h.runBarrier
  rw [barrierOn_idle (heq.symm.trans hrun) hresult]
  exact ⟨r, k, hr, hk, hc.setTypes.setConstants⟩

/-- **A run on a cache that is like new does what it does on a new one.** -/
theorem LikeNew.runBarrier (h : LikeNew s) :
    ∃ run target log cache cache',
      Pass.runBarrier s = (run, { target, cache, log }) ∧
      Pass.runBarrier { target := s.target, log := s.log }
        = (run, { target, cache := cache', log }) ∧
      (run.result = .ok .unchanged → LikeNew { target, cache, log }) := by
  rcases h with hcache | hinTune
  · obtain ⟨target, cache, log⟩ := s
    obtain rfl : cache = {} := hcache
    rcases hrun : Pass.runBarrier { target, log } with ⟨run, s'⟩
    refine ⟨run, s'.target, s'.log, s'.cache, s'.cache, rfl, rfl, fun hresult => .inr ?_⟩
    obtain ⟨r, hr⟩ := exists_ofModule_of_runBarrier hrun hresult
    have hinTune : InTune { target, log } := ⟨r, r.constants, hr, .refl _, .empty _ _⟩
    exact hinTune.unchanged hrun hresult
  · obtain ⟨r, c, k, hr, hk, hc, heq⟩ := hinTune.runBarrier
    have hfresh := runBarrier_of_ofModule hr s.log
    obtain ⟨-, -, rfl⟩ := Registry.ofModule_eq_ok_iff.1 hr
    obtain ⟨run, target, log, cache, cache', hnew, hold⟩ :=
      barrierOn_twin s.target.declaredTypes hk s.target
        ⟨[.types s.target.declaredTypes, .constants (some s.target.declaredConstants)]⟩ c s.log
    refine ⟨run, target, log, cache', cache, heq.trans hold, hfresh.trans hnew, fun hresult => ?_⟩
    exact .inr (hinTune.unchanged (heq.trans hold) hresult)

end Runs

/-! ## Preparations

A session may have been used before the pass is run on it.  What was declared is in the module, so a
new analysis finds it, too. -/

/-- What is cached are the tables of the module, in which no id is defined twice. -/
def Tracked (s : Session) : Prop :=
  ∃ types k, Mirrored ⟨s.target, types, s.log⟩ k ∧ s.cache.Holds types k

/-- What may be asked of a session before the pass is run on it.  No integer type has no bits, and
zeros are those of types that are no longer than any integer. -/
inductive Prepares : Session → Session → Prop
  | request (s : Session) (kind : AnalysisKind) :
      Prepares s ((Session.request kind).run.run s).2
  | vectorId (s : Session) {element : Ty} (count : Int)
      (hpos : ∀ w signed, element = .int w signed → 0 < w) :
      Prepares s ((Session.onTypes (TypeRegistry.vectorId element count)).run.run s).2
  | zeroScalarId (s : Session) {type : Ty}
      (hw : ∀ w signed, type = .int w signed → 0 < w ∧ w ≤ Integer.maxBits) :
      Prepares s ((Session.zeroScalarId type).run.run s).2
  | compositeId (s : Session) (type : Option Id) (components : List (Option Id)) :
      Prepares s ((Session.compositeId type components).run.run s).2

namespace Tracked

variable {s s' : Session}

theorem inTune (h : Tracked s) : InTune s := by
  obtain ⟨types, k, hm, hc⟩ := h
  obtain ⟨r, hr, htypes, hmatches⟩ := hm.ofModule
  obtain rfl : r.types = types := htypes
  exact ⟨r, k, hr, hmatches, hc⟩

/-- The tables of a tracked session. -/
theorem tables (h : Tracked s) : (TypeTable.analyze s.target).1 = .ok () ∧
    (ConstantTable.analyze s.target.declaredTypes s.target).1 = .ok () ∧
    ∃ k, Mirrored ⟨s.target, s.target.declaredTypes, s.log⟩ k ∧
      s.cache.Holds s.target.declaredTypes k := by
  obtain ⟨types, k, hm, hc⟩ := h
  obtain ⟨r, hr, htypes, -⟩ := hm.ofModule
  obtain ⟨hok, hok', rfl⟩ := Registry.ofModule_eq_ok_iff.1 hr
  obtain rfl : s.target.declaredTypes = types := htypes
  exact ⟨hok, hok', k, hm, hc⟩

theorem onTypes (h : Tracked s) {α : Type} {f : TypeRegistry → α × TypeRegistry}
    (hf : ∀ {q k}, Mirrored q k → Mirrored (f q).2 k) :
    Tracked ((Session.onTypes f).run.run s).2 := by
  obtain ⟨hok, -, k, hm, hc⟩ := h.tables
  obtain ⟨c, htypes, hc⟩ := Cache.Holds.requestTypes hok hc
  rw [Session.onTypes, Session.bind_run, Session.types, Session.onCache_run, htypes]
  exact ⟨_, k, hf hm, hc.setTypes⟩

theorem onRegistry (h : Tracked s) {α : Type} {f : Registry → α × Registry}
    (hf : ∀ {r : Registry}, Mirrored r.toTypeRegistry r.constants →
      Mirrored (f r).2.toTypeRegistry (f r).2.constants) :
    Tracked ((Session.onRegistry f).run.run s).2 := by
  obtain ⟨hok, hok', k, hm, hc⟩ := h.tables
  obtain ⟨c₁, k', hconstants, hk', hc₁⟩ := Cache.Holds.requestConstants hok hok' hc
  obtain ⟨c₂, htypes, hc₂⟩ := Cache.Holds.requestTypes hok hc₁
  have hask : Session.constants.run.run s = (.ok k', { s with cache := c₁ }) := by
    rw [Session.constants, Session.bind_run, Session.constants?, Session.onCache_run, hconstants]
    rfl
  have hask' : Session.types.run.run { s with cache := c₁ }
      = (.ok s.target.declaredTypes, { s with cache := c₂ }) := by
    rw [Session.types, Session.onCache_run, htypes]
  have hm' : Mirrored ⟨s.target, s.target.declaredTypes, s.log⟩ k' := by
    rcases hk' with rfl | rfl
    · exact hm
    · exact hm.reread
  rw [Session.onRegistry, Session.bind_run, hask]
  dsimp only
  rw [Session.bind_run, hask']
  exact ⟨_, _, hf (r := ⟨⟨s.target, s.target.declaredTypes, s.log⟩, k'⟩) hm',
    hc₂.setTypes.setConstants⟩

theorem request (h : Tracked s) (kind : AnalysisKind) :
    Tracked ((Session.request kind).run.run s).2 := by
  obtain ⟨hok, hok', k, hm, hc⟩ := h.tables
  obtain ⟨k', hk', hc'⟩ := hc.request hok (rfl : s.cache.request s.target kind = _)
  rw [Session.request, Session.onCache_run]
  rcases hk' with rfl | rfl
  · exact ⟨_, _, hm, hc'⟩
  · exact ⟨_, _, hm.reread, hc'⟩

/-- There is no such zero, which is found before anything is asked for. -/
theorem zeroScalarId_of_other {type : Ty} (h : ∀ w signed, type ≠ .int w signed) (s : Session) :
    ((Session.zeroScalarId type).run.run s).2 = s := by
  have hraise : ∀ name : Except Decimal.Fault String,
      ((do throw (.violation (.zeroOfOtherType (← name))) : Action Id).run.run s).2 = s := by
    intro name
    cases name <;> rfl
  cases type with
  | int w signed => exact absurd rfl (h w signed)
  | _ => exact hraise _

theorem zeroScalarId (h : Tracked s) {type : Ty}
    (hw : ∀ w signed, type = .int w signed → 0 < w ∧ w ≤ Integer.maxBits) :
    Tracked ((Session.zeroScalarId type).run.run s).2 := by
  by_cases hint : ∃ w signed, type = .int w signed
  · obtain ⟨w, signed, rfl⟩ := hint
    have hcall : Session.zeroScalarId (.int w signed)
        = Session.onRegistry (Registry.zeroScalarId w signed) := rfl
    rw [hcall]
    refine h.onRegistry fun hm => ?_
    exact hm.zeroScalarId (hw w signed rfl).1 (hw w signed rfl).2 rfl
  · rw [zeroScalarId_of_other fun w signed heq => hint ⟨w, signed, heq⟩]
    exact h

/-- **Preparations keep the tables those of the module.** -/
theorem prepares (h : Tracked s) (hstep : Prepares s s') : Tracked s' := by
  cases hstep with
  | request kind => exact h.request kind
  | @vectorId element count hpos =>
    refine h.onTypes fun hm => ?_
    by_cases hscalar : element.isScalar = true
    · refine hm.vectorId (.inl ?_) rfl
      cases element with
      | int w signed => exact .int (hpos w signed rfl)
      | float => exact .float
      | bool => exact .bool
      | _ => cases hscalar
    · rw [TypeRegistry.vectorId, if_neg fun hcount => hscalar hcount.1]
      exact hm
  | zeroScalarId hw => exact h.zeroScalarId hw
  | compositeId type components =>
    refine h.onRegistry fun hm => ?_
    split
    · exact hm.compositeId rfl
    · exact hm

end Tracked

/-! ## One cache or many -/

/-- Runs the pass up to so many times, each time on a new cache, and stops at the first run that
does not succeed. -/
def freshRuns : Nat → Module → Log → List PassRun × Module × Log
  | 0, m, log => ([], m, log)
  | n + 1, m, log =>
    let (run, s) := Pass.runBarrier { target := m, log }
    match run.result with
    | .error _ | .ok .failure => ([run], s.target, s.log)
    | .ok .unchanged | .ok .changed =>
      let (runs, last) := freshRuns n s.target s.log
      (run :: runs, last)

/-- The status of runs, one after the other: the last one that is more than no change. -/
def combined (start : PassStatus) (runs : List PassRun) : Except Error PassStatus :=
  runs.foldlM (fun status run => do
    match ← run.result with
    | .unchanged => return status
    | new => return new) start

section Runs

variable {m : Module} {log : Log} {s : Session} {start : PassStatus} {run : PassRun}
  {runs : List PassRun}

theorem freshRuns_of_succeeds (hrun : Pass.runBarrier { target := m, log } = (run, s))
    (h : run.Succeeds) (n : Nat) : freshRuns (n + 1) m log
      = (run :: (freshRuns n s.target s.log).1, (freshRuns n s.target s.log).2) := by
  rw [freshRuns, hrun]
  dsimp only
  rcases h with hresult | hresult
  · rw [hresult]
  · rw [hresult]

theorem freshRuns_of_fails (hrun : Pass.runBarrier { target := m, log } = (run, s))
    (h : ¬ run.Succeeds) (n : Nat) : freshRuns (n + 1) m log = ([run], s.target, s.log) := by
  rw [freshRuns, hrun]
  dsimp only
  obtain hresult | ⟨e, hresult⟩ := PassRun.result_of_not_succeeds h
  · rw [hresult]
  · rw [hresult]

theorem combined_of_succeeds (h : run.Succeeds) (runs : List PassRun) :
    combined start (run :: runs) = combined (start.after run) runs := by
  rw [combined, List.foldlM_cons, PassStatus.after]
  rcases h with hresult | hresult
  · rw [hresult]
    rfl
  · rw [hresult]
    rfl

theorem combined_of_fails (h : ¬ run.Succeeds) : combined start [run] = run.result := by
  rw [combined, List.foldlM_cons]
  obtain hresult | ⟨e, hresult⟩ := PassRun.result_of_not_succeeds h
  · rw [hresult]
    rfl
  · rw [hresult]
    rfl

end Runs

/-- **Runs in a session that is like new are fresh runs.** -/
theorem runResolved_shared (n : Nat) {s : Session} (h : LikeNew s) (start : PassStatus) :
    ∃ cache, Pass.runResolved start (List.replicate n Pass.barrier) s
      = ((combined start (freshRuns n s.target s.log).1, (freshRuns n s.target s.log).1),
        { target := (freshRuns n s.target s.log).2.1, cache,
          log := (freshRuns n s.target s.log).2.2 }) := by
  induction n generalizing s start with
  | zero => exact ⟨s.cache, rfl⟩
  | succ n ih =>
    obtain ⟨run, target, log, cache, cache', hshared, hnew, hnext⟩ := h.runBarrier
    have hone : Pass.barrier.run s = (run, { target, cache, log }) := hshared
    rw [List.replicate_succ]
    by_cases hsucceeds : run.Succeeds
    · have hlike : LikeNew (Pass.barrier.settle run { target, cache, log }) := by
        rw [Pass.settle]
        rcases hsucceeds with hresult | hresult
        · rw [hresult]
          exact hnext hresult
        · rw [hresult]
          exact .inl (Cache.invalidateExcept_nil cache)
      obtain ⟨last, hrest⟩ := ih hlike (start.after run)
      rw [Pass.settle_target, Pass.settle_log] at hrest
      refine ⟨last, ?_⟩
      rw [freshRuns_of_succeeds hnew hsucceeds, combined_of_succeeds hsucceeds]
      exact Pass.runResolved_of_succeeds hone hsucceeds hrest
    · refine ⟨cache, ?_⟩
      rw [Pass.runResolved_of_fails hone hsucceeds, freshRuns_of_fails hnew hsucceeds,
        combined_of_fails hsucceeds]

/-- **A shared cache agrees with fresh caches.**  Whatever was asked of the session before, runs of
the pass in it are runs on one new cache after the other. -/
theorem runAll_shared {settings : Settings} {source : String} {m : Module}
    (hparse : Assembly.parse settings source = .ok m) (honce : m.DefinedOnce) {r : Registry}
    (hr : Registry.ofModule m = .ok r) {log : Log} {s : Session}
    (hprepared : Relation.ReflTransGen Prepares { target := m, log } s)
    {choices : List Pass.Choice}
    (hchoices : ∀ choice ∈ choices, choice.resolve = .ok Pass.barrier) :
    ∃ runs target log' cache,
      freshRuns choices.length s.target s.log = (runs, target, log') ∧
      Pass.runAll choices s
        = ((combined .unchanged runs, runs), { target, cache, log := log' }) := by
  have hstart : Tracked { target := m, log } :=
    ⟨r.types, r.constants, .start (Assembly.wellFormed_of_parse hparse) honce hr log, .empty _ _⟩
  have htracked : Tracked s := by
    induction hprepared with
    | refl => exact hstart
    | tail _ hstep ih => exact ih.prepares hstep
  obtain ⟨cache, hrun⟩ :=
    runResolved_shared choices.length (.inr htracked.inTune) .unchanged
  rw [runAll_of_barriers hchoices]
  exact ⟨_, _, _, cache, rfl, hrun⟩

/-! ### An example -/

/-- The module after a vector type and a zero were asked for. -/
def prepared : Session :=
  let s := ((Session.onTypes (TypeRegistry.vectorId (.int 32 false) 2)).run.run
    { target := sample }).2
  ((Session.zeroScalarId (.int 32 false)).run.run s).2

/-- Two runs on what was asked for. -/
theorem runAll_shared_sample :
    Assembly.parse {} sampleText = .ok sample ∧ sample.DefinedOnce ∧
      (∃ r, Registry.ofModule sample = .ok r) ∧
      Relation.ReflTransGen Prepares { target := sample } prepared ∧
      prepared.cache.kinds = [.types, .constants] ∧ prepared.target.bound = 9 ∧
      (Pass.runAll [.name Pass.barrierName, .pass Pass.barrier] prepared).1.1 = .ok .changed ∧
      combined .unchanged (freshRuns 2 prepared.target prepared.log).1 = .ok .changed := by
  have honce : sample.DefinedOnce := by
    rw [Module.DefinedOnce]
    decide
  have hpos : ∀ w signed, Ty.int 32 false = .int w signed → 0 < w ∧ w ≤ Integer.maxBits := by
    rintro w signed ⟨⟩
    exact ⟨by decide, by decide⟩
  have hprepared : Relation.ReflTransGen Prepares { target := sample } prepared :=
    .tail (.single (.vectorId _ 2 fun w signed heq => (hpos w signed heq).1))
      (.zeroScalarId _ hpos)
  have hbarrier : ∀ choice ∈ [Pass.Choice.name Pass.barrierName, .pass Pass.barrier],
      choice.resolve = .ok Pass.barrier :=
    List.forall_mem_cons.2 ⟨rfl, List.forall_mem_singleton.2 rfl⟩
  obtain ⟨runs, target, log, cache, hfresh, hshared⟩ :=
    runAll_shared parse_sample honce rfl hprepared hbarrier
  have hchanged : (Pass.runAll [.name Pass.barrierName, .pass Pass.barrier] prepared).1.1
      = .ok .changed := rfl
  refine ⟨parse_sample, honce, ⟨_, rfl⟩, hprepared, rfl, rfl, hchanged, ?_⟩
  rw [hshared] at hchanged
  have hruns : (freshRuns 2 prepared.target prepared.log).1 = runs := congrArg Prod.fst hfresh
  rw [hruns]
  exact hchanged

/-- **Not so after a zero that cannot be read again**: the cache knows it, a new one does not. -/
theorem shared_amiss :
    Assembly.parse {} Session.wideText = .ok (Session.declaringInt (2 ^ 70)) ∧
      (Session.declaringInt (2 ^ 70)).DefinedOnce ∧
      (∃ r, Registry.ofModule (Session.declaringInt (2 ^ 70)) = .ok r) ∧
      ∃ s, (Session.zeroScalarId (.int (2 ^ 70) false)).run.run
          { target := Session.declaringInt (2 ^ 70) } = (.ok ⟨2, none⟩, s) ∧
        (Pass.runAll [.name Pass.barrierName] s).1.1 = .ok .unchanged ∧
        ∃ e, combined .unchanged (freshRuns 1 s.target s.log).1 = .error e := by
  refine ⟨Session.parse_wideText, ?_, ⟨_, rfl⟩, _, rfl, rfl, _, rfl⟩
  rw [Module.DefinedOnce]
  decide

end Barrier
end ShiftBarrier
