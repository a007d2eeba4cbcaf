import ShiftBarrier.Pass
import ShiftBarrier.Proofs.Barrier.Steps
import ShiftBarrier.Proofs.Cache
import ShiftBarrier.Proofs.Outcome

/-!
# What comes of the operations of the barrier

As for the operations on registries, each operation is taken apart once.

* `Reported` is how a report about an instruction ends.
* `GuardOutcome` is what comes of guarding a candidate, `InstructionOutcome` of looking at an
  instruction, and `SweepOutcome` of going through a list that is not empty.
* `onBlock_eq`, `onFunction_eq` and `run_eq` put the sweeps of the levels into each other.
* `barrierOn_eq` is about a run of the pass on given tables, and `PassOutcome` is what comes of
  asking for the tables first.
-/

set_option autoImplicit false

namespace ShiftBarrier
namespace Barrier

/-! ## Guards

As in `Proofs.Outcome`, what comes of an operation is listed case by case. -/

section Guard

variable {i : Instruction} {c : Candidate}

/-- How a report about an instruction ends.  Only a line that cannot be written stops the run. -/
inductive Reported (i : Instruction) : Option Stop → Prop
  | written {text : String} (htext : i.text = .ok text) : Reported i none
  | unwritable {fault : Decimal.Fault} (htext : i.text = .error fault) :
      Reported i (some (.raised (.numeral fault)))

theorem Reported.ne_failed {stop : Option Stop} (h : Reported i stop) : stop ≠ some .failed := by
  cases h <;> simp

theorem Reported.eq_none_iff {stop : Option Stop} (h : Reported i stop) :
    stop = none ↔ ∃ text, i.text = .ok text := by
  cases h with
  | written htext => exact iff_of_true rfl ⟨_, htext⟩
  | unwritable htext =>
    refine iff_of_false (Option.some_ne_none _) ?_
    rintro ⟨text, hok⟩
    cases htext.symm.trans hok

/-- A report changes nothing but the log. -/
theorem report_cases {s s' : State} {level : LogLevel} {message : String} {stop : Option Stop}
    (h : s.report level message i = (stop, s')) :
    Reported i stop ∧ ∃ log, s' = { s with registry := { s.registry with log } } := by
  rw [State.report] at h
  split at h
  · cases h
    exact ⟨.written ‹_›, _, rfl⟩
  · cases h
    exact ⟨.unwritable ‹_›, s.registry.log, rfl⟩

theorem fail_cases {s s' : State} {message : String} {stop : Stop}
    (h : s.fail message i = (stop, s')) :
    ∃ ended log, Reported i ended ∧ stop = ended.getD .failed ∧
      s' = { s with registry := { s.registry with log } } := by
  rw [State.fail] at h
  rcases hrun : s.report .error message i with ⟨ended, s₁⟩
  obtain ⟨hreport, log, rfl⟩ := report_cases hrun
  rw [hrun] at h
  cases h
  exact ⟨ended, log, hreport, rfl, rfl⟩

/-- What comes of guarding a candidate: either the renamed shift and its guard, or the shift as it
was, and the end of the run. -/
inductive GuardOutcome (c : Candidate) (s : State) : List Instruction → Option Stop → State → Prop
  | put {zero : Id} {r : Registry} {stop : Option Stop} {log : Log}
      (hzero : s.registry.zeroId c.type = (zero, r)) (hvalid : zero.isValid = true)
      (hpos : 0 < r.target.bound) (hlt : r.target.bound < r.target.maxIdBound)
      (hreport : Reported { c.shift with result := some ⟨r.target.bound, none⟩ } stop) :
      GuardOutcome c s
        [{ c.shift with result := some ⟨r.target.bound, none⟩ },
          { guardInstruction c ⟨r.target.bound, none⟩ zero with serial := r.target.nextSerial }]
        stop
        { registry := { r with target := taken r.target, log }, count := s.count.add c.isVector }
  | noId {zero : Id} {r : Registry} {ended : Option Stop} {log : Log}
      (hzero : s.registry.zeroId c.type = (zero, r)) (hvalid : zero.isValid = true)
      (hfull : 0 < r.target.bound → r.target.maxIdBound ≤ r.target.bound)
      (hreport : Reported c.shift ended) :
      GuardOutcome c s [c.shift] (some (ended.getD .failed)) { s with registry := { r with log } }
  | noZero {zero : Id} {r : Registry} {ended : Option Stop} {log : Log}
      (hzero : s.registry.zeroId c.type = (zero, r)) (hinvalid : ¬ zero.isValid = true)
      (hreport : Reported c.shift ended) :
      GuardOutcome c s [c.shift] (some (ended.getD .failed)) { s with registry := { r with log } }

/-- **Guarding a candidate** has one of these outcomes. -/
theorem guard_outcome {s s' : State} {out : List Instruction} {stop : Option Stop}
    (h : guard c s = (out, stop, s')) : GuardOutcome c s out stop s' := by
  rw [guard] at h
  rcases hzero : s.registry.zeroId c.type with ⟨zero, r⟩
  rw [hzero] at h
  dsimp only at h
  split at h
  · rcases r.takeId_cases with ⟨hpos, hlt, htake⟩ | ⟨hfull, htake⟩
    · rw [htake] at h
      dsimp only at h
      rw [if_pos (Id.isValid_of_pos hpos)] at h
      obtain ⟨hreport, log, heq⟩ := report_cases (Prod.mk.inj h).2
      cases h
      rw [heq]
      exact .put hzero ‹_› hpos hlt hreport
    · rw [htake] at h
      dsimp only at h
      rw [if_neg Id.absurd_invalid] at h
      rcases hrun : State.fail { s with registry := { r with log := r.log ++ [.idOverflow] } }
        "failed to allocate a temp result id for " c.shift with ⟨ended, s₁⟩
      obtain ⟨ended, log, hreport, rfl, rfl⟩ := fail_cases hrun
      rw [hrun] at h
      cases h
      exact .noId (r := r) hzero ‹_› hfull hreport
  · rcases hrun : State.fail { s with registry := r }
      s!"failed to get or create a zero constant of type {c.type.text} for " c.shift with
      ⟨ended, s₁⟩
    obtain ⟨ended, log, hreport, rfl, rfl⟩ := fail_cases hrun
    rw [hrun] at h
    cases h
    exact .noZero hzero ‹_› hreport

end Guard

/-! ## Going through a module -/

/-- What comes of looking at an instruction: only candidates are touched. -/
inductive InstructionOutcome (i : Instruction) (s : State) :
    List Instruction → Option Stop → State → Prop
  | raised {e : Error}
      (hcandidate : candidate? s.registry.types s.registry.constants i = .error e) :
      InstructionOutcome i s [i] (some (.raised e)) s
  | passed (hcandidate : candidate? s.registry.types s.registry.constants i = .ok none) :
      InstructionOutcome i s [i] none s
  | candidate {c : Candidate} {out : List Instruction} {stop : Option Stop} {s' : State}
      (hcandidate : candidate? s.registry.types s.registry.constants i = .ok (some c))
      (hguard : guard c s = (out, stop, s')) : InstructionOutcome i s out stop s'

theorem onInstruction_outcome {i : Instruction} {s s' : State} {out : List Instruction}
    {stop : Option Stop} (h : onInstruction i s = (out, stop, s')) :
    InstructionOutcome i s out stop s' := by
  rw [onInstruction] at h
  split at h
  · cases h
    exact .raised ‹_›
  · cases h
    exact .passed ‹_›
  · exact .candidate ‹_› h

/-- What comes of a sweep over a list that is not empty. -/
inductive SweepOutcome {α σ : Type} (step : α → σ → List α × Option Stop × σ) (a : α) (as : List α)
    (s : σ) : List α → Option Stop → σ → Prop
  | stopped {head : List α} {why : Stop} {s' : σ} (hhead : step a s = (head, some why, s')) :
      SweepOutcome step a as s (head ++ as) (some why) s'
  | passed {head rest : List α} {stop : Option Stop} {s₁ s' : σ}
      (hhead : step a s = (head, none, s₁)) (htail : sweep step as s₁ = (rest, stop, s')) :
      SweepOutcome step a as s (head ++ rest) stop s'

theorem sweep_outcome {α σ : Type} {step : α → σ → List α × Option Stop × σ} {a : α}
    {as out : List α} {s s' : σ} {stop : Option Stop}
    (h : sweep step (a :: as) s = (out, stop, s')) : SweepOutcome step a as s out stop s' := by
  rw [sweep] at h
  split at h
  · cases h
    exact .stopped ‹_›
  · rcases htail : sweep step as _ with ⟨rest, stop, s₂⟩
    rw [htail] at h
    cases h
    exact .passed ‹_› htail

theorem onBlock_eq {b : Block} {s s' : State} {out : List Block} {stop : Option Stop}
    (h : onBlock b s = (out, stop, s')) :
    ∃ instructions, sweep onInstruction b.instructions s = (instructions, stop, s') ∧
      out = [{ b with instructions }] := by
  rw [onBlock] at h
  cases h
  exact ⟨_, rfl, rfl⟩

theorem onFunction_eq {f : Function} {s s' : State} {out : List Function} {stop : Option Stop}
    (h : onFunction f s = (out, stop, s')) :
    ∃ blocks, sweep onBlock f.blocks s = (blocks, stop, s') ∧ out = [{ f with blocks }] := by
  rw [onFunction] at h
  cases h
  exact ⟨_, rfl, rfl⟩

theorem run_eq {r : Registry} {s : State} {stop : Option Stop} (h : run r = (stop, s)) :
    ∃ functions s', sweep onFunction r.target.functions { registry := r } = (functions, stop, s') ∧
      s = { s' with
        registry := { s'.registry with target := { s'.registry.target with functions } } } := by
  rw [run] at h
  cases h
  exact ⟨_, _, rfl, rfl⟩

/-! ## Runs of the pass -/

/-- What is reported of a run: by what it was stopped, and whether it added barriers. -/
inductive Ended : Option Stop → GuardCount → Except Error PassStatus → Prop
  | raised (e : Error) (n : GuardCount) : Ended (some (.raised e)) n (.error e)
  | failed (n : GuardCount) : Ended (some .failed) n (.ok .failure)
  | unchanged {n : GuardCount} (hnone : n.total = 0) : Ended none n (.ok .unchanged)
  | changed {n : GuardCount} (hsome : n.total ≠ 0) : Ended none n (.ok .changed)

theorem Ended.succeeds_iff {stop : Option Stop} {n : GuardCount} {result : Except Error PassStatus}
    (h : Ended stop n result) :
    (result = .ok .changed ∨ result = .ok .unchanged) ↔ stop = none := by
  cases h <;> simp

/-- What comes at the end changes nothing but the log, and that only if something was changed. -/
theorem barrierEnd_eq {stop : Option Stop} {s s' : State} {result : Except Error PassStatus}
    (h : Pass.barrierEnd stop s = (result, s')) : Ended stop s.count result ∧
      ∃ log, s' = { s with registry := { s.registry with log } } ∧
        (result ≠ .ok .changed → log = s.registry.log) := by
  rw [Pass.barrierEnd.eq_def] at h
  split at h
  · cases h
    exact ⟨.raised _ _, s.registry.log, rfl, fun _ => rfl⟩
  · cases h
    exact ⟨.failed _, s.registry.log, rfl, fun _ => rfl⟩
  · split at h
    · cases h
      exact ⟨.unchanged ‹_›, s.registry.log, rfl, fun _ => rfl⟩
    · cases h
      exact ⟨.changed ‹_›, _, rfl, fun hne => absurd rfl hne⟩

/-- **A run of the pass on tables** enters them again, as they are in the end. -/
theorem barrierOn_eq {types : TypeTable} {constants : ConstantTable} {s s' : Session}
    {run : PassRun} (hrun : Pass.barrierOn types constants s = (run, s')) :
    ∃ stop done log, Barrier.run ⟨⟨s.target, types, s.log⟩, constants⟩ = (stop, done) ∧
      Ended stop done.count run.result ∧ run.guards = some done.count ∧
      s' = { target := done.registry.target, log,
             cache := (s.cache.setTypes done.registry.types).setConstants
               done.registry.constants } ∧
      (run.result ≠ .ok .changed → log = done.registry.log) := by
  rw [Pass.barrierOn] at hrun
  rcases hbarrier : Barrier.run ⟨⟨s.target, types, s.log⟩, constants⟩ with ⟨stop, done⟩
  rw [hbarrier] at hrun
  dsimp only at hrun
  rcases hend : Pass.barrierEnd stop done with ⟨result, done'⟩
  obtain ⟨hended, log, rfl, hlog⟩ := barrierEnd_eq hend
  rw [hend] at hrun
  cases hrun
  exact ⟨stop, done, log, rfl, hended, rfl, rfl, hlog⟩

/-- What comes of a run of the pass: it asks for the types, then for the constants. -/
inductive PassOutcome (s : Session) : PassRun → Session → Prop
  | noTypes {e : Error} {c : Cache}
      (htypes : s.cache.requestTypes s.target = (.error e, c)) :
      PassOutcome s ⟨.error e, none⟩ { s with cache := c }
  | noConstants {types : TypeTable} {e : Error} {c₁ c : Cache}
      (htypes : s.cache.requestTypes s.target = (.ok types, c₁))
      (hconstants : c₁.requestConstants s.target = (.error e, c)) :
      PassOutcome s ⟨.error e, none⟩ { s with cache := c }
  | pending {types : TypeTable} {c₁ c : Cache}
      (htypes : s.cache.requestTypes s.target = (.ok types, c₁))
      (hconstants : c₁.requestConstants s.target = (.ok none, c)) :
      PassOutcome s ⟨(runWithoutConstants s.target).map fun _ => .unchanged, some {}⟩
        { s with cache := c }
  | tables {types : TypeTable} {constants : ConstantTable} {c₁ c : Cache} {run : PassRun}
      {s' : Session} (htypes : s.cache.requestTypes s.target = (.ok types, c₁))
      (hconstants : c₁.requestConstants s.target = (.ok (some constants), c))
      (hrun : Pass.barrierOn types constants { s with cache := c } = (run, s')) :
      PassOutcome s run s'

theorem passOutcome {s s' : Session} {run : PassRun} (hrun : Pass.runBarrier s = (run, s')) :
    PassOutcome s run s' := by
  rw [Pass.runBarrier] at hrun
  dsimp only at hrun
  rw [Session.tables_run_eq] at hrun
  rcases htypes : s.cache.requestTypes s.target with ⟨_ | types, c₁⟩
  · rw [htypes] at hrun
    cases hrun
    exact .noTypes htypes
  · rw [htypes] at hrun
    dsimp only at hrun
    rcases hconstants : c₁.requestConstants s.target with ⟨_ | _ | constants, c⟩
    · rw [hconstants] at hrun
      cases hrun
      exact .noConstants htypes hconstants
    · rw [hconstants] at hrun
      cases hrun
      exact .pending htypes hconstants
    · rw [hconstants] at hrun
      exact .tables htypes hconstants hrun

end Barrier
end ShiftBarrier
