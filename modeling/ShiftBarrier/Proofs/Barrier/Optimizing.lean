import ShiftBarrier.Proofs.Barrier.Listing
import ShiftBarrier.Proofs.Listing.Validity

/-!
# Optimising a module

To optimise a module is to run passes on it, all of them found by name, and to validate what comes
of it if the settings ask for that.

* `Session.steps_runAll`: passes that are found by name do nothing but run the barrier pass.
* `Session.optimize_run` takes an optimisation apart.
* `Session.exists_valid_reading` says that a module which passed the validation does so again when
  its listing is read.
-/

set_option autoImplicit false

namespace ShiftBarrier
namespace Pass

/-- There is no other pass to be found. -/
theorem eq_barrier_of_named {name : String} {p : Pass} (h : named name = .ok p) : p = barrier := by
  rw [named, registered, List.lookup_cons] at h
  split at h
  · next found hfound =>
    cases h
    split at hfound
    · exact (Option.some.inj hfound).symm
    · cases hfound
  · cases h

end Pass

namespace Session

variable {names : List String} {s s' : Session} {result : Except Error PassStatus}

/-! ## Running passes -/

theorem steps_runResolved {passes : List Pass} (h : ∀ p ∈ passes, p = Pass.barrier)
    (start : PassStatus) (s : Session) :
    Relation.ReflTransGen Step s (Pass.runResolved start passes s).2 := by
  induction passes generalizing start s with
  | nil => exact .refl
  | cons p passes ih =>
    obtain ⟨rfl, hpasses⟩ := List.forall_mem_cons.1 h
    have hone : Step s (Pass.barrier.run s).2 := .run s
    rw [Pass.runResolved]
    rcases hrun : Pass.barrier.run s with ⟨run, s₁⟩
    rw [hrun] at hone
    dsimp only
    split
    · exact .single hone
    · exact .single hone
    · exact .head hone (ih hpasses start s₁)
    · exact .head hone (.head (.invalidateExcept s₁ _) (ih hpasses .changed _))

/-- **Passes that are found by name run the barrier pass**, and drop analyses in between. -/
theorem steps_runAll (names : List String) (s : Session) :
    Relation.ReflTransGen Step s (Pass.runAll (names.map .name) s).2 := by
  rw [Pass.runAll]
  split
  · exact .refl
  · next passes hpasses =>
    refine steps_runResolved (fun p hp => ?_) _ s
    obtain ⟨choice, hchoice, hresolve⟩ := exists_of_mem_result hpasses hp
    obtain ⟨name, -, rfl⟩ := List.mem_map.1 hchoice
    exact Pass.eq_barrier_of_named hresolve

/-! ## Optimising -/

/-- The passes run on a cache of their own; then the module is validated, if it is at all. -/
theorem optimize_run (names : List String) (s : Session) :
    let run := Pass.runAll (names.map .name) { s with cache := {} }
    (optimize names).run.run s =
      (do
        let status ← run.1.1
        if status ≠ .failure ∧ s.target.settings.validate = true then
          (Validation.check run.2.target).map fun _ => status
        else .ok status, { run.2 with cache := s.cache }) := by
  intro run
  have hrun : (optimize names).run.run s =
      (do
        let status ← (MonadExcept.ofExcept run.1.1 : Action PassStatus)
        if status ≠ .failure ∧ s.target.settings.validate then
          MonadExcept.ofExcept (Validation.check run.2.target)
        return status : Action PassStatus).run.run { run.2 with cache := s.cache } := rfl
  rw [hrun]
  cases run.1.1 with
  | error e => rfl
  | ok status =>
    have hvalidated : ∀ validate : Prop, [Decidable validate] →
        (do
          if validate then MonadExcept.ofExcept (Validation.check run.2.target)
          return status : Action PassStatus).run.run { run.2 with cache := s.cache }
        = (if validate then (Validation.check run.2.target).map fun _ => status else .ok status,
            { run.2 with cache := s.cache }) := by
      intro validate _
      split
      · cases Validation.check run.2.target <;> rfl
      · rfl
    exact hvalidated _

/-- The module after an optimisation is one that runs of the pass lead to. -/
theorem exists_steps_of_optimize (hrun : (optimize names).run.run s = (result, s')) :
    ∃ done, Relation.ReflTransGen Step { s with cache := {} } done ∧
      s' = { done with cache := s.cache } := by
  rw [optimize_run] at hrun
  exact ⟨_, steps_runAll names _, (Prod.mk.inj hrun).2.symm⟩

theorem findings_of_optimize {status : PassStatus} (hvalidate : s.target.settings.validate = true)
    (hrun : (optimize names).run.run s = (.ok status, s')) (hstatus : status ≠ .failure) :
    Validation.findings s'.target = [] := by
  rw [optimize_run, Prod.mk.injEq, bind_eq_ok_iff] at hrun
  obtain ⟨⟨status', -, hresult⟩, rfl⟩ := hrun
  have hsame : status' = status := by
    split at hresult
    · exact (eq_of_map_const hresult).symm
    · exact Except.ok.inj hresult
  rw [if_pos ⟨hsame ▸ hstatus, hvalidate⟩, Validation.check] at hresult
  split at hresult
  · assumption
  · cases hresult

/-- **What was found valid is found valid again when its listing is read**, under whatever
settings. -/
theorem exists_valid_reading {settings : Settings}
    (hlimit : settings.maxIdBound ≤ Settings.maxIdWord)
    (hvalidate : settings.validate = true) {source : String} {m : Module}
    (hparse : Assembly.parse settings source = .ok m) {log : Log} {status : PassStatus}
    (hrun : (optimize names).run.run { target := m, log } = (.ok status, s'))
    (hstatus : status ≠ .failure) {text : String} (htext : s'.target.text = .ok text)
    (settings' : Settings) :
    ∃ m', Assembly.parse settings' text = .ok m' ∧ Validation.findings m' = [] := by
  have hsettings : m.settings = settings := (legible_of_parse hparse log).settings
  have hvalid := findings_of_optimize (hsettings ▸ hvalidate) hrun hstatus
  obtain ⟨done, hsteps, rfl⟩ := exists_steps_of_optimize hrun
  have hlegible := legible_of_steps hlimit hparse hsteps
  obtain ⟨ids, hprintable⟩ := hlegible.printable
  exact hprintable.findings_parse_text hlegible.wellFormed hvalid htext settings'

end Session
end ShiftBarrier
