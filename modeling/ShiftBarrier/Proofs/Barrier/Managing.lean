import ShiftBarrier.Proofs.Barrier.Caching
import ShiftBarrier.Proofs.Passes

/-!
# Running lists of passes

What becomes of a list of passes can be told from what becomes of each, and a list in two parts is
run one part after the other.

* `PassManager` is a session with the passes that were started on it.
* `Pass.Chain.kinds_subset` is what is cached after a pass that changed something.
* `PassManager.run_append` says that a list is run like its first part and then, unless that
  failed, its second; `PassManager.run_in_order` puts all this together.
-/

set_option autoImplicit false

namespace ShiftBarrier

/-- How two lists of passes went, taken together. -/
def PassStatus.join : PassStatus → PassStatus → PassStatus
  | .failure, _ | _, .failure => .failure
  | .changed, _ | _, .changed => .changed
  | .unchanged, .unchanged => .unchanged

namespace Pass

/-- The choice is a pass, or the name of a registered one. -/
def Choice.Resolves : Choice → Prop
  | .name key => (registered.lookup key).isSome
  | .pass _ => True

variable {p : Pass} {ps qs : List Pass} {s s₁ s' : Session} {one last : PassRun}
  {runs : List PassRun} {start status : PassStatus} {result : Except Error PassStatus}

/-! ## Chains -/

namespace Chain

/-- **Only what the last pass preserves is still cached**, if it changed anything. -/
theorem kinds_subset (h : Chain (ps ++ [p]) s (runs ++ [one]) s')
    (hone : one.result = .ok .changed) : s'.cache.kinds ⊆ p.preserved := by
  induction ps generalizing s runs with
  | nil =>
    obtain rfl : runs = [] := List.length_eq_zero_iff.1 (Nat.succ.inj (by simpa using h.length_eq))
    cases h with
    | cons _ _ hrest =>
      cases hrest
      rw [settle, hone]
      intro kind hkind
      obtain ⟨e, he, rfl⟩ := List.mem_map.1 hkind
      exact Cache.kind_mem_of_invalidateExcept he
  | cons q ps ih =>
    cases runs with
    | nil => exact absurd h.length_eq (by simp)
    | cons run runs =>
      cases h with
      | cons _ _ hrest => exact ih hrest

end Chain

/-! ## Running a list

The status so far is carried along as a state.  Joining statuses undoes that. -/

/-- The status so far is joined to that of the passes to come. -/
theorem runResolved_start (hstart : start ≠ .failure) (ps : List Pass) (s : Session) :
    runResolved start ps s =
      (((runResolved .unchanged ps s).1.1.map start.join, (runResolved .unchanged ps s).1.2),
        (runResolved .unchanged ps s).2) := by
  have hjoin : ∀ runs : List PassRun, runs.foldl PassStatus.after start
      = start.join (runs.foldl PassStatus.after .unchanged) := by
    intro runs
    rcases foldl_after_cases runs with ⟨-, hstatus⟩ | ⟨-, hstatus⟩
    · rw [hstatus, hstatus]
      cases start <;> first | rfl | exact absurd rfl hstart
    · rw [hstatus, hstatus]
      cases start <;> rfl
  have hfailure : ∀ {last : PassRun}, ¬ last.Succeeds →
      last.result.map start.join = last.result := by
    intro last hlast
    obtain hresult | ⟨e, hresult⟩ := PassRun.result_of_not_succeeds hlast
    · rw [hresult]
      cases start <;> rfl
    · rw [hresult]
      rfl
  rcases chain_or_fails ps s with ⟨runs, s', hchain⟩ | ⟨before, p, after, earlier, s₁, last, s',
    rfl, hchain, hrun, hfails⟩
  · rw [hchain.runResolved_eq, hchain.runResolved_eq, hjoin]
    rfl
  · rw [hchain.runResolved_append, hchain.runResolved_append, runResolved_of_fails hrun hfails,
      runResolved_of_fails hrun hfails, hfailure hfails]

/-- **Two lists in a row.**  Unless the first fails, the second is run where it has led to. -/
theorem runResolved_append (ps qs : List Pass) (s : Session) :
    runResolved .unchanged (ps ++ qs) s = match runResolved .unchanged ps s with
      | ((.error e, runs), s') => ((.error e, runs), s')
      | ((.ok .failure, runs), s') => ((.ok .failure, runs), s')
      | ((.ok status, runs), s') =>
        (((runResolved .unchanged qs s').1.1.map status.join,
          runs ++ (runResolved .unchanged qs s').1.2), (runResolved .unchanged qs s').2) := by
  rcases chain_or_fails ps s with ⟨runs, s', hchain⟩ | ⟨before, p, after, earlier, s₁, last, s',
    rfl, hchain, hrun, hfails⟩
  · rw [hchain.runResolved_append, hchain.runResolved_eq]
    rcases foldl_after_cases runs with ⟨-, hstatus⟩ | ⟨-, hstatus⟩
    · have hne : PassStatus.changed ≠ .failure := nofun
      rw [hstatus, runResolved_start hne]
    · have hne : PassStatus.unchanged ≠ .failure := nofun
      rw [hstatus, runResolved_start hne]
  · rw [List.append_assoc, List.cons_append, hchain.runResolved_append,
      hchain.runResolved_append, runResolved_of_fails hrun hfails,
      runResolved_of_fails hrun hfails]
    obtain hresult | ⟨e, hresult⟩ := PassRun.result_of_not_succeeds hfails
    · rw [hresult]
    · rw [hresult]

/-! ## Names -/

theorem Choice.Resolves.exists_resolve {choice : Choice} (h : choice.Resolves) :
    ∃ p, choice.resolve = .ok p := by
  cases choice with
  | pass p => exact ⟨p, rfl⟩
  | name key =>
    obtain ⟨p, hp⟩ := Option.isSome_iff_exists.1 h
    refine ⟨p, ?_⟩
    rw [Choice.resolve, named, hp]

theorem Choice.resolve_eq_error {choice : Choice} {e : Error} (h : choice.resolve = .error e) :
    ∃ key, choice = .name key ∧ registered.lookup key = none ∧
      e = .unknownPass key (registered.map Prod.fst) := by
  cases choice with
  | pass p => cases h
  | name key =>
    rw [Choice.resolve, named] at h
    split at h
    · cases h
    · next hlookup =>
      cases h
      exact ⟨key, rfl, hlookup, rfl⟩

end Pass

/-! ## The manager -/

/-- A session, and the passes that were started on it so far. -/
structure PassManager where
  session : Session
  started : List PassRun := []

namespace PassManager

open Pass

/-- Runs passes and notes which of them were started. -/
def run (choices : List Choice) (manager : PassManager) :
    Except Error PassStatus × PassManager :=
  let ((result, runs), session) := runAll choices manager.session
  (result, { session, started := manager.started ++ runs })

variable {manager : PassManager} {ps qs : List Choice} {passes : List Pass}

theorem run_of_resolved (hps : ps.mapM Choice.resolve = .ok passes) :
    manager.run ps = ((runResolved .unchanged passes manager.session).1.1,
      { session := (runResolved .unchanged passes manager.session).2
        started := manager.started ++ (runResolved .unchanged passes manager.session).1.2 }) := by
  rw [run, runAll, hps]

/-- **Nothing is run if a name is unknown.** -/
theorem run_of_unknown (h : ∃ key, .name key ∈ ps ∧ registered.lookup key = none) :
    ∃ before key after, ps = before ++ .name key :: after ∧
      (∀ choice ∈ before, ∃ p, choice.resolve = .ok p) ∧ registered.lookup key = none ∧
      manager.run ps = (.error (.unknownPass key (registered.map Prod.fst)), manager) := by
  obtain ⟨key, hkey, hlookup⟩ := h
  have hunresolved : ¬ ∃ passes, ps.mapM Choice.resolve = .ok passes := by
    rintro ⟨passes, hpasses⟩
    obtain ⟨p, -, hp⟩ := exists_result_of_mem hpasses hkey
    rw [Choice.resolve, named, hlookup] at hp
    cases hp
  rcases hps : ps.mapM Choice.resolve with e | passes
  · obtain ⟨before, choice, after, rfl, hbefore, hchoice⟩ := mapM_eq_error_iff.1 hps
    obtain ⟨key, rfl, hlookup, rfl⟩ := Choice.resolve_eq_error hchoice
    refine ⟨before, key, after, rfl, hbefore, hlookup, ?_⟩
    rw [run, runAll, hps]
    dsimp only
    rw [List.append_nil]
  · exact absurd ⟨passes, hps⟩ hunresolved

theorem run_append (hps : ∀ choice ∈ ps, choice.Resolves) (hqs : ∀ choice ∈ qs, choice.Resolves) :
    manager.run (ps ++ qs) = match manager.run ps with
      | (.error e, next) => (.error e, next)
      | (.ok .failure, next) => (.ok .failure, next)
      | (.ok status, next) => ((next.run qs).1.map status.join, (next.run qs).2) := by
  obtain ⟨passes, hpasses⟩ := exists_mapM_eq_ok fun choice hchoice =>
    (hps choice hchoice).exists_resolve
  obtain ⟨others, hothers⟩ := exists_mapM_eq_ok fun choice hchoice =>
    (hqs choice hchoice).exists_resolve
  have hall : (ps ++ qs).mapM Choice.resolve = .ok (passes ++ others) := by
    rw [List.mapM_append, hpasses, hothers]
    rfl
  rw [run_of_resolved hall, run_of_resolved hpasses, runResolved_append]
  rcases runResolved .unchanged passes manager.session with ⟨⟨e | status, runs⟩, s'⟩
  · rfl
  · cases status with
    | failure => rfl
    | changed | unchanged =>
      dsimp only
      rw [run_of_resolved hothers, List.append_assoc]

/-- **Passes are run in order.**  If a name is unknown, an error says so and nothing has happened.
Otherwise the passes up to the first that does not succeed are started, and the result tells how
they went.  After a pass that changed something only what it preserves is cached.  A list is run
like its first part and then, unless that did not succeed, its second. -/
theorem run_in_order (manager : PassManager) (choices : List Choice) :
    ((∃ key, .name key ∈ choices ∧ registered.lookup key = none) →
      ∃ before key after, choices = before ++ .name key :: after ∧
        (∀ choice ∈ before, ∃ p, choice.resolve = .ok p) ∧ registered.lookup key = none ∧
        manager.run choices = (.error (.unknownPass key (registered.map Prod.fst)), manager)) ∧
    ((∀ choice ∈ choices, choice.Resolves) → ∃ passes runs result s',
      List.Forall₂ (fun choice pass => choice.resolve = .ok pass) choices passes ∧
      Executed passes manager.session runs result s' ∧
      manager.run choices = (result, { session := s', started := manager.started ++ runs }) ∧
      (result = .ok .failure ↔ ∃ run ∈ runs, run.result = .ok .failure) ∧
      (result = .ok .changed ↔
        (∀ run ∈ runs, run.Succeeds) ∧ ∃ run ∈ runs, run.result = .ok .changed) ∧
      (result = .ok .unchanged ↔ ∀ run ∈ runs, run.result = .ok .unchanged) ∧
      (∀ e, result = .error e ↔ ∃ run ∈ runs, run.result = .error e) ∧
      (∀ before p after earlier one s₁, passes = before ++ p :: after →
        Chain (before ++ [p]) manager.session (earlier ++ [one]) s₁ → one.result = .ok .changed →
        ∀ kind, s₁.cache.isCached kind = true → kind ∈ p.preserved) ∧
      ∀ others : List Choice, (∀ choice ∈ others, choice.Resolves) →
        manager.run (choices ++ others) = match manager.run choices with
          | (.error e, next) => (.error e, next)
          | (.ok .failure, next) => (.ok .failure, next)
          | (.ok status, next) =>
            ((next.run others).1.map status.join, (next.run others).2)) := by
  refine ⟨run_of_unknown, fun hchoices => ?_⟩
  obtain ⟨passes, hpasses⟩ := exists_mapM_eq_ok fun choice hchoice =>
    (hchoices choice hchoice).exists_resolve
  have hexecuted := executed_iff.2 (Eq.refl (runResolved .unchanged passes manager.session))
  obtain ⟨hfailure, hchanged, hunchanged, herror⟩ := hexecuted.result_iff
  exact ⟨passes, _, _, _, mapM_eq_ok_iff.1 hpasses, hexecuted, run_of_resolved hpasses, hfailure,
    hchanged, hunchanged, herror,
    fun before p after earlier one s₁ _ hchain hone kind hkind =>
      hchain.kinds_subset hone (List.contains_iff_mem.1 hkind),
    fun others hothers => run_append hchoices hothers⟩

/-! ### An example -/

/-- A pass that asks for the constants, and reports a change that preserves the types. -/
def asking : Pass :=
  { preserved := [.types]
    run := fun s =>
      let asked := (Session.request .constants).run.run s
      (⟨asked.1.map fun _ => .changed, none⟩, asked.2) }

/-- When the barrier starts, the types are cached and nothing else. -/
theorem run_in_order_sample : ∃ runs s',
    Executed [asking, barrier] { target := Barrier.sample } runs (.ok .changed) s' ∧
    run [.pass asking, .name barrierName] { session := { target := Barrier.sample } }
      = (.ok .changed, { session := s', started := runs }) ∧
    ∃ one s₁, Chain [asking] { target := Barrier.sample } [one] s₁ ∧ one.result = .ok .changed ∧
      s₁.cache.isCached .types = true ∧
      ∀ kind, s₁.cache.isCached kind = true → kind ∈ [.types] := by
  have hresolves : ∀ choice ∈ [Choice.pass asking, .name barrierName], choice.Resolves :=
    List.forall_mem_cons.2 ⟨trivial, List.forall_mem_singleton.2 rfl⟩
  obtain ⟨passes, runs, result, s', hpasses, hexecuted, hrun, -, -, -, -, hcached, -⟩ :=
    (run_in_order { session := { target := Barrier.sample } } _).2 hresolves
  obtain rfl : passes = [asking, barrier] := by
    rcases hpasses with _ | ⟨hasking, _ | ⟨hbarrier, _ | _⟩⟩
    cases hasking
    cases hbarrier
    rfl
  obtain rfl : result = .ok .changed := (congrArg Prod.fst hrun).symm.trans rfl
  have hchain : Chain [asking] { target := Barrier.sample } [_] _ := .cons rfl (.inr rfl) (.nil _)
  exact ⟨runs, s', hexecuted, hrun, _, _, hchain, rfl, rfl, hcached [] _ _ [] _ _ rfl hchain rfl⟩

end PassManager
end ShiftBarrier
