import ShiftBarrier.Pass

/-!
# Passes one after the other

A pass may do anything to a session, and may raise an error instead of a status.  A list of passes
is run up to the first one that does not succeed.

* `Pass.Chain` are passes that succeed one after the other.
* `Pass.Executed` is what is done of a list: all of it, or what comes before the first pass that
  does not succeed, and that pass.  `Pass.executed_iff` says that this is how lists are run.
* `Pass.Executed.result_iff` is what the result tells of the passes that were started.
-/

set_option autoImplicit false

namespace ShiftBarrier

/-- The status of a list of passes, after one more that succeeded. -/
def PassStatus.after (status : PassStatus) (run : PassRun) : PassStatus :=
  match run.result with
  | .ok .changed => .changed
  | _ => status

/-- The pass has ended, and not with a failure. -/
def PassRun.Succeeds (run : PassRun) : Prop :=
  run.result = .ok .unchanged ∨ run.result = .ok .changed

theorem PassRun.result_of_not_succeeds {run : PassRun} (h : ¬ run.Succeeds) :
    run.result = .ok .failure ∨ ∃ e, run.result = .error e := by
  rcases hresult : run.result with e | status
  · exact .inr ⟨e, rfl⟩
  · cases status with
    | failure => exact .inl rfl
    | changed => exact absurd (.inr hresult) h
    | unchanged => exact absurd (.inl hresult) h

namespace Pass

/-- The session that the next pass gets. -/
def settle (p : Pass) (run : PassRun) (s : Session) : Session :=
  match run.result with
  | .ok .changed => { s with cache := s.cache.invalidateExcept p.preserved }
  | _ => s

/-- Passes that succeed on a session one after the other, and the session that they lead to. -/
inductive Chain : List Pass → Session → List PassRun → Session → Prop
  | nil (s : Session) : Chain [] s [] s
  | cons {p : Pass} {ps : List Pass} {s s₁ s' : Session} {one : PassRun} {runs : List PassRun}
      (run : p.run s = (one, s₁)) (succeeds : one.Succeeds)
      (rest : Chain ps (p.settle one s₁) runs s') : Chain (p :: ps) s (one :: runs) s'

/-- What is done of a list of passes. -/
inductive Executed (passes : List Pass) (s : Session) :
    List PassRun → Except Error PassStatus → Session → Prop
  | completed {runs : List PassRun} {s' : Session} (chain : Chain passes s runs s') :
      Executed passes s runs (.ok (runs.foldl PassStatus.after .unchanged)) s'
  | stopped {before after : List Pass} {p : Pass} {earlier : List PassRun} {last : PassRun}
      {s₁ s' : Session} (split : passes = before ++ p :: after) (chain : Chain before s earlier s₁)
      (run : p.run s₁ = (last, s')) (fails : ¬ last.Succeeds) :
      Executed passes s (earlier ++ [last]) last.result s'

theorem settle_target (p : Pass) (run : PassRun) (s : Session) :
    (p.settle run s).target = s.target := by
  rw [settle]
  split <;> rfl

theorem settle_log (p : Pass) (run : PassRun) (s : Session) : (p.settle run s).log = s.log := by
  rw [settle]
  split <;> rfl

variable {p : Pass} {ps : List Pass} {s s₁ s' : Session} {one last : PassRun}
  {runs : List PassRun} {start : PassStatus} {result : Except Error PassStatus}

/-! ## Chains -/

/-- One pass of the list has changed something, or none has. -/
theorem foldl_after_cases (runs : List PassRun) :
    ((∃ run ∈ runs, run.result = .ok .changed) ∧
      ∀ start, runs.foldl PassStatus.after start = .changed) ∨
    ((∀ run ∈ runs, run.result ≠ .ok .changed) ∧
      ∀ start, runs.foldl PassStatus.after start = start) := by
  induction runs with
  | nil => exact .inr ⟨List.forall_mem_nil _, fun _ => rfl⟩
  | cons run runs ih =>
    rcases ih with ⟨hchanged, hstatus⟩ | ⟨hnone, hstatus⟩
    · refine .inl ⟨?_, fun start => hstatus _⟩
      obtain ⟨again, hmem, hagain⟩ := hchanged
      exact ⟨again, List.mem_cons_of_mem _ hmem, hagain⟩
    · by_cases hrun : run.result = .ok .changed
      · refine .inl ⟨⟨run, List.mem_cons_self, hrun⟩, fun start => ?_⟩
        rw [List.foldl_cons, hstatus, PassStatus.after, hrun]
      · refine .inr ⟨List.forall_mem_cons.2 ⟨hrun, hnone⟩, fun start => ?_⟩
        rw [List.foldl_cons, hstatus, PassStatus.after]
        split
        · next hresult => exact absurd hresult hrun
        · rfl

/-- Passes that succeed have not failed. -/
theorem foldl_after_ne_failure (hstart : start ≠ .failure) (runs : List PassRun) :
    runs.foldl PassStatus.after start ≠ .failure := by
  rcases foldl_after_cases runs with ⟨-, hstatus⟩ | ⟨-, hstatus⟩
  · rw [hstatus]
    exact nofun
  · rw [hstatus]
    exact hstart

namespace Chain

theorem length_eq (h : Chain ps s runs s') : runs.length = ps.length := by
  induction h with
  | nil => rfl
  | cons _ _ _ ih => exact congrArg (· + 1) ih

theorem succeeds (h : Chain ps s runs s') : ∀ run ∈ runs, run.Succeeds := by
  induction h with
  | nil => exact List.forall_mem_nil _
  | cons _ hone _ ih => exact List.forall_mem_cons.2 ⟨hone, ih⟩

end Chain

/-! ## Running a list

The list is run one pass after the other.  `Executed` says which of them were started, and with what
the last one ended. -/

/-- After a pass that succeeds the others are run. -/
theorem runResolved_of_succeeds (hrun : p.run s = (one, s₁)) (hone : one.Succeeds)
    (hrest : runResolved (start.after one) ps (p.settle one s₁) = ((result, runs), s')) :
    runResolved start (p :: ps) s = ((result, one :: runs), s') := by
  rw [PassStatus.after, settle] at hrest
  rw [runResolved, hrun]
  dsimp only
  rcases hone with hone | hone
  · rw [hone] at hrest ⊢
    dsimp only at hrest ⊢
    rw [hrest]
  · rw [hone] at hrest ⊢
    dsimp only at hrest ⊢
    rw [hrest]

/-- A pass that fails or raises an error ends it all. -/
theorem runResolved_of_fails (hrun : p.run s = (last, s₁)) (hlast : ¬ last.Succeeds) :
    runResolved start (p :: ps) s = ((last.result, [last]), s₁) := by
  rw [runResolved, hrun]
  dsimp only
  split
  · next e hresult => rw [hresult]
  · next hresult => rw [hresult]
  · next hresult => exact absurd (.inl hresult) hlast
  · next hresult => exact absurd (.inr hresult) hlast

/-- Passes that succeed leave the others to be run. -/
theorem Chain.runResolved_append (h : Chain ps s runs s₁) (start : PassStatus) (qs : List Pass) :
    runResolved start (ps ++ qs) s =
      (((runResolved (runs.foldl PassStatus.after start) qs s₁).1.1,
        runs ++ (runResolved (runs.foldl PassStatus.after start) qs s₁).1.2),
        (runResolved (runs.foldl PassStatus.after start) qs s₁).2) := by
  induction h generalizing start with
  | nil => rfl
  | cons hrun hone _ ih => exact runResolved_of_succeeds hrun hone (ih _)

theorem Chain.runResolved_eq (h : Chain ps s runs s') (start : PassStatus) :
    runResolved start ps s = ((.ok (runs.foldl PassStatus.after start), runs), s') := by
  have hall := h.runResolved_append start []
  rw [List.append_nil, runResolved, List.append_nil] at hall
  exact hall

/-- All passes succeed, or there is a first one that does not. -/
theorem chain_or_fails (ps : List Pass) (s : Session) :
    (∃ runs s', Chain ps s runs s') ∨ ∃ before p after earlier s₁ last s',
      ps = before ++ p :: after ∧ Chain before s earlier s₁ ∧ p.run s₁ = (last, s') ∧
      ¬ last.Succeeds := by
  induction ps generalizing s with
  | nil => exact .inl ⟨[], s, .nil s⟩
  | cons p ps ih =>
    rcases hrun : p.run s with ⟨one, s₁⟩
    by_cases hone : one.Succeeds
    · rcases ih (p.settle one s₁) with ⟨runs, s', hchain⟩ | ⟨before, q, after, earlier, s₂, last,
        s', rfl, hchain, hlast, hfails⟩
      · exact .inl ⟨one :: runs, s', .cons hrun hone hchain⟩
      · exact .inr ⟨p :: before, q, after, one :: earlier, s₂, last, s', rfl,
          .cons hrun hone hchain, hlast, hfails⟩
    · exact .inr ⟨[], p, ps, [], s, one, s₁, rfl, .nil s, hrun, hone⟩

/-- **A list of passes is executed**, and there is only one way to do so. -/
theorem executed_iff :
    Executed ps s runs result s' ↔ runResolved .unchanged ps s = ((result, runs), s') := by
  have hsound : ∀ {runs result s'}, Executed ps s runs result s' →
      runResolved .unchanged ps s = ((result, runs), s') := by
    intro runs result s' h
    cases h with
    | completed hchain => exact hchain.runResolved_eq .unchanged
    | stopped hsplit hchain hrun hfails =>
      rw [hsplit, hchain.runResolved_append, runResolved_of_fails hrun hfails]
  refine ⟨hsound, fun h => ?_⟩
  obtain ⟨runs', result', s'', hexecuted⟩ :
      ∃ runs' result' s'', Executed ps s runs' result' s'' := by
    rcases chain_or_fails ps s with ⟨runs, s', hchain⟩ | ⟨before, p, after, earlier, s₁, last, s',
      hsplit, hchain, hrun, hfails⟩
    · exact ⟨_, _, _, .completed hchain⟩
    · exact ⟨_, _, _, .stopped hsplit hchain hrun hfails⟩
  have heq := (hsound hexecuted).symm.trans h
  cases heq
  exact hexecuted

/-- **What a list comes to.**  It fails if a pass failed, and has changed something if a pass has
and none failed; an error is that of the pass which raised it. -/
theorem Executed.result_iff (h : Executed ps s runs result s') :
    (result = .ok .failure ↔ ∃ run ∈ runs, run.result = .ok .failure) ∧
    (result = .ok .changed ↔
      (∀ run ∈ runs, run.Succeeds) ∧ ∃ run ∈ runs, run.result = .ok .changed) ∧
    (result = .ok .unchanged ↔ ∀ run ∈ runs, run.result = .ok .unchanged) ∧
    ∀ e, result = .error e ↔ ∃ run ∈ runs, run.result = .error e := by
  have hfailure : ∀ {run : PassRun}, run.result = .ok .failure → ¬ run.Succeeds := by
    rintro run hresult (hrun | hrun) <;> cases hresult.symm.trans hrun
  have herror : ∀ {run : PassRun} {e : Error}, run.result = .error e → ¬ run.Succeeds := by
    rintro run e hresult (hrun | hrun) <;> cases hresult.symm.trans hrun
  cases h with
  | completed hchain =>
    have hall := hchain.succeeds
    have hfailures : ¬ ∃ run ∈ runs, run.result = .ok .failure :=
      fun ⟨run, hrun, hresult⟩ => hfailure hresult (hall run hrun)
    have herrors : ∀ e, ¬ ∃ run ∈ runs, run.result = .error e :=
      fun e ⟨run, hrun, hresult⟩ => herror hresult (hall run hrun)
    rcases foldl_after_cases runs with ⟨hchanged, hstatus⟩ | ⟨hnone, hstatus⟩
    · rw [hstatus]
      refine ⟨iff_of_false nofun hfailures, iff_of_true rfl ⟨hall, hchanged⟩,
        iff_of_false nofun fun hunchanged => ?_, fun e => iff_of_false nofun (herrors e)⟩
      obtain ⟨run, hrun, hresult⟩ := hchanged
      cases (hunchanged run hrun).symm.trans hresult
    · rw [hstatus]
      refine ⟨iff_of_false nofun hfailures, iff_of_false nofun ?_, iff_of_true rfl ?_,
        fun e => iff_of_false nofun (herrors e)⟩
      · exact fun ⟨_, run, hrun, hresult⟩ => hnone run hrun hresult
      · exact fun run hrun => (hall run hrun).resolve_right (hnone run hrun)
  | @stopped _ _ _ earlier last _ _ _ hchain _ hlast =>
    have hmem : last ∈ earlier ++ [last] := List.mem_append_right _ List.mem_cons_self
    -- no pass before the last one has such a result
    have honly : ∀ {result : Except Error PassStatus},
        (∀ run : PassRun, run.result = result → ¬ run.Succeeds) →
        (last.result = result ↔ ∃ run ∈ earlier ++ [last], run.result = result) := by
      intro result hresult
      refine ⟨fun h => ⟨last, hmem, h⟩, fun ⟨run, hrun, h⟩ => ?_⟩
      rcases List.mem_append.1 hrun with hrun | hrun
      · exact absurd (hchain.succeeds run hrun) (hresult run h)
      · exact List.mem_singleton.1 hrun ▸ h
    refine ⟨honly fun _ => hfailure, iff_of_false ?_ ?_, iff_of_false ?_ ?_,
      fun e => honly fun _ => herror⟩
    · exact fun h => hlast (.inr h)
    · exact fun ⟨hall, _⟩ => hlast (hall last hmem)
    · exact fun h => hlast (.inl h)
    · exact fun hall => hlast (.inl (hall last hmem))

end Pass
end ShiftBarrier
