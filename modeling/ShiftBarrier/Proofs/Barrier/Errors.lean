import ShiftBarrier.Proofs.Barrier.Caching
import ShiftBarrier.Proofs.Barrier.Optimizing
import ShiftBarrier.Proofs.Defects

/-!
# Errors of the pass

The pass itself raises nothing: it goes through the blocks, and what stops it is a shift that cannot
be read, or a line that cannot be logged.  Nothing that it adds has a defect, so an error of a later
run is to be blamed on an instruction that was there from the start.

* `Barrier.blamed_of_runBarrier` says of what one run on a fresh cache comes to grief.
* `Barrier.Outcome.blamed` says that a run makes no defects.
* `Session.optimize_error` says what an optimisation may raise; `Session.optimize_undiagnosed` is
  one that raises what is neither diagnosed nor found by the validation.
-/

set_option autoImplicit false

namespace ShiftBarrier

/-! ## Going through a module

A run raises an error for the text of an instruction or for a missing operand, type or result, and
for nothing else. -/

namespace Barrier

variable {i : Instruction} {e : Error} {s s' : State}

/-- What stops a sweep is one of its steps. -/
theorem exists_of_sweep_stops {α : Type} {step : α → State → List α × Option Stop × State}
    {as out : List α} {stop : Stop} (h : sweep step as s = (out, some stop, s')) :
    ∃ a ∈ as, ∃ s₀ out₀ s₁, step a s₀ = (out₀, some stop, s₁) := by
  induction as generalizing s out with
  | nil => cases h
  | cons a as ih =>
    cases sweep_outcome h with
    | @stopped head _ _ hhead => exact ⟨a, List.mem_cons_self, s, head, s', hhead⟩
    | passed _ htail =>
      obtain ⟨b, hb, hstep⟩ := ih htail
      exact ⟨b, List.mem_cons_of_mem _ hb, hstep⟩

theorem blamed_of_candidate? {types : TypeTable} {constants : ConstantTable}
    (h : candidate? types constants i = .error e) : Blamed [i] e := by
  rw [candidate?, bind_eq_error_iff] at h
  obtain h | ⟨amount, hamount, h⟩ := h
  · rw [shiftAmount?] at h
    split at h
    · next hopcode =>
      have harity : Opcode.arity i.opcode = 2 := by rw [hopcode]; rfl
      split at h
      · cases h
      · next hnone =>
        cases h
        rw [List.getElem?_eq_none_iff] at hnone
        exact (Instruction.Defect.missingOperand (by omega)).blamed
    · cases h
  · split at h
    · split at h
      · split at h
        · split at h
          · cases h
          · next hmissing =>
            refine Instruction.blamed_of_text (fun text htext h => ?_) h
            cases h
            obtain ⟨hopcode, hoperand⟩ | ⟨-, ⟨⟩⟩ := shiftAmount?_cases hamount
            refine (Instruction.Defect.incomplete hopcode hoperand ?_ htext).blamed
            cases htype : i.type with
            | none => exact .inl rfl
            | some type =>
              cases hresult : i.result with
              | none => exact .inr rfl
              | some result => exact absurd hresult (hmissing type result htype)
        · cases h
      · cases h
    · cases h

/-- A report stops the run if the line cannot be written. -/
theorem Reported.overlong (h : Reported i (some (.raised e))) :
    e = .numeral .writing ∧ i.Overlong := by
  cases h with
  | unwritable htext =>
    obtain ⟨rfl, hlong⟩ := Instruction.text_eq_error htext
    exact ⟨rfl, hlong⟩

/-- So does the report of a failure, which would end the run anyway. -/
theorem Reported.overlong_of_getD {ended : Option Stop} (h : Reported i ended)
    (hstop : ended.getD .failed = .raised e) : e = .numeral .writing ∧ i.Overlong := by
  cases ended with
  | none => cases hstop
  | some stop =>
    cases hstop
    exact h.overlong

theorem overlong_of_guard {c : Candidate} {out : List Instruction}
    (h : guard c s = (out, some (.raised e), s')) : e = .numeral .writing ∧ c.shift.Overlong := by
  generalize hstop : some (Stop.raised e) = stop at h
  cases guard_outcome h with
  | put _ _ _ _ hreport =>
    subst hstop
    exact hreport.overlong
  | noId _ _ _ hreport => exact hreport.overlong_of_getD (Option.some.inj hstop).symm
  | noZero _ _ hreport => exact hreport.overlong_of_getD (Option.some.inj hstop).symm

theorem blamed_of_onInstruction {out : List Instruction}
    (h : onInstruction i s = (out, some (.raised e), s')) : Blamed [i] e := by
  generalize hstop : some (Stop.raised e) = stop at h
  cases onInstruction_outcome h with
  | raised hfound =>
    cases hstop
    exact blamed_of_candidate? hfound
  | passed => cases hstop
  | candidate hfound hguard =>
    subst hstop
    obtain ⟨rfl, hlong⟩ := overlong_of_guard hguard
    obtain ⟨⟨⟩, -⟩ | ⟨c, ⟨⟩, -, rfl, -⟩ := candidate?_cases hfound
    exact (Instruction.Defect.overlong hlong).blamed

/-- **A run is stopped by an error only for a defect of an instruction in a block.** -/
theorem blamed_of_run {r : Registry} (h : run r = (some (.raised e), s)) :
    Blamed (bodies r.target) e := by
  obtain ⟨fs, s', hsweep, -⟩ := run_eq h
  obtain ⟨f, hf, s₁, fs', s₂, hfunction⟩ := exists_of_sweep_stops hsweep
  obtain ⟨bs, hblocks, -⟩ := onFunction_eq hfunction
  obtain ⟨b, hb, s₃, bs', s₄, hblock⟩ := exists_of_sweep_stops hblocks
  obtain ⟨is, hinstructions, -⟩ := onBlock_eq hblock
  obtain ⟨i, hi, s₅, is', s₆, hinstruction⟩ := exists_of_sweep_stops hinstructions
  have hmem : i ∈ bodies r.target := List.mem_flatMap.2 ⟨b, List.mem_flatMap.2 ⟨f, hf, hb⟩, hi⟩
  exact (blamed_of_onInstruction hinstruction).mono (List.cons_subset.2 ⟨hmem, List.nil_subset _⟩)

end Barrier

/-! ## Runs of the pass -/

namespace Cache

variable {m : Module} {c c' : Cache} {e : Error}

theorem analyze_of_requestTypes (h : c.requestTypes m = (.error e, c')) :
    (TypeTable.analyze m).1 = .error e := by
  have hrequested : Requested m c .types (.error e) c' := requested (request_of_requestTypes h)
  cases hrequested
  assumption

theorem Fresh.blamed_of_requestConstants (hc : c.Fresh m)
    (hok : (TypeTable.analyze m).1 = .ok ()) (h : c.requestConstants m = (.error e, c')) :
    Blamed m.instructions e := by
  have hrequested : Requested m c .constants (.error e) c' :=
    requested (request_of_requestConstants h)
  cases hrequested with
  | constants _ htypes herror =>
    obtain rfl := hc.types_eq (mem_of_types? htypes)
    exact m.blamed_of_constants herror
  | noTypes _ _ herror => cases hok.symm.trans herror
  | both _ _ _ herror => exact m.blamed_of_constants herror

end Cache

namespace Barrier

variable {m m' : Module} {s s' : Session} {run : PassRun} {e : Error}

theorem blamed_of_barrierOn {types : TypeTable} {constants : ConstantTable}
    (hrun : Pass.barrierOn types constants s = (run, s')) (herror : run.result = .error e) :
    Blamed s.target.instructions e := by
  obtain ⟨stop, done, log, hbarrier, hended, -⟩ := barrierOn_eq hrun
  rw [herror] at hended
  cases hended
  exact (blamed_of_run hbarrier).mono (bodies_sublist s.target).subset

/-- **On a fresh cache the pass raises an error only for a defect of the module.** -/
theorem blamed_of_runBarrier (hcache : s.cache.Fresh s.target)
    (hrun : Pass.runBarrier s = (run, s')) (herror : run.result = .error e) :
    Blamed s.target.instructions e := by
  cases passOutcome hrun with
  | noTypes htypes =>
    cases herror
    exact s.target.blamed_of_types (Cache.analyze_of_requestTypes htypes)
  | noConstants htypes hconstants =>
    cases herror
    obtain ⟨⟨hok, -⟩, hfresh⟩ := hcache.requestTypes htypes
    exact hfresh.blamed_of_requestConstants hok hconstants
  | pending htypes hconstants =>
    obtain ⟨-, hfresh⟩ := hcache.requestTypes htypes
    obtain ⟨⟨r, -, ⟨⟩⟩, -⟩ := hfresh.requestConstants hconstants
  | @tables _ _ _ c _ _ _ _ hon =>
    exact @blamed_of_barrierOn { s with cache := c } _ _ _ _ _ hon herror

/-! ## What a run adds

The next run sees the guards and zeros of this one.  They have no defects, so the blame stays with
the instructions that were read. -/

theorem IsZeroOf.arity_le {types : TypeTable} {constants : ConstantTable} {type : Ty} {c : Constant}
    (h : IsZeroOf types constants type c) :
    Opcode.arity c.declaration.1 ≤ c.declaration.2.length := by
  cases h with
  | scalar => exact Nat.le_refl 1
  | vector => exact Nat.zero_le _

theorem IsZeroOf.eq_zero_of_mem {types : TypeTable} {constants : ConstantTable} {type : Ty}
    {c : Constant} (h : IsZeroOf types constants type c) {n : Int} {spelling : Option String}
    (hmem : .literal (.int n) spelling ∈ c.declaration.2) : n = 0 := by
  cases h with
  | scalar =>
    cases List.mem_singleton.1 hmem
    rfl
  | vector => obtain ⟨id, -, ⟨⟩⟩ := List.mem_map.1 hmem

/-- Only these declarations, and left shifts, can have a defect of their own; any other instruction
has none if it has its result and its operands. -/
theorem Instruction.not_defect {i : Instruction} (hresult : i.result.isSome = true)
    (harity : Opcode.arity i.opcode ≤ i.operands.length)
    (hopcode : i.opcode ∉ ["OpTypeInt", "OpTypeVector", "OpShiftLeftLogical"])
    (hwritten : ¬ i.Overlong) : ¬ i.Defect e := by
  intro h
  simp only [List.mem_cons, List.not_mem_nil, or_false, not_or] at hopcode
  obtain ⟨hint, hvector, hshift⟩ := hopcode
  cases h with
  | missingOperand h => exact absurd h (Nat.not_lt.2 harity)
  | missingResult h hnone => rw [hnone] at hresult; cases hresult
  | width heq => exact hint heq
  | count heq => exact hvector heq
  | wide heq => exact hint heq
  | incomplete heq => exact hshift heq
  | overlong h => exact hwritten h

/-- An instruction whose only integer is zero can be written. -/
theorem Instruction.not_overlong {i : Instruction}
    (h : ∀ n spelling, .literal (.int n) spelling ∈ i.operands → n = 0) : ¬ i.Overlong := by
  rintro ⟨n, spelling, hmem, hlong⟩
  rw [h n spelling hmem, Int.natAbs_zero] at hlong
  exact absurd hlong (Nat.not_le.2 (Nat.pow_pos (by decide)))

namespace Outcome

variable {es : List Event} {status : PassStatus} {count : GuardCount}

/-- What is added has no defects. -/
theorem not_defect_inserted (h : Outcome m es status count m') {event : Event}
    (hevent : event ∈ es) : ¬ event.inserted.Defect e := by
  cases event with
  | guarded g =>
    obtain ⟨hresult, -⟩ := h.guard_of_mem (mem_guards.2 hevent)
    refine Instruction.not_defect hresult (Nat.zero_le _) ?_ (Instruction.not_overlong ?_)
    · show "OpBitFieldInsert" ∉ _
      decide
    · rintro n spelling hmem
      simp [Event.inserted, Guard.insertion] at hmem
  | declared d =>
    obtain ⟨⟨type, hzero⟩, -⟩ := h.zero_of_mem (mem_declarations.2 hevent)
    refine Instruction.not_defect rfl hzero.arity_le ?_
      (Instruction.not_overlong fun n spelling hmem => hzero.eq_zero_of_mem hmem)
    show d.constant.declaration.1 ∉ _
    rcases hzero.opcode_cases with heq | heq <;> rw [heq] <;> decide

/-- What is wrong with a shift that was renamed was wrong with it before. -/
theorem defect_of_renamedBy (h : Outcome m es status count m') {i : Instruction}
    (hdefect : (renamedBy (guards es) i).Defect e) : i.Defect e := by
  rcases renamedBy_cases (guards es) i with ⟨-, heq⟩ | ⟨g, hg, rfl, heq⟩
  · exact heq ▸ hdefect
  · rw [heq] at hdefect
    obtain ⟨hresult, type, -, -, htype, -⟩ := h.guard_of_mem hg
    cases hdefect with
    | missingOperand h => exact .missingOperand h
    | missingResult _ hnone => cases hnone
    | width hopcode hwidth hle => exact .width hopcode hwidth hle
    | count hopcode hcount hlt => exact .count hopcode hcount hlt
    | wide hopcode hwidth hgt => exact .wide hopcode hwidth hgt
    | incomplete _ _ hmissing _ =>
      rcases hmissing with hnone | hnone
      · cases htype.symm.trans hnone
      · cases hnone
    | overlong h => exact .overlong h

/-- **A run makes no defects.** -/
theorem blamed (hm : m.WellFormed) (h : Outcome m es status count m')
    (hblamed : Blamed m'.instructions e) : Blamed m.instructions e := by
  cases hblamed with
  | diagnosed fault => exact .diagnosed fault
  | defect hi hdefect =>
    rcases List.mem_append.1 ((h.perm_instructions hm).mem_iff.1 hi) with hi | hi
    · obtain ⟨j, hj, rfl⟩ := List.mem_map.1 hi
      exact .defect hj (h.defect_of_renamedBy hdefect)
    · obtain ⟨event, hevent, rfl⟩ := List.mem_map.1 hi
      exact absurd hdefect (h.not_defect_inserted hevent)

end Outcome

/-! ## Any number of runs -/

/-- A session on which passes have succeeded so far, all of whose defects are those of `m`. -/
structure Traced (m : Module) (s : Session) : Prop where
  wellFormed : s.target.WellFormed
  fresh : s.cache.Fresh s.target
  blamed : ∀ e, Blamed s.target.instructions e → Blamed m.instructions e

theorem keeps_traced (m : Module) : Keeps (Traced m) Pass.barrier where
  unchanged {s s' run} h hrun hresult := by
    obtain ⟨htarget, hfresh⟩ := fresh_of_runBarrier_unchanged h.fresh hrun hresult
    exact ⟨htarget ▸ h.wellFormed, hfresh, fun e hblamed => h.blamed e (htarget ▸ hblamed)⟩
  changed {s s' run} h hrun hresult := by
    obtain ⟨r, c, -, -, hon⟩ := runBarrier_fresh h.fresh hrun hresult
    obtain ⟨es, count, houtcome, -⟩ := barrierOn_outcome h.wellFormed hon hresult
    refine ⟨houtcome.wellFormed h.wellFormed, ?_,
      fun e hblamed => h.blamed e (houtcome.blamed h.wellFormed hblamed)⟩
    show (s'.cache.invalidateExcept []).Fresh s'.target
    rw [Cache.invalidateExcept_nil]
    exact List.forall_mem_nil _

/-- An error of passes that are run in order is one of a single pass. -/
theorem exists_of_runResolved_error {P : Session → Prop} {ps : List Pass}
    (h : ∀ p ∈ ps, Keeps P p) (hs : P s) {start : PassStatus} {runs : List PassRun}
    (hrun : Pass.runResolved start ps s = ((.error e, runs), s')) :
    ∃ p ∈ ps, ∃ s₀ run s₁, P s₀ ∧ p.run s₀ = (run, s₁) ∧ run.result = .error e := by
  obtain ⟨runs', s'', hchain⟩ | ⟨before, p, after, earlier, s₀, last, s'', rfl, hchain, hlast,
    hfails⟩ := Pass.chain_or_fails ps s
  · cases (hchain.runResolved_eq start).symm.trans hrun
  · have hs₀ := keeps_chain (fun p hp => h p (List.mem_append_left _ hp)) hs hchain
    rw [hchain.runResolved_append, Pass.runResolved_of_fails hlast hfails] at hrun
    exact ⟨p, List.mem_append_right _ List.mem_cons_self, s₀, last, s'', hs₀, hlast,
      congrArg (·.1.1) hrun⟩

end Barrier

namespace Session

open Barrier

variable {settings : Settings} {source : String} {m : Module} {names : List String} {log : Log}
  {s' : Session} {e : Error}

theorem resolve_of_named (hnames : ∀ name ∈ names, ∃ p, Pass.named name = .ok p) :
    ∀ choice ∈ names.map Pass.Choice.name, choice.resolve = .ok Pass.barrier := by
  intro choice hchoice
  obtain ⟨name, hname, rfl⟩ := List.mem_map.1 hchoice
  obtain ⟨p, hp⟩ := hnames name hname
  exact hp.trans (congrArg _ (Pass.eq_barrier_of_named hp))

/-- **What an optimisation may raise.**  It is diagnosed, or found by the validation, or there is an
instruction that has that very defect. -/
theorem optimize_error (hparse : Assembly.parse settings source = .ok m)
    (hnames : ∀ name ∈ names, ∃ p, Pass.named name = .ok p)
    (hrun : (optimize names).run.run { target := m, log } = (.error e, s')) :
    (∃ fault, e = .moduleFault fault) ∨
      (settings.validate = true ∧ e = .findings (Validation.findings s'.target)) ∨
      ∃ i ∈ m.instructions, i.Defect e := by
  have hsettings : m.settings = settings := (legible_of_parse hparse log).settings
  have hstart : Traced m { target := m, log } :=
    ⟨Assembly.wellFormed_of_parse hparse, List.forall_mem_nil _, fun _ h => h⟩
  rw [optimize_run, Prod.mk.injEq, bind_eq_error_iff] at hrun
  obtain ⟨hpasses | ⟨status, -, hvalidated⟩, rfl⟩ := hrun
  · rw [runAll_of_barriers (resolve_of_named hnames)] at hpasses
    have hkeeps : ∀ p ∈ List.replicate (names.map Pass.Choice.name).length Pass.barrier,
        Keeps (Traced m) p := fun p hp => List.eq_of_mem_replicate hp ▸ keeps_traced m
    rcases hresolved : Pass.runResolved .unchanged
      (List.replicate (names.map Pass.Choice.name).length Pass.barrier)
      { target := m, log } with ⟨⟨result, runs⟩, last⟩
    rw [hresolved] at hpasses
    cases hpasses
    obtain ⟨p, hp, s₀, run, s₁, hs₀, hone, herror⟩ :=
      exists_of_runResolved_error hkeeps hstart hresolved
    obtain rfl := List.eq_of_mem_replicate hp
    cases hs₀.blamed e (blamed_of_runBarrier hs₀.fresh hone herror) with
    | diagnosed fault => exact .inl ⟨fault, rfl⟩
    | defect hi hdefect => exact .inr (.inr ⟨_, hi, hdefect⟩)
  · split at hvalidated
    · next hwanted =>
      rw [map_eq_error_iff, Validation.check] at hvalidated
      split at hvalidated
      · cases hvalidated
      · cases hvalidated
        exact .inr (.inl ⟨hsettings ▸ hwanted.2, rfl⟩)
    · cases hvalidated

/-! ### An example -/

/-- A type without its signedness. -/
def unsignedText : String := "%1 = OpTypeInt 32\n"

/-- The module of that text. -/
def unsigned : Module :=
  { globals :=
      [{ opcode := "OpTypeInt", result := some ⟨1, none⟩, operands := [.literal (.int 32) none] }]
    bound := 2
    nextSerial := 1 }

theorem parse_unsigned : Assembly.parse {} unsignedText = .ok unsigned :=
  toOption_eq_some_iff.1 (by decide +kernel)

theorem named_barrierName : ∀ name ∈ [Pass.barrierName], ∃ p, Pass.named name = .ok p :=
  List.forall_mem_singleton.2 ⟨Pass.barrier, rfl⟩

/-- What is raised comes of a defect. -/
theorem optimize_error_sample :
    Assembly.parse {} unsignedText = .ok unsigned ∧
      (∀ name ∈ [Pass.barrierName], ∃ p, Pass.named name = .ok p) ∧
      ∃ s', (optimize [Pass.barrierName]).run.run { target := unsigned, log := [] }
          = (.error .outOfRange, s') ∧ ∃ i ∈ unsigned.instructions, i.Defect .outOfRange := by
  obtain ⟨s', hrun⟩ : ∃ s', (optimize [Pass.barrierName]).run.run { target := unsigned, log := [] }
      = (.error .outOfRange, s') := ⟨_, rfl⟩
  obtain ⟨fault, ⟨⟩⟩ | ⟨-, ⟨⟩⟩ | hdefect := optimize_error parse_unsigned named_barrierName hrun
  exact ⟨parse_unsigned, named_barrierName, s', hrun, hdefect⟩

/-- **Not all that is raised is diagnosed or found by the validation.** -/
theorem optimize_undiagnosed :
    ¬ ∀ (settings : Settings) (source : String) (m : Module) (names : List String) (log : Log)
      (e : Error) (s' : Session), Assembly.parse settings source = .ok m →
      (∀ name ∈ names, ∃ p, Pass.named name = .ok p) →
      (optimize names).run.run { target := m, log } = (.error e, s') →
      e.diagnostic?.isSome = true ∨
        (settings.validate = true ∧ e = .findings (Validation.findings s'.target)) := by
  intro h
  obtain ⟨⟨⟩⟩ | ⟨-, ⟨⟩⟩ := h {} unsignedText unsigned [Pass.barrierName] [] .outOfRange _
    parse_unsigned named_barrierName rfl

end Session
end ShiftBarrier
