import ShiftBarrier.CommandLine
import ShiftBarrier.Proofs.Barrier.Optimizing

/-!
# What the program lets out

The program writes a listing at its very end or not at all.  Whatever goes wrong before that, be it
the input, its text, an analysis, a pass or the validation, leaves standard output and the output
file alone.

* `Request.finish_cases` says when there is a listing to write.
* `Result.Wrote` and `Result.WroteNothing` are the two ways in which an invocation may end.
* `run_gate` puts this together: a listing that is written after a validation is that of a valid
  module, and nothing is written if the program exits with 1.
-/

set_option autoImplicit false

namespace ShiftBarrier
namespace CommandLine

/-- Neither standard output nor a file was written. -/
structure Result.WroteNothing (r : Result) : Prop where
  stdout : r.stdout = ""
  written : r.written = none

/-- The text was written where it was asked for, and nothing else was. -/
inductive Result.Wrote (r : Result) (text : String) : Given String → Prop
  | stdout (hstdout : r.stdout = text) (hwritten : r.written = none) : Wrote r text .absent
  | file {name : String} (hstdout : r.stdout = "") (hwritten : r.written = some (name, text)) :
      Wrote r text (.value name)

/-! ## Reading the arguments

Whatever the arguments are, the run is declined, or it is one with checked settings. -/

/-- The arguments ask for no run.  That may be a mistake, but none that exit code 1 stands for. -/
structure Outcome.Declined (o : Outcome) : Prop where
  emission : o.emission = none
  ending : o.ending ≠ .exit 1

namespace Request

variable {arguments : List String} {fallback : Nat} {request : Request} {o : Outcome}

/-- The settings of a request were checked, and ask for validation if the request does. -/
theorem settings_of_ofArguments (h : ofArguments arguments fallback = .ok request) :
    (fallback ≤ Settings.maxIdWord → request.settings.maxIdBound ≤ Settings.maxIdWord) ∧
      request.settings.validate = request.options.validate := by
  rw [ofArguments, bind_eq_ok_iff] at h
  obtain ⟨options, -, h⟩ := h
  rw [bind_eq_ok_iff] at h
  obtain ⟨level, -, h⟩ := h
  dsimp only at h
  split at h
  · next settings hsettings =>
    cases h
    refine ⟨fun hle => Settings.maxIdBound_le_of_ofValues hsettings hle, ?_⟩
    rw [Settings.ofValues, bind_eq_ok_iff] at hsettings
    obtain ⟨bound, -, hsettings⟩ := hsettings
    cases hoption : options.validate with
    | true =>
      rw [hoption] at hsettings
      cases hsettings
      rfl
    | false =>
      rw [hoption] at hsettings
      cases hsettings
      rfl
  · cases h

theorem declined_of_levelOf {level : Given String} (h : levelOf level = .error o) :
    o.Declined := by
  cases level with
  | absent => cases h
  | empty =>
    cases h
    exact ⟨rfl, nofun⟩
  | value name =>
    obtain ⟨e, -, rfl⟩ := mapError_eq_error_iff.1 h
    exact ⟨rfl, nofun⟩

theorem declined_of_ofArguments (h : ofArguments arguments fallback = .error o) : o.Declined := by
  rw [ofArguments, bind_eq_error_iff] at h
  rcases h with h | ⟨options, -, h⟩
  · obtain ⟨exit, -, rfl⟩ := mapError_eq_error_iff.1 h
    cases exit <;> exact ⟨rfl, nofun⟩
  · rw [bind_eq_error_iff] at h
    rcases h with h | ⟨level, -, h⟩
    · exact declined_of_levelOf h
    · dsimp only at h
      split at h
      · cases h
      · cases h
        exact ⟨rfl, nofun⟩

end Request

/-! ## Answering a request

Of the ways to end, only one has a listing to write; all others end with an exit code that is not
zero, or with an error. -/

theorem ending_reportFindings (fs : List Finding) : (reportFindings fs).2 ≠ .exit 0 := by
  induction fs with
  | nil => nofun
  | cons f fs ih =>
    rw [reportFindings]
    split
    · nofun
    · exact ih

theorem ending_reportError (e : Error) : (reportError e).2 ≠ .exit 0 := by
  rw [reportError.eq_def]
  split
  · exact ending_reportFindings _
  · split <;> nofun

/-- An outcome that has nothing to be written and is no success. -/
structure Outcome.Stopped (o : Outcome) : Prop where
  stdout : o.stdout = ""
  emission : o.emission = none
  ending : o.ending ≠ .exit 0

/-- **There is a listing to write only if all went well**: the text was read, and the passes and the
validation succeeded. -/
theorem Request.finish_cases (request : Request) (input : Input) :
    (request.finish input).Stopped ∨ ∃ source m status s, input = .text source ∧
      Assembly.parse request.settings source = .ok m ∧
      (Session.optimize request.options.passes).run.run { target := m } = (.ok status, s) ∧
      status ≠ .failure ∧ request.finish input =
        { Outcome.listing request.options.output s.target with
          stderr := logText request.level s.log } := by
  cases input with
  | missing => exact .inl ⟨rfl, rfl, nofun⟩
  | unreadable name why => exact .inl ⟨rfl, rfl, nofun⟩
  | unnameable fault => exact .inl ⟨rfl, rfl, nofun⟩
  | text source =>
    rw [finish]
    rcases hresult : optimizeSource request.settings request.options.passes source with ⟨result, s⟩
    have hfailed : ∀ (e : Error) (logged : String),
        Outcome.Stopped { stderr := logged ++ (reportError e).1, ending := (reportError e).2 } :=
      fun e _ => ⟨rfl, rfl, ending_reportError e⟩
    rw [optimizeSource] at hresult
    cases hparse : Assembly.parse request.settings source with
    | error e =>
      rw [hparse] at hresult
      cases hresult
      exact .inl (hfailed e _)
    | ok m =>
      rw [hparse] at hresult
      rcases result with e | status
      · exact .inl (hfailed e _)
      · cases status with
        | failure => exact .inl ⟨rfl, rfl, nofun⟩
        | changed => exact .inr ⟨source, m, .changed, s, rfl, hparse, hresult, nofun, rfl⟩
        | unchanged => exact .inr ⟨source, m, .unchanged, s, rfl, hparse, hresult, nofun, rfl⟩

/-! ## Writing

Writing may still fail.  Then the program does not exit with 0. -/

theorem Outcome.Stopped.emit {o : Outcome} (h : o.Stopped) (files : Files) :
    (emit files o).WroteNothing ∧ (CommandLine.emit files o).ending = o.ending := by
  rw [CommandLine.emit, h.emission]
  exact ⟨⟨h.stdout, rfl⟩, rfl⟩

/-- A listing is written whole if the program succeeds, and never together with exit code 1. -/
theorem emit_listing (files : Files) (output : Given String) (m : Module) (stderr : String) :
    let r := emit files { Outcome.listing output m with stderr }
    r.ending ≠ .exit 1 ∧
      (r.ending = .exit 0 → ∃ text, m.text = .ok text ∧ r.Wrote text output) := by
  cases output with
  | absent =>
    rw [Outcome.listing]
    cases m.text with
    | error fault => exact ⟨nofun, nofun⟩
    | ok text => exact ⟨nofun, fun _ => ⟨text, rfl, .stdout rfl rfl⟩⟩
  | empty => exact ⟨nofun, nofun⟩
  | value name =>
    rw [Outcome.listing, emit]
    dsimp only
    cases files.obstacle name with
    | some fault => exact ⟨nofun, nofun⟩
    | none => cases m.text with
      | error fault => exact ⟨nofun, nofun⟩
      | ok text => exact ⟨nofun, fun _ => ⟨text, rfl, .file rfl rfl⟩⟩

/-- **What the program lets out.**  With exit code 1 it has written nothing.  If it was asked to
validate and succeeds, it has written a listing that is read back as a valid module. -/
theorem run_gate (files : Files) (stdin : Option String) (arguments : List String)
    (fallback : Nat) :
    ((run files stdin arguments fallback).ending = .exit 1 →
      (run files stdin arguments fallback).WroteNothing) ∧
    (fallback ≤ Settings.maxIdWord →
      ∀ request, Request.ofArguments arguments fallback = .ok request →
        request.options.validate = true → (run files stdin arguments fallback).ending = .exit 0 →
        ∃ text, (run files stdin arguments fallback).Wrote text request.options.output ∧
          ∀ settings, ∃ m, Assembly.parse settings text = .ok m ∧ Validation.findings m = []) := by
  cases harguments : Request.ofArguments arguments fallback with
  | error o =>
    obtain ⟨hemission, hending⟩ := Request.declined_of_ofArguments harguments
    have hrun : (run files stdin arguments fallback).ending = o.ending := by
      rw [run, harguments]
      dsimp only
      rw [emit, hemission]
    exact ⟨fun hfailure => absurd (hrun.symm.trans hfailure) hending,
      fun _ _ hrequest => absurd hrequest nofun⟩
  | ok request =>
    have hrun : run files stdin arguments fallback
        = emit files (request.finish (inputFor files stdin request.options)) := by
      rw [run, harguments]
    obtain ⟨hlimit, hvalidate⟩ := Request.settings_of_ofArguments harguments
    rw [hrun]
    rcases request.finish_cases (inputFor files stdin request.options) with hstopped |
      ⟨source, m, status, s, -, hparse, hoptimize, hstatus, hfinish⟩
    · obtain ⟨hnothing, hending⟩ := hstopped.emit files
      refine ⟨fun _ => hnothing, fun _ _ _ _ hsuccess => ?_⟩
      exact absurd (hending.symm.trans hsuccess) hstopped.ending
    · rw [hfinish]
      obtain ⟨hfailure, hsuccess⟩ := emit_listing files request.options.output s.target
        (logText request.level s.log)
      refine ⟨fun hending => absurd hending hfailure, ?_⟩
      rintro hfallback _ ⟨⟩ hrequest hending
      obtain ⟨text, htext, hwrote⟩ := hsuccess hending
      refine ⟨text, hwrote, fun settings => ?_⟩
      exact Session.exists_valid_reading (hlimit hfallback) (hvalidate.trans hrequest) hparse
        hoptimize hstatus htext settings

/-! ### An example -/

deriving instance DecidableEq for Ending, Request

/-- There is nothing to read, and everything can be written. -/
def noFiles : Files := { read := fun _ => .error .notFound, obstacle := fun _ => none }

/-- Arguments that ask for one run of the pass and for validation. -/
def guarding : List String := ["--mali-optimization-barrier", "--validate"]

/-- What these arguments ask for. -/
def guardingRequest : Request :=
  { options := { passes := [Pass.barrierName], validate := true }
    level := .warning
    settings := { validate? := some true } }

/-- A function that shifts three by three. -/
def shiftText : String :=
  "%1 = OpTypeInt 8 0\n%2 = OpConstant %1 3\n%3 = OpFunction %1\n%4 = OpLabel\n" ++
  "%5 = OpShiftLeftLogical %1 %2 %2\nOpKill\nOpFunctionEnd\n"

/-- Without input nothing is written; the function is written as a valid module. -/
theorem run_gate_sample :
    (run noFiles none guarding).ending = .exit 1 ∧ (run noFiles none guarding).WroteNothing ∧
      Request.ofArguments guarding = .ok guardingRequest ∧
      (run noFiles (some shiftText) guarding).ending = .exit 0 ∧
      ∃ text, (run noFiles (some shiftText) guarding).Wrote text .absent ∧
        ∀ settings, ∃ m, Assembly.parse settings text = .ok m ∧ Validation.findings m = [] := by
  have hrequest : Request.ofArguments guarding = .ok guardingRequest :=
    toOption_eq_some_iff.1 (by decide +kernel)
  have hrun : ∀ stdin, run noFiles stdin guarding
      = emit noFiles (guardingRequest.finish (inputFor noFiles stdin guardingRequest.options)) := by
    intro stdin
    rw [run, hrequest]
  have hfailure : (run noFiles none guarding).ending = .exit 1 := by
    rw [hrun]
    rfl
  have hsuccess : (run noFiles (some shiftText) guarding).ending = .exit 0 := by
    rw [hrun]
    decide +kernel
  have houtput : guardingRequest.options.output = .absent := rfl
  have hgate := (run_gate noFiles (some shiftText) guarding Settings.defaultMaxIdBound).2
    (by decide) guardingRequest hrequest rfl hsuccess
  rw [houtput] at hgate
  exact ⟨hfailure, (run_gate noFiles none guarding Settings.defaultMaxIdBound).1 hfailure, hrequest,
    hsuccess, hgate⟩

end CommandLine
end ShiftBarrier
