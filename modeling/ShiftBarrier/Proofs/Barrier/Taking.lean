import ShiftBarrier.Proofs.Barrier.Run
import ShiftBarrier.Proofs.Declaring

/-!
# Ids that a run takes

A run of the pass rewrites the blocks while it goes through them.  Each instruction it comes to is
seen between those that were rewritten and those that were not, which do not matter.

* `Frame` says that a list of functions has a hole, in which instructions, blocks or functions may
  stand.
* `Tracks` says of a step that what it does in a hole is a run of changes of the module;
  `Tracks.sweep` says so of a sweep.
* `run_acts` is about a run on any tables whose ids are in use.
-/

set_option autoImplicit false

namespace ShiftBarrier
namespace Barrier

open ShiftBarrier.Module

/-! ## Holes

A sweep changes a module at one place at a time.  A hole is the module with that place left open. -/

/-- What is put into the hole adds its instructions and its labels to those around it. -/
def Frame {α : Type} (body : α → List Instruction) (labels : α → List Id)
    (plug : List α → List Function) : Prop :=
  ∃ before after first last, ∀ as,
    (plug as).flatMap Function.instructions = before ++ as.flatMap body ++ after ∧
      (plug as).flatMap Function.labels = first ++ as.flatMap labels ++ last

namespace Frame

theorem all : Frame Function.instructions Function.labels fun fs => fs :=
  ⟨[], [], [], [], fun fs => ⟨by simp, by simp⟩⟩

section

variable {α : Type} {body : α → List Instruction} {labels : α → List Id}
  {plug : List α → List Function}

theorem behind (h : Frame body labels plug) (done : List α) :
    Frame body labels fun as => plug (done ++ as) := by
  obtain ⟨before, after, first, last, hplug⟩ := h
  refine ⟨before ++ done.flatMap body, after, first ++ done.flatMap labels, last, fun as => ?_⟩
  obtain ⟨hinstructions, hlabels⟩ := hplug (done ++ as)
  rw [hinstructions, hlabels]
  simp

theorem ahead (h : Frame body labels plug) (rest : List α) :
    Frame body labels fun as => plug (as ++ rest) := by
  obtain ⟨before, after, first, last, hplug⟩ := h
  refine ⟨before, rest.flatMap body ++ after, first, rest.flatMap labels ++ last, fun as => ?_⟩
  obtain ⟨hinstructions, hlabels⟩ := hplug (as ++ rest)
  rw [hinstructions, hlabels]
  simp

end

theorem inFunction {plug : List Function → List Function}
    (h : Frame Function.instructions Function.labels plug) (f : Function) :
    Frame Block.instructions (fun b => [b.label]) fun blocks => plug [{ f with blocks }] := by
  obtain ⟨before, after, first, last, hplug⟩ := h
  refine ⟨before ++ f.definition :: f.params, after, first, last, fun blocks => ?_⟩
  obtain ⟨hinstructions, hlabels⟩ := hplug [{ f with blocks }]
  rw [hinstructions, hlabels]
  simp [Function.instructions, Function.labels, List.map_eq_flatMap]

theorem inBlock {plug : List Block → List Function}
    (h : Frame Block.instructions (fun b => [b.label]) plug) (b : Block) :
    Frame (fun i => [i]) (fun _ => []) fun instructions => plug [{ b with instructions }] := by
  obtain ⟨before, after, first, last, hplug⟩ := h
  refine ⟨before, after, first ++ [b.label], last, fun instructions => ?_⟩
  obtain ⟨hinstructions, hlabels⟩ := hplug [{ b with instructions }]
  rw [hinstructions, hlabels]
  simp

end Frame

/-! ## Steps in a hole -/

/-- What a step does in a hole is a run of changes, if all ids in use are below the bound. -/
def Tracks {α : Type} (body : α → List Instruction) (labels : α → List Id)
    (step : α → State → List α × Option Stop × State) : Prop :=
  ∀ {plug : List α → List Function} {a : α} {s s' : State} {out : List α} {stop : Option Stop},
    Frame body labels plug → (s.registry.target.withFunctions (plug [a])).WellFormed →
    s.registry.Anchored → step a s = (out, stop, s') →
    (∃ marks, Acts (s.registry.target.withFunctions (plug [a])) marks
      (s'.registry.target.withFunctions (plug out))) ∧ s'.registry.Anchored

theorem Tracks.sweep {α : Type} {body : α → List Instruction} {labels : α → List Id}
    {step : α → State → List α × Option Stop × State} (h : Tracks body labels step)
    {plug : List α → List Function} {as out : List α} {s s' : State} {stop : Option Stop}
    (hplug : Frame body labels plug)
    (hwell : (s.registry.target.withFunctions (plug as)).WellFormed) (hs : s.registry.Anchored)
    (hsweep : sweep step as s = (out, stop, s')) :
    (∃ marks, Acts (s.registry.target.withFunctions (plug as)) marks
      (s'.registry.target.withFunctions (plug out))) ∧ s'.registry.Anchored := by
  induction as generalizing plug s out with
  | nil =>
    cases hsweep
    exact ⟨⟨[], .refl _⟩, hs⟩
  | cons a as ih =>
    cases sweep_outcome hsweep with
    | stopped hhead => exact h (hplug.ahead as) hwell hs hhead
    | @passed head _ _ _ _ hhead htail =>
      obtain ⟨⟨marks, hacts⟩, hs₁⟩ := h (hplug.ahead as) hwell hs hhead
      obtain ⟨⟨marks', hacts'⟩, hs₂⟩ := ih (hplug.behind head) (hwell.acts hacts) hs₁ htail
      exact ⟨⟨_, hacts.trans hacts'⟩, hs₂⟩

/-- A shift in a hole, with its new result and the insert behind it. -/
theorem act_guard {plug : List Instruction → List Function} {c : Candidate} {m : Module} {zero : Id}
    (hplug : Frame (fun i => [i]) (fun _ => []) plug)
    (hwell : (m.withFunctions (plug [c.shift])).WellFormed) (htype : c.shift.type = some c.type)
    (hresult : c.shift.result = some c.result) (hzero : zero.Below m.bound)
    (hpos : 0 < m.bound) (hlt : m.bound < m.maxIdBound) :
    Act (m.withFunctions (plug [c.shift]))
      (.taken (m.withFunctions (plug [c.shift])) ⟨m.bound, none⟩)
      ((Barrier.taken m).withFunctions (plug [{ c.shift with result := some ⟨m.bound, none⟩ },
        { guardInstruction c ⟨m.bound, none⟩ zero with serial := m.nextSerial }])) := by
  obtain ⟨before, after, first, last, hplug⟩ := hplug
  have hold : (plug [c.shift]).flatMap Function.instructions = before ++ c.shift :: after := by
    rw [(hplug _).1]
    simp
  have hlabels : ∀ is, (plug is).flatMap Function.labels = first ++ last := fun is => by
    rw [(hplug is).2]
    simp
  have hshift : c.shift ∈ (m.withFunctions (plug [c.shift])).instructions := by
    refine List.mem_append_right _ ?_
    show c.shift ∈ (plug [c.shift]).flatMap Function.instructions
    rw [hold]
    exact List.mem_append_right _ List.mem_cons_self
  -- the ids of the insert are the type of the shift, its new result and the zero
  have htypeBelow : c.type.Below m.bound := by
    refine hwell.below c.shift hshift c.type (List.mem_append_right _ (List.mem_append_left _ ?_))
    rw [htype]
    exact List.mem_singleton_self _
  have htake : (m.withFunctions (plug [c.shift])).takeId
      = (⟨m.bound, none⟩, { m.withFunctions (plug [c.shift]) with bound := m.bound + 1 }) :=
    takeId_of_lt hlt
  have huses : ∀ id ∈ (guardInstruction c ⟨m.bound, none⟩ zero).uses, id.Below (m.bound + 1) := by
    have hzero' := hzero.mono (Nat.le_succ _)
    refine List.forall_mem_cons.2 ⟨htypeBelow.mono (Nat.le_succ _), List.forall_mem_cons.2
      ⟨Id.below_succ hpos, List.forall_mem_cons.2 ⟨hzero', List.forall_mem_cons.2 ⟨hzero', ?_⟩⟩⟩⟩
    exact List.forall_mem_singleton.2 hzero'
  have hnew : ∀ inserted, (plug [{ c.shift with result := some ⟨m.bound, none⟩ },
      inserted]).flatMap Function.instructions
        = before ++ { c.shift with
          result := some (m.withFunctions (plug [c.shift])).takeId.1 } :: inserted :: after := by
    intro inserted
    rw [htake, (hplug _).1]
    simp
  have hvalid' : (m.withFunctions (plug [c.shift])).takeId.1.isValid = true := by
    rw [htake]
    exact Id.isValid_of_pos hpos
  have hact := Act.guard hvalid' hold (hnew { guardInstruction c ⟨m.bound, none⟩ zero with
    serial := m.nextSerial }) ((hlabels _).trans (hlabels _).symm) hresult.symm rfl huses
  rw [htake] at hact
  exact hact

/-- A guard declares the zero that is missing, takes an id, and is put behind the shift. -/
theorem guard_acts {plug : List Instruction → List Function} {c : Candidate} {s s' : State}
    {out : List Instruction} {stop : Option Stop} (hplug : Frame (fun i => [i]) (fun _ => []) plug)
    (hwell : (s.registry.target.withFunctions (plug [c.shift])).WellFormed)
    (hs : s.registry.Anchored) (htype : c.shift.type = some c.type)
    (hresult : c.shift.result = some c.result) (h : guard c s = (out, stop, s')) :
    (∃ marks, Acts (s.registry.target.withFunctions (plug [c.shift])) marks
      (s'.registry.target.withFunctions (plug out))) ∧ s'.registry.Anchored := by
  cases guard_outcome h with
  | put hzero hvalid hpos hlt =>
    have hzero := Registry.zeroId_grows hs hzero
    obtain ⟨marks, hacts⟩ := (hzero.declares.withFunctions (plug [c.shift])).exists_acts
    have hact := act_guard hplug (hwell.acts hacts) htype hresult (hzero.id hvalid) hpos hlt
    exact ⟨⟨_, hacts.tail hact⟩, hzero.anchored.types.mono (Nat.le_succ _),
      hzero.anchored.constants.mono (Nat.le_succ _)⟩
  | noId hzero =>
    have hzero := Registry.zeroId_grows hs hzero
    exact ⟨(hzero.declares.withFunctions (plug [c.shift])).exists_acts, hzero.anchored.types,
      hzero.anchored.constants⟩
  | noZero hzero =>
    have hzero := Registry.zeroId_grows hs hzero
    exact ⟨(hzero.declares.withFunctions (plug [c.shift])).exists_acts, hzero.anchored.types,
      hzero.anchored.constants⟩

theorem tracks_onInstruction : Tracks (fun i => [i]) (fun _ => []) onInstruction := by
  intro plug i s s' out stop hplug hwell hs h
  cases onInstruction_outcome h with
  | raised => exact ⟨⟨[], .refl _⟩, hs⟩
  | passed => exact ⟨⟨[], .refl _⟩, hs⟩
  | candidate hfound hguard =>
    obtain ⟨⟨⟩, -⟩ | ⟨c, ⟨⟩, -, rfl, htype, hresult, -⟩ := candidate?_cases hfound
    exact guard_acts hplug hwell hs htype hresult hguard

theorem tracks_onBlock : Tracks Block.instructions (fun b => [b.label]) onBlock := by
  intro plug b s s' out stop hplug hwell hs h
  obtain ⟨is, hsweep, rfl⟩ := onBlock_eq h
  exact tracks_onInstruction.sweep (hplug.inBlock b) hwell hs hsweep

theorem tracks_onFunction : Tracks Function.instructions Function.labels onFunction := by
  intro plug f s s' out stop hplug hwell hs h
  obtain ⟨bs, hsweep, rfl⟩ := onFunction_eq h
  exact tracks_onBlock.sweep (hplug.inFunction f) hwell hs hsweep

/-- **What a run does is a run of changes**, whatever the tables are and however it ends. -/
theorem run_acts {r : Registry} {stop : Option Stop} {s : State} (hwell : r.target.WellFormed)
    (hr : r.Anchored) (h : run r = (stop, s)) :
    (∃ marks, Acts r.target marks s.registry.target) ∧ s.registry.Anchored := by
  obtain ⟨fs, s', hsweep, rfl⟩ := run_eq h
  have hwhole : (r.target.withFunctions r.target.functions).WellFormed := hwell
  obtain ⟨hacts, hs'⟩ := tracks_onFunction.sweep Frame.all hwhole hr hsweep
  exact ⟨hacts, hs'.types, hs'.constants⟩

end Barrier
end ShiftBarrier
