import ShiftBarrier.Proofs.Barrier.Guarding
import ShiftBarrier.Proofs.Barrier.Outcome

/-!
# A run of the barrier in steps

* `zeroId_steps` and `guard_steps` take the operations of the barrier apart into steps.
* `Swept` is what is known of a run through some instructions: the guarded ones are the first
  candidates among them, all of them unless the run stopped.
* `run_spec` says so of a whole run.
-/

set_option autoImplicit false

namespace ShiftBarrier
namespace Barrier

/-! ## Operations on registries

The zero of a type is a scalar, or a vector of one scalar: at most two declarations, in this
order. -/

section Registry

variable {r r' : Registry} {c : Constant} {id : Id}

/-- The declaration of a constant that is missing. -/
def nextDeclaration (r : Registry) (c : Constant) (type : Id) : Declaration :=
  ⟨⟨r.target.bound, none⟩, c, type, r.target.nextSerial⟩

/-- The registry after a declaration. -/
def declare (r : Registry) (d : Declaration) : Registry :=
  { r with
    target := { taken r.target with globals := r.target.globals ++ [d.instruction] }
    constants := r.constants.add d.id d.constant }

/-- A constant of a declared type is found, or declared under the next id, or neither. -/
theorem constantId_cases {typeId : Id} (hid : r.types.id? c.type = some typeId)
    (h : Registry.constantId c r = (id, r')) :
    (r.constants.id? c = some id ∧ r' = r) ∨
    (r.constants.id? c = none ∧ r.target.bound < r.target.maxIdBound ∧
      id = ⟨r.target.bound, none⟩ ∧ r' = declare r (nextDeclaration r c typeId)) ∨
    (r.constants.id? c = none ∧ id = Id.invalid ∧ (∃ log, r' = { r with log }) ∧
      (typeId.isValid = true → 0 < r.target.bound → r.target.maxIdBound ≤ r.target.bound)) := by
  cases Registry.constantId_outcome h with
  | found hfound => exact .inl ⟨hfound, rfl⟩
  | declared hmissing htype _ _ hlt =>
    cases (TypeRegistry.typeId_of_id? hid).symm.trans htype
    exact .inr (.inl ⟨hmissing, hlt, rfl, rfl⟩)
  | full hmissing htype hfull =>
    cases (TypeRegistry.typeId_of_id? hid).symm.trans htype
    exact .inr (.inr ⟨hmissing, rfl, ⟨_, rfl⟩, fun _ => hfull⟩)
  | noType hmissing htype hinvalid =>
    cases (TypeRegistry.typeId_of_id? hid).symm.trans htype
    exact .inr (.inr ⟨hmissing, rfl, ⟨r.log, rfl⟩, fun hvalid => absurd hvalid hinvalid⟩)

/-- A zero constant of a declared type is found or declared, unless the ids are used up. -/
theorem constantId_steps {type : Ty} {typeId : Id} (hid : r.types.id? c.type = some typeId)
    (hzero : IsZeroOf r.types r.constants type c) (hsame : c.type.same c.type = true)
    (h : Registry.constantId c r = (id, r')) :
    ∃ es, Steps r es r' ∧ guards es = [] ∧
      (id.isValid = true → r'.constants.id? c = some id) := by
  rcases constantId_cases hid h with ⟨hfound, rfl⟩ | ⟨hmissing, hlt, rfl, rfl⟩ |
    ⟨-, rfl, ⟨log, rfl⟩, -⟩
  · exact ⟨[], .refl _ _, rfl, fun _ => hfound⟩
  · have hdue : (nextDeclaration r c typeId).Due r :=
      ⟨⟨type, hzero⟩, hmissing, hid, rfl, rfl, hlt⟩
    refine ⟨[.declared (nextDeclaration r c typeId)], .single (.declared r.log hdue), rfl,
      fun _ => ?_⟩
    rw [declare, ConstantTable.id?_add, nextDeclaration, hmissing, Option.none_or,
      if_pos (hzero.same_refl hsame)]
  · exact ⟨[], .refl r log, rfl, fun hvalid => Id.absurd_invalid hvalid⟩

theorem zeroScalarId_steps {w : Nat} {s : Bool} {typeId : Id}
    (hid : r.types.id? (.int w s) = some typeId)
    (h : Registry.zeroScalarId w s r = (id, r')) :
    ∃ es, Steps r es r' ∧ guards es = [] ∧
      (id.isValid = true → r'.constants.id? (.zero w s) = some id) :=
  constantId_steps hid .scalar (Ty.same_int_iff.2 rfl) h

/-- A vector type that is declared under some id is found. -/
theorem exists_id?_of_vector {type : Id} {element : Ty} {n : Nat}
    (hformed : ∀ entry ∈ r.types.entries, r.types.Formed entry.2)
    (htype : r.types.type? type = some (.vector element n)) :
    (Ty.vector element n).same (.vector element n) = true ∧
      ∃ typeId, r.types.id? (.vector element n) = some typeId := by
  obtain ⟨key, -, hmem⟩ := TypeTable.mem_of_type? htype
  have hsame : (Ty.vector element n).same (.vector element n) = true := by
    cases hformed _ hmem with
    | vector hscalar hn helement =>
      rw [Ty.same, Ty.same_refl_of_isScalar hscalar, beq_self_eq_true]
      rfl
  exact ⟨hsame, TypeTable.exists_id?_of_mem hmem hsame⟩

/-- Whether or not it is declared under the id that is given, a vector of zeros is one. -/
theorem compositeId_steps {w n : Nat} {s : Bool} {z vectorId : Id}
    (hformed : ∀ entry ∈ r.types.entries, r.types.Formed entry.2)
    (hz : r.constants.id? (.zero w s) = some z)
    (hvector : r.types.id? (.vector (.int w s) n) = some vectorId)
    (h : Registry.compositeId vectorId (List.replicate n z) r = (id, r')) :
    ∃ es, Steps r es r' ∧ guards es = [] ∧ (id.isValid = true →
      ∃ c, IsZeroOf r'.types r'.constants (.vector (.int w s) n) c ∧
        r'.constants.id? c = some id) := by
  rcases Registry.compositeId_cases h with ⟨element, htype, -, h⟩ | ⟨rfl, rfl⟩
  · rw [List.length_replicate] at htype h
    have hzero := IsZeroOf.vector hz hvector htype
    obtain ⟨hsame, typeId, hid⟩ := exists_id?_of_vector hformed htype
    obtain ⟨es, hsteps, hguards, hfound⟩ := constantId_steps hid hzero hsame h
    refine ⟨es, hsteps, hguards, fun hvalid => ⟨_, ?_, hfound hvalid⟩⟩
    rw [hsteps.types_eq]
    exact hzero.mono hsteps.finds
  · exact ⟨[], .refl r' r'.log, rfl, Id.absurd_invalid⟩

/-- The types are declared already, so only the scalar zero and the vector of it may be missing. -/
theorem zeroVectorId_steps {w n : Nat} {s : Bool} {scalarId vectorId : Id}
    (hformed : ∀ entry ∈ r.types.entries, r.types.Formed entry.2)
    (hscalar : r.types.id? (.int w s) = some scalarId)
    (hvector : r.types.id? (.vector (.int w s) n) = some vectorId)
    (h : Registry.zeroVectorId w s n r = (id, r')) :
    ∃ es, Steps r es r' ∧ guards es = [] ∧ (id.isValid = true →
      ∃ c, IsZeroOf r'.types r'.constants (.vector (.int w s) n) c ∧
        r'.constants.id? c = some id) := by
  cases Registry.zeroVectorId_outcome h with
  | composite hzero hvalid htype htypeValid h =>
    obtain ⟨es, hsteps, hguards, hfound⟩ := zeroScalarId_steps hscalar hzero
    have htypes := hsteps.types_eq
    obtain ⟨rfl, ⟨-, rfl⟩ | ⟨-, rfl⟩⟩ := TypeRegistry.vectorId_of_id? (htypes ▸ hvector) htype
    · obtain ⟨es', hsteps', hguards', hfound'⟩ := compositeId_steps (htypes ▸ hformed)
        (hfound hvalid) (htypes ▸ hvector) h
      exact ⟨es ++ es', hsteps.append hsteps', by simp [hguards, hguards'], hfound'⟩
    · exact Id.absurd_invalid htypeValid
  | noVector hzero _ htype =>
    obtain ⟨es, hsteps, hguards, -⟩ := zeroScalarId_steps hscalar hzero
    obtain ⟨rfl, -⟩ := TypeRegistry.vectorId_of_id? (hsteps.types_eq ▸ hvector) htype
    exact ⟨es, hsteps, hguards, Id.absurd_invalid⟩
  | noLane hzero =>
    obtain ⟨es, hsteps, hguards, -⟩ := zeroScalarId_steps hscalar hzero
    exact ⟨es, hsteps, hguards, Id.absurd_invalid⟩

/-- **The zero of a type is found or declared in steps.** -/
theorem zeroId_steps {typeId : Id} (hformed : ∀ entry ∈ r.types.entries, r.types.Formed entry.2)
    (h : Registry.zeroId typeId r = (id, r')) :
    ∃ es, Steps r es r' ∧ guards es = [] ∧ (id.isValid = true →
      ∃ type c, r'.types.type? typeId = some type ∧
        IsZeroOf r'.types r'.constants type c ∧ r'.constants.id? c = some id) := by
  cases Registry.zeroId_outcome h with
  | scalar htype h =>
    obtain ⟨key, -, hmem⟩ := TypeTable.mem_of_type? htype
    obtain ⟨scalarId, hscalar⟩ := TypeTable.exists_id?_of_mem hmem (Ty.same_int_iff.2 rfl)
    obtain ⟨es, hsteps, hguards, hfound⟩ := zeroScalarId_steps hscalar h
    refine ⟨es, hsteps, hguards, fun hvalid => ⟨_, _, ?_, .scalar, hfound hvalid⟩⟩
    rw [hsteps.types_eq]
    exact htype
  | vector htype h =>
    obtain ⟨key, -, hmem⟩ := TypeTable.mem_of_type? htype
    obtain ⟨vectorId, hvector⟩ := TypeTable.exists_id?_of_mem hmem (Ty.same_vector_int_iff.2 rfl)
    cases hformed _ hmem with
    | vector hint hn helement =>
      obtain ⟨scalarId, hscalar⟩ := TypeTable.exists_id?_of_mem helement (Ty.same_int_iff.2 rfl)
      obtain ⟨es, hsteps, hguards, hfound⟩ := zeroVectorId_steps hformed hscalar hvector h
      refine ⟨es, hsteps, hguards, fun hvalid => ?_⟩
      obtain ⟨c, hzero, hc⟩ := hfound hvalid
      refine ⟨_, c, ?_, hzero, hc⟩
      rw [hsteps.types_eq]
      exact htype
  | other _ hid hr =>
    subst hid hr
    exact ⟨[], .refl r' r'.log, rfl, Id.absurd_invalid⟩

end Registry

/-! ## Candidates and guards -/

/-- Whether the result of an instruction is a vector. -/
def isVectorResult (types : TypeTable) (i : Instruction) : Bool :=
  (i.type.bind types.type?).any Ty.isVector

variable {types : TypeTable} {constants : ConstantTable} {i : Instruction} {c : Candidate}

theorem shiftAmount?_cases {amount : Option Id} (h : shiftAmount? i = .ok amount) :
    (i.opcode = "OpShiftLeftLogical" ∧ i.operands[1]?.bind Operand.id? = amount) ∨
      (i.opcode ≠ "OpShiftLeftLogical" ∧ amount = none) := by
  rw [shiftAmount?] at h
  split at h
  · next hopcode =>
    split at h
    · next operand hoperand =>
      cases h
      exact .inl ⟨hopcode, by rw [hoperand, Option.bind_some]⟩
    · cases h
  · next hopcode =>
    cases h
    exact .inr ⟨hopcode, rfl⟩

/-- What it means that an instruction is seen as a candidate, or not. -/
theorem candidate?_cases {found : Option Candidate} (h : candidate? types constants i = .ok found) :
    (found = none ∧ isCandidate constants i = false) ∨
      ∃ c, found = some c ∧ isCandidate constants i = true ∧ c.shift = i ∧ i.type = some c.type ∧
        i.result = some c.result ∧ c.isVector = isVectorResult types i := by
  rw [candidate?, bind_eq_ok_iff] at h
  obtain ⟨amount, hamount, h⟩ := h
  rcases shiftAmount?_cases hamount with ⟨hopcode, hoperand⟩ | ⟨hopcode, rfl⟩
  · have hcandidate : isCandidate constants i
        = (amount.bind constants.constant?).any (·.type.isIntegral) := by
      rw [isCandidate, hoperand, hopcode, beq_self_eq_true, Bool.true_and]
    rw [hcandidate]
    split at h
    · next amount =>
      rw [Option.bind_some]
      split at h
      · next constant hconstant =>
        rw [hconstant, Option.any_some]
        split at h
        · next hintegral =>
          split at h
          · next type result htype hresult =>
            cases h
            refine .inr ⟨_, rfl, hintegral, rfl, htype, hresult, ?_⟩
            rw [isVectorResult, htype, Option.bind_some]
          · rw [bind_eq_ok_iff] at h
            obtain ⟨-, -, ⟨⟩⟩ := h
        · next hintegral =>
          cases h
          exact .inl ⟨rfl, by simpa using hintegral⟩
      · next hconstant =>
        cases h
        refine .inl ⟨rfl, ?_⟩
        cases hc : constants.constant? amount with
        | none => rfl
        | some constant => exact absurd hc (hconstant constant)
    · next hnone =>
      cases h
      refine .inl ⟨rfl, ?_⟩
      cases amount with
      | none => rfl
      | some amount => exact absurd rfl (hnone amount)
  · cases h
    exact .inl ⟨rfl, by simp [isCandidate, hopcode]⟩

/-- Either a guard is put behind the candidate, or the run stops there. -/
theorem guard_steps {s s' : State} {out : List Instruction} {stop : Option Stop}
    (hformed : ∀ entry ∈ s.registry.types.entries, s.registry.types.Formed entry.2)
    (hbelow : ∀ id ∈ c.shift.mentions, id.Below s.registry.target.bound)
    (hcandidate : isCandidate s.registry.constants c.shift = true)
    (htype : c.shift.type = some c.type) (hresult : c.shift.result = some c.result)
    (h : guard c s = (out, stop, s')) :
    ∃ es, Steps s.registry es s'.registry ∧
      ((guards es = [] ∧ out = [c.shift] ∧ stop.isSome = true ∧ s'.count = s.count) ∨
        ∃ g, guards es = [g] ∧ g.shift = c.shift ∧ out = [g.renamed, g.insertion] ∧
          stop ≠ some .failed ∧ s'.count = s.count.add c.isVector) := by
  cases guard_outcome h with
  | @put zero r stop log hzero hvalid _ hlt hreport =>
    obtain ⟨es, hsteps, hguards, hfound⟩ := zeroId_steps hformed hzero
    let g : Guard := ⟨c.shift, ⟨r.target.bound, none⟩, zero, r.target.nextSerial⟩
    -- what was declared for the zero has new ids, so the amount of the shift is what it was
    have hcandidate' : isCandidate r.constants c.shift = true :=
      (hsteps.isCandidate_eq hbelow).trans hcandidate
    obtain ⟨type, constant, htype', hzero', hconstant⟩ := hfound hvalid
    have hdue : g.Due r :=
      { candidate := hcandidate'
        result := by simp [g, hresult]
        zero := ⟨c.type, type, constant, htype, htype', hzero', hconstant⟩
        temporary := rfl
        serial := rfl
        bound := hlt }
    have hinsertion : { guardInstruction c g.temporary zero with serial := r.target.nextSerial }
        = g.insertion := by
      simp [guardInstruction, Guard.insertion, g, htype, hresult]
    refine ⟨es ++ [.guarded g], .tail hsteps (.guarded log hdue),
      .inr ⟨g, ?_, rfl, ?_, hreport.ne_failed, rfl⟩⟩
    · rw [guards_append, hguards]
      rfl
    · rw [← hinsertion]
      rfl
  | noId hzero =>
    obtain ⟨es, hsteps, hguards, -⟩ := zeroId_steps hformed hzero
    exact ⟨es, hsteps.withLog _, .inl ⟨hguards, rfl, rfl, rfl⟩⟩
  | noZero hzero =>
    obtain ⟨es, hsteps, hguards, -⟩ := zeroId_steps hformed hzero
    exact ⟨es, hsteps.withLog _, .inl ⟨hguards, rfl, rfl, rfl⟩⟩

/-! ## Going through a module

Blocks and functions are swept as instructions are.  `Sweeps` is what has to be known of one level
to know it of the next. -/

/-- How many guards of either kind there are. -/
def countGuards (types : TypeTable) (n : GuardCount) (gs : List Guard) : GuardCount :=
  gs.foldl (fun n g => n.add (isVectorResult types g.shift)) n

/-- A run through instructions `is` that started in `s`, where `r` is the registry before all. -/
structure Swept (r : Registry) (is : List Instruction) (s : State) (es : List Event)
    (stop : Option Stop) (s' : State) : Prop where
  steps : Steps s.registry es s'.registry
  first : (guards es).map Guard.shift <+: is.filter (isCandidate r.constants)
  all : stop = none → (guards es).map Guard.shift = is.filter (isCandidate r.constants)
  failed : stop = some .failed → (guards es).length < (is.filter (isCandidate r.constants)).length
  count : s'.count = countGuards r.types s.count (guards es)

namespace Swept

variable {r : Registry} {is js : List Instruction} {s s' s'' : State} {es es' : List Event}
  {stop : Option Stop}

theorem nil (r : Registry) (s : State) : Swept r [] s [] none s where
  steps := .refl s.registry s.registry.log
  first := List.prefix_rfl
  all _ := rfl
  failed h := by cases h
  count := rfl

theorem append (h : Swept r is s es none s') (h' : Swept r js s' es' stop s'') :
    Swept r (is ++ js) s (es ++ es') stop s'' where
  steps := h.steps.append h'.steps
  first := by
    rw [guards_append, List.map_append, List.filter_append, h.all rfl]
    exact List.prefix_append_right_inj _ |>.2 h'.first
  all hstop := by
    rw [guards_append, List.map_append, List.filter_append, h.all rfl, h'.all hstop]
  failed hstop := by
    have hlt := h'.failed hstop
    have heq := congrArg List.length (h.all rfl)
    rw [List.length_map] at heq
    rw [guards_append, List.length_append, List.filter_append, List.length_append]
    omega
  count := by
    rw [h'.count, h.count, guards_append, countGuards, countGuards, countGuards, List.foldl_append]

/-- What follows a stop is not looked at. -/
theorem stopped {why : Stop} (h : Swept r is s es (some why) s') :
    Swept r (is ++ js) s es (some why) s' where
  steps := h.steps
  first := by
    rw [List.filter_append]
    exact h.first.trans (List.prefix_append _ _)
  all hstop := by cases hstop
  failed hstop := by
    have hlt := h.failed hstop
    rw [List.filter_append, List.length_append]
    omega
  count := h.count

theorem shift_mem (h : Swept r is s es stop s') {i : Instruction}
    (hi : i ∈ (guards es).map Guard.shift) : i ∈ is :=
  (List.mem_filter.1 (h.first.subset hi)).1

end Swept

/-- The registry before the run, with a module whose ids it may refer to. -/
structure Ready (r : Registry) (is : List Instruction) : Prop where
  formed : ∀ entry ∈ r.types.entries, r.types.Formed entry.2
  below : ∀ i ∈ is, ∀ id ∈ i.mentions, id.Below r.target.bound
  nodup : is.Nodup

/-- What has to be known of a step for a sweep over `as`: `body` are the instructions of an element
and `out` is what becomes of it when some of them are guarded. -/
structure Sweeps {α : Type} (r : Registry) (body : α → List Instruction)
    (out : List Guard → α → List α) (step : α → State → List α × Option Stop × State) : Prop where
  congr : ∀ {gs gs' a}, (∀ i ∈ body a, guardOf? gs i = guardOf? gs' i) → out gs a = out gs' a
  nil : ∀ a, out [] a = [a]
  step : ∀ {a s es done stop s'}, Steps r es s.registry → Ready r (body a) →
    step a s = (done, stop, s') → ∃ es', Swept r (body a) s es' stop s' ∧ done = out (guards es') a

section Sweep

variable {α : Type} {r : Registry} {body : α → List Instruction} {out : List Guard → α → List α}
  {step : α → State → List α × Option Stop × State}

theorem Sweeps.out_of_not_mem (h : Sweeps r body out step) {gs : List Guard} {a : α}
    (hgs : ∀ i ∈ body a, i ∉ gs.map Guard.shift) : out gs a = [a] := by
  rw [← h.nil a]
  refine h.congr fun i hi => ?_
  rw [guardOf?_eq_none_iff.2 (hgs i hi)]
  rfl

theorem Sweeps.sweep (h : Sweeps r body out step) {as done : List α} {s s' : State}
    {es : List Event} {stop : Option Stop} (hs : Steps r es s.registry)
    (hready : Ready r (as.flatMap body)) (hsweep : sweep step as s = (done, stop, s')) :
    ∃ es', Swept r (as.flatMap body) s es' stop s' ∧ done = as.flatMap (out (guards es')) := by
  induction as generalizing s es done with
  | nil =>
    cases hsweep
    exact ⟨[], .nil r _, rfl⟩
  | cons a as ih =>
    have hnodup := hready.nodup
    rw [List.flatMap_cons, List.nodup_append] at hnodup
    obtain ⟨hnodupA, hnodupAs, hdisjoint⟩ := hnodup
    have hreadyA : Ready r (body a) :=
      ⟨hready.formed, fun i hi => hready.below i (List.mem_append_left _ hi), hnodupA⟩
    have hreadyAs : Ready r (as.flatMap body) :=
      ⟨hready.formed, fun i hi => hready.below i (List.mem_append_right _ hi), hnodupAs⟩
    rw [List.flatMap_cons]
    cases sweep_outcome hsweep with
    | stopped hstep =>
      obtain ⟨es₁, hswept, rfl⟩ := h.step hs hreadyA hstep
      -- what comes after a stop is left alone, and no guard found so far is for any of it
      refine ⟨es₁, hswept.stopped, ?_⟩
      have hrest : as.flatMap (out (guards es₁)) = as := by
        rw [List.flatMap_congr fun a' ha' => h.out_of_not_mem fun i hi hmem => ?_,
          List.flatMap_singleton']
        exact hdisjoint i (hswept.shift_mem hmem) i (List.mem_flatMap.2 ⟨a', ha', hi⟩) rfl
      rw [List.flatMap_cons, hrest]
    | passed hstep htail =>
      obtain ⟨es₁, hswept, rfl⟩ := h.step hs hreadyA hstep
      obtain ⟨es₂, hswept₂, rfl⟩ := ih (hs.append hswept.steps) hreadyAs htail
      refine ⟨es₁ ++ es₂, hswept.append hswept₂, ?_⟩
      have hhead : out (guards (es₁ ++ es₂)) a = out (guards es₁) a := by
        refine h.congr fun i hi => ?_
        rw [guards_append, guardOf?_append_left]
        exact fun hmem => hdisjoint i hi i (hswept₂.shift_mem hmem) rfl
      have hrest : as.flatMap (out (guards (es₁ ++ es₂))) = as.flatMap (out (guards es₂)) := by
        refine List.flatMap_congr fun a' ha' => h.congr fun i hi => ?_
        rw [guards_append, guardOf?_append_right]
        exact fun hmem =>
          hdisjoint i (hswept.shift_mem hmem) i (List.mem_flatMap.2 ⟨a', ha', hi⟩) rfl
      rw [List.flatMap_cons, hhead, hrest]

end Sweep

section Instruction

variable {r : Registry} {s s' : State} {es : List Event} {stop : Option Stop}

/-- An instruction that stays as it is. -/
theorem Swept.unguarded (hsteps : Steps s.registry es s'.registry) (hguards : guards es = [])
    (hcount : s'.count = s.count) (hnone : stop = none → isCandidate r.constants i = false)
    (hfailed : stop = some .failed → isCandidate r.constants i = true) :
    Swept r [i] s es stop s' where
  steps := hsteps
  first := by
    rw [hguards]
    exact List.nil_prefix
  all hstop := by
    rw [hguards, List.filter_cons_of_neg (by simp [hnone hstop])]
    rfl
  failed hstop := by
    rw [hguards, List.filter_cons_of_pos (hfailed hstop)]
    exact Nat.one_pos
  count := by
    rw [hguards, hcount]
    rfl

theorem Swept.guarded {g : Guard} (hsteps : Steps s.registry es s'.registry)
    (hguards : guards es = [g]) (hcandidate : isCandidate r.constants g.shift = true)
    (hcount : s'.count = s.count.add (isVectorResult r.types g.shift))
    (hstop : stop ≠ some .failed) : Swept r [g.shift] s es stop s' where
  steps := hsteps
  first := by
    rw [hguards, List.filter_cons_of_pos hcandidate]
    exact List.prefix_rfl
  all _ := by
    rw [hguards, List.filter_cons_of_pos hcandidate]
    rfl
  failed hfailed := absurd hfailed hstop
  count := by
    rw [hguards, hcount]
    rfl

end Instruction

theorem sweeps_onInstruction (r : Registry) :
    Sweeps r (fun i => [i]) guarded onInstruction where
  congr h := guarded_congr (h _ (List.mem_singleton_self _))
  nil i := rfl
  step {i s es done stop s'} hs hready h := by
    have hbelow := hready.below i (List.mem_singleton_self _)
    have hsame := hs.isCandidate_eq hbelow
    cases onInstruction_outcome h with
    | raised => exact ⟨[], .unguarded (.refl _ _) rfl rfl nofun nofun, rfl⟩
    | passed hfound =>
      rcases candidate?_cases hfound with ⟨-, hno⟩ | ⟨c, ⟨⟩, -⟩
      exact ⟨[], .unguarded (.refl _ _) rfl rfl (fun _ => hsame ▸ hno) nofun, rfl⟩
    | @candidate c _ _ _ hfound hguard =>
      obtain ⟨⟨⟩, -⟩ | ⟨_, ⟨⟩, hyes, rfl, htype, hresult, hvector⟩ := candidate?_cases hfound
      have hbelow' : ∀ id ∈ c.shift.mentions, id.Below s.registry.target.bound :=
        fun id hid => (hbelow id hid).mono (by rw [hs.bound_eq]; omega)
      obtain ⟨es', hsteps, hcases⟩ := guard_steps (hs.types_eq ▸ hready.formed) hbelow' hyes htype
        hresult hguard
      rw [hsame] at hyes
      refine ⟨es', ?_⟩
      rcases hcases with ⟨hnone, rfl, hstop, hcount⟩ | ⟨g, hg, hshift, rfl, hstop, hcount⟩
      · refine ⟨.unguarded hsteps hnone hcount ?_ fun _ => hyes, by rw [hnone]; rfl⟩
        rintro rfl
        cases hstop
      · rw [← hshift] at hyes hvector ⊢
        rw [hvector, hs.types_eq] at hcount
        refine ⟨.guarded hsteps hg hyes hcount hstop, ?_⟩
        rw [hg, guarded_of_guardOf? (g := g)]
        simp [guardOf?]

theorem sweeps_onBlock (r : Registry) :
    Sweeps r Block.instructions (fun gs b => [guardedBlock gs b]) onBlock where
  congr h := congrArg (fun b => [b]) (guardedBlock_congr h)
  nil b := congrArg (fun b => [b]) (guardedBlock_nil b)
  step {b s es done stop s'} hs hready h := by
    obtain ⟨is, hsweep, rfl⟩ := onBlock_eq h
    have hbody : b.instructions.flatMap (fun i => [i]) = b.instructions := List.flatMap_singleton' _
    obtain ⟨es', hswept, rfl⟩ :=
      (sweeps_onInstruction r).sweep hs (hbody.symm ▸ hready) hsweep
    rw [hbody] at hswept
    exact ⟨es', hswept, rfl⟩

theorem sweeps_onFunction (r : Registry) :
    Sweeps r (fun f => f.blocks.flatMap Block.instructions) (fun gs f => [guardedFunction gs f])
      onFunction where
  congr h := congrArg (fun f => [f]) (guardedFunction_congr h)
  nil f := congrArg (fun f => [f]) (guardedFunction_nil f)
  step {f s es done stop s'} hs hready h := by
    obtain ⟨bs, hsweep, rfl⟩ := onFunction_eq h
    obtain ⟨es', hswept, rfl⟩ := (sweeps_onBlock r).sweep hs hready hsweep
    refine ⟨es', hswept, ?_⟩
    rw [guardedFunction, List.map_eq_flatMap]

/-- The instructions of all blocks of a module, in order. -/
def bodies (m : Module) : List Instruction := m.blocks.flatMap Block.instructions

/-- **A whole run.** -/
theorem run_spec {r : Registry} {stop : Option Stop} {s : State}
    (hready : Ready r (bodies r.target)) (h : run r = (stop, s)) :
    ∃ es s', Swept r (bodies r.target) { registry := r } es stop s' ∧
      s.registry = { s'.registry with target := { s'.registry.target with
        functions := r.target.functions.map (guardedFunction (guards es)) } } ∧
      s.count = s'.count := by
  obtain ⟨fs, s', hsweep, rfl⟩ := run_eq h
  have hbodies : r.target.functions.flatMap (fun f => f.blocks.flatMap Block.instructions)
      = bodies r.target := by
    rw [bodies, Module.blocks, List.flatMap_assoc]
  obtain ⟨es, hswept, rfl⟩ :=
    (sweeps_onFunction r).sweep (.refl r r.log) (hbodies.symm ▸ hready) hsweep
  rw [hbodies] at hswept
  refine ⟨es, s', hswept, ?_, rfl⟩
  rw [List.map_eq_flatMap]

end Barrier
end ShiftBarrier
