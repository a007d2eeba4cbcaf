import ShiftBarrier.Proofs.Barrier.Optimizing
import ShiftBarrier.Proofs.Barrier.Taking
import ShiftBarrier.Proofs.Calls

/-!
# Operations on a session

Ids are taken and reserved, types and constants are found or declared, passes are run, and analyses
are asked for and dropped, in any order and whether or not an operation succeeds.

* `Operation` is what may be asked of a session, and `Operation.perform` does it.
* `Session.Anchored` is what every operation keeps: all ids in use are below the bound, those of the
  cached tables included.
* `Operation.perform_tracked` says that an operation is a run of changes, and how many ids it takes.
* `Session.ids_of_operations` says where all ids come from that are taken on the way;
  `Session.bound_raised_in_vain` is an operation that takes an id and returns none.
-/

set_option autoImplicit false

namespace ShiftBarrier

open ShiftBarrier.Module

/-! ## Anchored sessions -/

/-- The ids of a cached table are below a bound. -/
def CachedAnalysis.Below (bound : Nat) : CachedAnalysis → Prop
  | .types t => EntriesBelow bound t.entries
  | .constants (some t) => EntriesBelow bound t.entries
  | .constants none | .defUse _ | .abstract => True

theorem CachedAnalysis.Below.mono {bound bound' : Nat} {e : CachedAnalysis} (h : e.Below bound)
    (hle : bound ≤ bound') : e.Below bound' := by
  cases e with
  | types t => exact EntriesBelow.mono h hle
  | constants t =>
    cases t with
    | none => trivial
    | some t => exact EntriesBelow.mono h hle
  | _ => trivial

/-- What an analysis enters is made of results. -/
theorem made_below {m : Module} (h : m.WellFormed) :
    Cache.Made m (CachedAnalysis.Below m.bound) := by
  have hresult : ∀ {α : Type} {entries : List (Id × α)},
      (entries.map Prod.fst).Sublist (m.globals.filterMap Instruction.result) →
      EntriesBelow m.bound entries := fun hids entry hentry =>
    Barrier.Outcome.global_below h (hids.subset (List.mem_map_of_mem hentry))
  exact
    { types := hresult (TypeTable.readFrom_analyze m).ids
      pending := trivial
      constants := fun types => hresult (ConstantTable.readFrom_analyze types m).ids
      defUse := trivial
      abstract := trivial }

namespace Session

/-- All ids in use are below the bound. -/
structure Anchored (s : Session) : Prop where
  wellFormed : s.target.WellFormed
  cache : ∀ e ∈ s.cache.entries, e.Below s.target.bound

variable {s s' : Session}

theorem Anchored.withCache (h : s.Anchored) {c : Cache}
    (hc : ∀ e ∈ c.entries, e.Below s.target.bound) (log : Log) :
    Anchored { s with cache := c, log } :=
  ⟨h.wellFormed, hc⟩

/-- Tables that are entered again, after ids were taken. -/
theorem below_setTypes {c : Cache} {bound bound' : Nat} {t : TypeTable}
    (hc : ∀ e ∈ c.entries, e.Below bound) (hle : bound ≤ bound')
    (ht : EntriesBelow bound' t.entries) : ∀ e ∈ (c.setTypes t).entries, e.Below bound' := by
  refine List.forall_mem_map.2 fun e he => ?_
  cases e with
  | types _ => exact ht
  | _ => exact (hc _ he).mono hle

theorem below_setConstants {c : Cache} {bound : Nat} {t : ConstantTable}
    (hc : ∀ e ∈ c.entries, e.Below bound) (ht : EntriesBelow bound t.entries) :
    ∀ e ∈ (c.setConstants t).entries, e.Below bound := by
  refine List.forall_mem_map.2 fun e he => ?_
  cases e with
  | constants _ => exact ht
  | _ => exact hc _ he

/-! ## Operations on the tables -/

namespace Anchored

/-- Declarations on demand keep a session anchored, if the tables are entered with their ids. -/
theorem of_declares (h : s.Anchored) {m : Module} (hdeclares : s.target.Declares m) {c : Cache}
    (hc : ∀ e ∈ c.entries, e.Below m.bound) (log : Log) :
    Anchored { target := m, cache := c, log } := by
  obtain ⟨marks, hacts⟩ := hdeclares.exists_acts
  exact ⟨h.wellFormed.acts hacts, hc⟩

theorem onTypes (h : s.Anchored) {f : TypeRegistry → Id × TypeRegistry}
    (hf : ∀ q : TypeRegistry, EntriesBelow q.target.bound q.types.entries →
      q.Grows (f q).1 (f q).2) :
    s.target.Declares ((Session.onTypes f).run.run s).2.target ∧
      ((Session.onTypes f).run.run s).2.Anchored := by
  have hmade := made_below h.wellFormed
  rw [onTypes_run_eq]
  rcases hrequest : s.cache.requestTypes s.target with ⟨_ | types, c⟩
  · exact ⟨.refl _, h.withCache (hmade.requestTypes h.cache hrequest).1 s.log⟩
  · obtain ⟨hcache, htypes⟩ := hmade.requestTypes h.cache hrequest
    have hgrows := hf ⟨s.target, types, s.log⟩ (htypes types rfl)
    exact ⟨hgrows.declares, h.of_declares hgrows.declares
      (below_setTypes hcache hgrows.declares.bound_le hgrows.types) _⟩

theorem onRegistry (h : s.Anchored) {f : Registry → Id × Registry}
    (hf : ∀ r : Registry, r.Anchored → r.Grows (f r).1 (f r).2) :
    s.target.Declares ((Session.onRegistry f).run.run s).2.target ∧
      ((Session.onRegistry f).run.run s).2.Anchored := by
  have hmade := made_below h.wellFormed
  rw [onRegistry_run_eq]
  rcases hrequest : s.cache.requestConstants s.target with ⟨_ | _ | constants, c⟩
  · exact ⟨.refl _, h.withCache (hmade.requestConstants h.cache hrequest).1 s.log⟩
  · exact ⟨.refl _, h.withCache (hmade.requestConstants h.cache hrequest).1 s.log⟩
  · obtain ⟨hcache, hconstants⟩ := hmade.requestConstants h.cache hrequest
    dsimp only
    rcases hrequest' : c.requestTypes s.target with ⟨_ | types, c'⟩
    · exact ⟨.refl _, h.withCache (hmade.requestTypes hcache hrequest').1 s.log⟩
    · obtain ⟨hcache', htypes⟩ := hmade.requestTypes hcache hrequest'
      have hgrows := hf ⟨⟨s.target, types, s.log⟩, constants⟩
        ⟨htypes types rfl, hconstants constants rfl⟩
      exact ⟨hgrows.declares, h.of_declares hgrows.declares (below_setConstants
        (below_setTypes hcache' hgrows.declares.bound_le hgrows.anchored.types)
        hgrows.anchored.constants) _⟩

/-! ## Runs of the pass -/

theorem barrierOn (h : s.Anchored) {types : TypeTable} {constants : ConstantTable}
    (htypes : EntriesBelow s.target.bound types.entries)
    (hconstants : EntriesBelow s.target.bound constants.entries) :
    (∃ marks, s.target.Acts marks (Pass.barrierOn types constants s).2.target) ∧
      (Pass.barrierOn types constants s).2.Anchored := by
  rcases hrun : Pass.barrierOn types constants s with ⟨run, s'⟩
  obtain ⟨stop, done, log, hbarrier, -, -, rfl, -⟩ := Barrier.barrierOn_eq hrun
  obtain ⟨⟨marks, hacts⟩, hdone⟩ := Barrier.run_acts h.wellFormed ⟨htypes, hconstants⟩ hbarrier
  exact ⟨⟨marks, hacts⟩, h.wellFormed.acts hacts, below_setConstants
    (below_setTypes h.cache hacts.bound_le hdone.types) hdone.constants⟩

theorem runBarrier (h : s.Anchored) :
    (∃ marks, s.target.Acts marks (Pass.runBarrier s).2.target) ∧
      (Pass.runBarrier s).2.Anchored := by
  have hmade := made_below h.wellFormed
  rcases hrun : Pass.runBarrier s with ⟨run, s'⟩
  cases Barrier.passOutcome hrun with
  | noTypes htypes =>
    exact ⟨⟨[], .refl _⟩, h.withCache (hmade.requestTypes h.cache htypes).1 s.log⟩
  | noConstants htypes hconstants | pending htypes hconstants =>
    obtain ⟨hcache, -⟩ := hmade.requestTypes h.cache htypes
    exact ⟨⟨[], .refl _⟩, h.withCache (hmade.requestConstants hcache hconstants).1 s.log⟩
  | tables htypes hconstants hon =>
    obtain ⟨hcache, hbelow⟩ := hmade.requestTypes h.cache htypes
    obtain ⟨hcache', hbelow'⟩ := hmade.requestConstants hcache hconstants
    have hdone := (h.withCache hcache' s.log).barrierOn (hbelow _ rfl) (hbelow' _ rfl)
    rwa [hon] at hdone

theorem step (h : s.Anchored) (hstep : Step s s') :
    (∃ marks, s.target.Acts marks s'.target) ∧ s'.Anchored := by
  cases hstep with
  | run => exact h.runBarrier
  | request kind =>
    have hcache := (made_below h.wellFormed).request h.cache
      (rfl : s.cache.request s.target kind = _)
    exact ⟨⟨[], .refl _⟩, h.withCache hcache s.log⟩
  | invalidate kind =>
    exact ⟨⟨[], .refl _⟩, h.withCache (fun e he => h.cache e (s.cache.subset_invalidate kind he)) _⟩
  | invalidateExcept keep =>
    exact ⟨⟨[], .refl _⟩,
      h.withCache (fun e he => h.cache e (s.cache.subset_invalidateExcept keep he)) _⟩
  | renew log => exact ⟨⟨[], .refl _⟩, h.withCache (List.forall_mem_nil _) log⟩

/-- Passes that are run in order, with analyses dropped in between. -/
theorem steps (h : s.Anchored) (hsteps : Relation.ReflTransGen Step s s') :
    (∃ marks, s.target.Acts marks s'.target) ∧ s'.Anchored := by
  induction hsteps with
  | refl => exact ⟨⟨[], .refl _⟩, h⟩
  | tail _ hstep ih =>
    obtain ⟨⟨marks, hacts⟩, hmiddle⟩ := ih
    obtain ⟨⟨marks', hacts'⟩, hlast⟩ := hmiddle.step hstep
    exact ⟨⟨_, hacts.trans hacts'⟩, hlast⟩

end Anchored
end Session

/-! ## Operations

The operations are all those that take ids or put them in use, in any order and whatever came of the
ones before. -/

/-- What may be asked of a session. -/
inductive Operation
  | takeId
  | reserve (id : Id)
  | typeId (type : Ty)
  | vectorId (element : Ty) (count : Int)
  | zeroScalarId (type : Ty)
  | zeroId (type : Option Id)
  | compositeId (type : Option Id) (components : List (Option Id))
  | runBarrier
  | runAll (names : List String)
  | optimize (names : List String)
  | request (kind : AnalysisKind)
  | invalidate (kind : AnalysisKind)
  | invalidateExcept (keep : List AnalysisKind)

namespace Operation

open Session

/-- Runs an action for the id that it returns. -/
def ask (action : Action Id) (s : Session) : Except Error (Option Id) × Session :=
  let (result, s) := action.run.run s
  (result.map some, s)

/-- Runs an action that returns no id. -/
def order {α : Type} (action : Action α) (s : Session) : Except Error (Option Id) × Session :=
  let (result, s) := action.run.run s
  (result.map fun _ => none, s)

/-- Performs an operation, with the id it asks for if it asks for one. -/
def perform : Operation → Session → Except Error (Option Id) × Session
  | .takeId, s => ask Session.takeId s
  | .reserve id, s => (.ok none, { s with target := s.target.reserve id })
  | .typeId type, s => ask (onTypes (TypeRegistry.typeId type)) s
  | .vectorId element count, s => ask (onTypes (TypeRegistry.vectorId element count)) s
  | .zeroScalarId type, s => ask (Session.zeroScalarId type) s
  | .zeroId type, s => ask (Session.zeroId type) s
  | .compositeId type components, s => ask (Session.compositeId type components) s
  | .runBarrier, s =>
    let (run, s) := Pass.runBarrier s
    (run.result.map fun _ => none, s)
  | .runAll names, s =>
    let ((result, _), s) := Pass.runAll (names.map .name) s
    (result.map fun _ => none, s)
  | .optimize names, s => order (Session.optimize names) s
  | .request kind, s => order (Session.request kind) s
  | .invalidate kind, s => order (Session.invalidate kind) s
  | .invalidateExcept keep, s => order (Session.invalidateExcept keep) s

/-- Performs operations one after the other, whatever comes of them. -/
def performAll (operations : List Operation) (s : Session) : Session :=
  operations.foldl (fun s operation => (operation.perform s).2) s

variable {s s' : Session} {operation : Operation} {result : Except Error (Option Id)} {id : Id}

/-! ### What an operation does -/

/-- What an operation that returns an id does to the module: the id is taken, or declarations are
added and there are as many more ids as there are declarations.  Nothing else is changed. -/
def Accounts (s : Session) (operation : Operation) (id : Id) (s' : Session) : Prop :=
  (operation = .takeId →
    (id.isValid = true → id = ⟨s.target.bound, none⟩ ∧
      s'.target = { s.target with bound := s.target.bound + 1 }) ∧
    (id.isValid = false → s'.target = s.target)) ∧
  (operation ≠ .takeId → s.target.Declares s'.target ∧
    ∃ new, s'.target = { s.target with
      globals := s.target.globals ++ new
      bound := s.target.bound + new.length
      nextSerial := s.target.nextSerial + new.length })

/-- What is known of an operation on an anchored session. -/
structure Tracked (s : Session) (operation : Operation) (result : Except Error (Option Id))
    (s' : Session) : Prop where
  acts : ∃ marks, s.target.Acts marks s'.target
  anchored : s'.Anchored
  accounts : ∀ id, result = .ok (some id) → Accounts s operation id s'

theorem Tracked.of_declares (hne : operation ≠ .takeId)
    (h : s.target.Declares s'.target ∧ s'.Anchored) : Tracked s operation result s' :=
  ⟨h.1.exists_acts, h.2, fun _ _ => ⟨fun heq => absurd heq hne, fun _ => ⟨h.1, h.1.exists_eq⟩⟩⟩

theorem Tracked.of_onTypes (h : s.Anchored) {f : TypeRegistry → Id × TypeRegistry}
    (hf : ∀ q : TypeRegistry, EntriesBelow q.target.bound q.types.entries → q.Grows (f q).1 (f q).2)
    (hne : operation ≠ .takeId) :
    Tracked s operation (ask (onTypes f) s).1 (ask (onTypes f) s).2 :=
  .of_declares hne (h.onTypes hf)

theorem Tracked.of_onRegistry (h : s.Anchored) {f : Registry → Id × Registry}
    (hf : ∀ r : Registry, r.Anchored → r.Grows (f r).1 (f r).2) (hne : operation ≠ .takeId) :
    Tracked s operation (ask (onRegistry f) s).1 (ask (onRegistry f) s).2 :=
  .of_declares hne (h.onRegistry hf)

theorem Tracked.of_steps (hnone : ∀ id, result ≠ .ok (some id)) (h : s.Anchored)
    (hsteps : Relation.ReflTransGen Step s s') : Tracked s operation result s' :=
  ⟨(h.steps hsteps).1, (h.steps hsteps).2, fun id hid => absurd hid (hnone id)⟩

theorem map_none_ne {α : Type} {result : Except Error α} (id : Id) :
    (result.map fun _ => (none : Option Id)) ≠ .ok (some id) := by
  cases result <;> nofun

theorem ask_takeId (s : Session) :
    ask Session.takeId s = (.ok (some s.target.takeId.1),
      if s.target.takeId.1.isValid = true then { s with target := s.target.takeId.2 }
      else { s with log := s.log ++ [.idOverflow] }) := rfl

theorem tracked_takeId (h : s.Anchored) :
    Tracked s .takeId (ask Session.takeId s).1 (ask Session.takeId s).2 := by
  rw [ask_takeId]
  split
  · next hvalid =>
    have hact := Act.take hvalid
    refine ⟨⟨_, .single hact⟩, ⟨h.wellFormed.act hact, fun e he => ?_⟩, fun id hid => ?_⟩
    · exact (h.cache e he).mono hact.bound_lt.1
    · cases hid
      have htake := (takeId_of_isValid hvalid).2
      refine ⟨fun _ => ⟨fun _ => ?_, fun hinvalid => ?_⟩, fun hne => absurd rfl hne⟩
      · rw [htake]
        exact ⟨rfl, rfl⟩
      · rw [hvalid] at hinvalid
        cases hinvalid
  · next hinvalid =>
    refine ⟨⟨[], .refl _⟩, h.withCache h.cache _, fun id hid => ?_⟩
    cases hid
    exact ⟨fun _ => ⟨fun hvalid => absurd hvalid hinvalid, fun _ => rfl⟩,
      fun hne => absurd rfl hne⟩

theorem tracked_zeroScalarId (h : s.Anchored) (type : Ty) : Tracked s (.zeroScalarId type)
    (ask (Session.zeroScalarId type) s).1 (ask (Session.zeroScalarId type) s).2 := by
  have hother : ∀ name : Except Decimal.Fault String, Tracked s (.zeroScalarId type)
      (ask (do throw (.violation (.zeroOfOtherType (← name)))) s).1
      (ask (do throw (.violation (.zeroOfOtherType (← name)))) s).2 := by
    intro name
    cases name <;> exact ⟨⟨[], .refl _⟩, h, fun id hid => by cases hid⟩
  rw [Session.zeroScalarId.eq_def]
  split
  · exact .of_onRegistry h (fun r hr => Registry.zeroScalarId_grows hr rfl)
      (fun heq => by cases heq)
  · exact hother _

theorem tracked_zeroId (h : s.Anchored) (type : Option Id) : Tracked s (.zeroId type)
    (ask (Session.zeroId type) s).1 (ask (Session.zeroId type) s).2 := by
  have hne : Operation.zeroId type ≠ .takeId := fun heq => by cases heq
  rw [ask, Session.zeroId, bind_run, Session.types, onCache_run]
  rcases hrequest : s.cache.requestTypes s.target with ⟨_ | types, c⟩
  all_goals obtain ⟨hcache, -⟩ := (made_below h.wellFormed).requestTypes h.cache hrequest
  · exact ⟨⟨[], .refl _⟩, h.withCache hcache s.log, fun id hid => by cases hid⟩
  · have hnext := h.withCache hcache s.log
    dsimp only
    cases type with
    | none => exact .of_declares hne ⟨.refl _, hnext⟩
    | some id =>
      dsimp only
      by_cases hintegral : (types.type? id).any Ty.isIntegral = true
      · rw [if_pos hintegral]
        have hdone := hnext.onRegistry fun r hr =>
          Registry.zeroId_grows hr (rfl : Registry.zeroId id r = _)
        show Tracked s _ _ ((onRegistry (Registry.zeroId id)).run.run _).2
        exact .of_declares hne hdone
      · rw [if_neg hintegral]
        exact .of_declares hne ⟨.refl _, hnext⟩

/-- An optimisation works on a cache of its own. -/
theorem tracked_optimize (h : s.Anchored) (names : List String) : Tracked s (.optimize names)
    (order (Session.optimize names) s).1 (order (Session.optimize names) s).2 := by
  rw [order]
  rcases hrun : (Session.optimize names).run.run s with ⟨result, s'⟩
  obtain ⟨done, hsteps, rfl⟩ := exists_steps_of_optimize hrun
  have hstart : Anchored { s with cache := {} } := h.withCache (List.forall_mem_nil _) s.log
  obtain ⟨⟨marks, hacts⟩, hdone⟩ := hstart.steps hsteps
  refine ⟨⟨marks, hacts⟩, ⟨hdone.wellFormed, fun e he => ?_⟩, fun id hid => ?_⟩
  · exact (h.cache e he).mono hacts.bound_le
  · exact absurd hid (map_none_ne id)

/-- **Every operation is a run of changes**, and accounts for the ids that it takes. -/
theorem perform_tracked (h : s.Anchored) (operation : Operation) :
    Tracked s operation (operation.perform s).1 (operation.perform s).2 := by
  cases operation with
  | takeId => exact tracked_takeId h
  | reserve id =>
    have hact := Act.reserve s.target id
    refine ⟨⟨_, .single hact⟩, ⟨h.wellFormed.act hact, fun e he => ?_⟩, fun id hid => by cases hid⟩
    exact (h.cache e he).mono hact.bound_lt.1
  | typeId type =>
    rw [perform]
    exact .of_onTypes h (fun q hq => TypeRegistry.typeId_grows hq rfl) (fun heq => by cases heq)
  | vectorId element count =>
    rw [perform]
    exact .of_onTypes h (fun q hq => TypeRegistry.vectorId_grows hq rfl)
      (fun heq => by cases heq)
  | zeroScalarId type => exact tracked_zeroScalarId h type
  | zeroId type => exact tracked_zeroId h type
  | compositeId type components =>
    rw [perform, Session.compositeId]
    refine .of_onRegistry h (fun r hr => ?_) (fun heq => by cases heq)
    split
    · exact Registry.compositeId_grows hr rfl
    · exact .invalid hr
  | runBarrier => exact .of_steps map_none_ne h (.single (.run s))
  | runAll names => exact .of_steps map_none_ne h (steps_runAll names s)
  | optimize names => exact tracked_optimize h names
  | request kind =>
    rw [perform, order, Session.request, onCache_run]
    exact .of_steps map_none_ne h (.single (.request s kind))
  | invalidate kind =>
    rw [perform, order, Session.invalidate, onCache_run]
    exact .of_steps (fun id hid => by cases hid) h (.single (.invalidate s kind))
  | invalidateExcept keep =>
    rw [perform, order, Session.invalidateExcept, onCache_run]
    exact .of_steps (fun id hid => by cases hid) h (.single (.invalidateExcept s keep))

/-- **Any number of operations are a run of changes.** -/
theorem performAll_acts (h : s.Anchored) (operations : List Operation) :
    (∃ marks, s.target.Acts marks (performAll operations s).target) ∧
      (performAll operations s).Anchored := by
  induction operations generalizing s with
  | nil => exact ⟨⟨[], .refl _⟩, h⟩
  | cons operation operations ih =>
    obtain ⟨⟨marks, hacts⟩, hnext, -⟩ := perform_tracked h operation
    obtain ⟨⟨marks', hacts'⟩, hlast⟩ := ih hnext
    exact ⟨⟨_, hacts.trans hacts'⟩, hlast⟩

end Operation

namespace Session

open Operation

/-- **All ids that come into use are new.**  After any operations, whatever came of them, every id
in the module is below the bound, and the module has come about by changes that are marked with the
ids which were taken and reserved.  Each id that was taken was the bound of the moment, below the
limit, larger than all before, and not mentioned in the module.  No id has become a redefinition.
The next operation accounts for the ids that it takes, also if it returns the invalid one. -/
theorem ids_of_operations {settings : Settings} {source : String} {m : Module}
    (hparse : Assembly.parse settings source = .ok m) (log : Log) (operations : List Operation) :
    let s := performAll operations { target := m, log }
    (∀ id ∈ s.target.mentions, id.Below s.target.bound) ∧
    (∃ marks, m.Acts marks s.target ∧ ∀ before moment id after,
      marks = before ++ .taken moment id :: after →
        m.Acts before moment ∧ id = ⟨moment.bound, none⟩ ∧ moment.bound < settings.maxIdBound ∧
        m.bound ≤ id.number ∧ (∀ mark ∈ before, mark.id.number < id.number) ∧
        ∀ key ∈ moment.mentions, key.number < id.number) ∧
    s.target.redefinedIds = m.redefinedIds ∧
    ∀ operation id s', operation.perform s = (.ok (some id), s') →
      Accounts s operation id s' := by
  intro s
  have hm := Assembly.wellFormed_of_parse hparse
  have hsettings : m.settings = settings := (Assembly.printable_of_parse hparse).1
  have hstart : Anchored { target := m, log } := ⟨hm, List.forall_mem_nil _⟩
  obtain ⟨⟨marks, hacts⟩, hs⟩ := performAll_acts hstart operations
  refine ⟨fun id hid => hs.wellFormed.mentions_below hid, ⟨marks, hacts, ?_⟩,
    hacts.redefined_eq hm, fun operation id s' hrun => ?_⟩
  · intro before moment id after hmarks
    obtain ⟨hbefore, rfl, hlimit, hlarger, hnew⟩ := hacts.taken hm hmarks
    rw [maxIdBound, hsettings] at hlimit
    exact ⟨hbefore, rfl, hlimit, hbefore.bound_le, hlarger, hnew⟩
  · have htracked := perform_tracked hs operation
    rw [hrun] at htracked
    exact htracked.accounts id rfl

/-! ### An example -/

/-- An id that is taken, one that is reserved, and two declarations on demand; the next id that is
taken is accounted for. -/
theorem ids_of_operations_sample :
    Assembly.parse {} wordText = .ok (declaringInt 32) ∧ ∃ s s',
      performAll [.takeId, .reserve ⟨6, none⟩, .vectorId (.float 32) 4]
        { target := declaringInt 32, log := [] } = s ∧ s.target.bound = 9 ∧
      (∀ id ∈ s.target.mentions, id.Below s.target.bound) ∧
      s.target.redefinedIds = (declaringInt 32).redefinedIds ∧
      Operation.takeId.perform s = (.ok (some ⟨9, none⟩), s') ∧
      Accounts s .takeId ⟨9, none⟩ s' := by
  obtain ⟨hbelow, -, hredefined, haccounts⟩ := ids_of_operations parse_wordText []
    [.takeId, .reserve ⟨6, none⟩, .vectorId (.float 32) 4]
  exact ⟨parse_wordText, _, _, rfl, rfl, hbelow, hredefined, rfl, haccounts _ _ _ rfl⟩

/-- **The bound may be raised for nothing**: a vector is not declared for want of an id, but its
element was. -/
theorem bound_raised_in_vain :
    ¬ ∀ (settings : Settings) (source : String) (m : Module) (log : Log)
      (operations : List Operation) (operation : Operation) (id : Id) (s' : Session),
      Assembly.parse settings source = .ok m → (∃ r, Registry.ofModule m = .ok r) →
      operation.perform (performAll operations { target := m, log }) = (.ok (some id), s') →
      id.isValid = false →
      s'.target.bound = (performAll operations { target := m, log }).target.bound := by
  intro h
  have hparse : Assembly.parse { maxIdBound? := some 3 } wordText
      = .ok { declaringInt 32 with settings := { maxIdBound? := some 3 } } :=
    toOption_eq_some_iff.1 (by decide +kernel)
  have hbound := h { maxIdBound? := some 3 } wordText _ [] [] (.vectorId (.float 32) 4) Id.invalid _
    hparse ⟨_, rfl⟩ rfl rfl
  exact absurd hbound (by decide)

end Session
end ShiftBarrier
