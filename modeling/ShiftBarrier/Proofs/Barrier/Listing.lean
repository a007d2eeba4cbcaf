import ShiftBarrier.Proofs.Barrier.Exact
import ShiftBarrier.Proofs.Listing.RoundTrip

/-!
# Listings of rewritten modules

What the pass adds can be listed and read again, so that a module may be written to a text after any
number of runs.

* `printable_rewritten` says that a run keeps a module printable.  The tables it uses need not be
  those of the module: it is enough that they are `Grounded` in its globals.
* `Session.Step` is what may happen to a session between two listings, and `Session.Legible` the
  invariant that every step keeps.
* `parse_text_of_steps` is the round trip.
-/

set_option autoImplicit false

namespace ShiftBarrier
namespace Barrier

variable {ids : List Id} {r r' : Registry} {es : List Event}

/-! ## What a run adds

What is added can be printed: its opcodes are mnemonics, its operands are ids and zeros, its ids are
new words. -/

/-- The ids that a run takes are new words. -/
theorem Steps.vocabulary (h : Steps r es r') (hpos : 0 < r.target.bound)
    (hlimit : r.target.maxIdBound ≤ Settings.maxIdWord) (hids : Vocabulary r.target.bound ids) :
    Vocabulary r'.target.bound ((es.map Event.id).reverse ++ ids) := by
  induction h with
  | refl log => exact hids
  | @tail r' r'' es e hsteps hstep ih =>
    have hbound : r'.target.bound = r.target.bound + es.length := hsteps.bound_eq
    have hmax : r'.target.maxIdBound = r.target.maxIdBound := by
      rw [hsteps.target_eq]
      rfl
    have htake : r'.target.bound < r'.target.maxIdBound → Vocabulary (r'.target.bound + 1)
        (⟨r'.target.bound, none⟩ :: ((es.map Event.id).reverse ++ ids)) := fun hlt =>
      ih.take (by omega) (by omega)
    rw [List.map_append, List.reverse_append]
    cases hstep with
    | declared log hdue =>
      have hnew := htake hdue.bound
      rwa [← hdue.id] at hnew
    | guarded log hdue =>
      have hnew := htake hdue.bound
      rwa [← hdue.temporary] at hnew

/-- The tables of a registry speak of the globals of its module. -/
structure Grounded (r : Registry) : Prop where
  types : r.types.ReadFrom r.target.globals
  constants : ∀ entry ∈ r.constants.entries, entry.1 ∈ r.target.globals.filterMap Instruction.result

namespace Grounded

theorem type_mem (h : Grounded r) {type : Ty} {id : Id} (hid : r.types.id? type = some id) :
    id ∈ r.target.globals.filterMap Instruction.result := by
  obtain ⟨found, -, hmem⟩ := TypeTable.mem_of_id? hid
  exact h.types.ids.subset (List.mem_map_of_mem hmem)

theorem constant_mem (h : Grounded r) {c : Constant} {id : Id} (hid : r.constants.id? c = some id) :
    id ∈ r.target.globals.filterMap Instruction.result := by
  obtain ⟨found, -, hmem⟩ := ConstantTable.mem_of_id? hid
  exact h.constants _ hmem

theorem steps (h : Grounded r) (hsteps : Steps r es r') : Grounded r' := by
  constructor
  · rw [hsteps.types_eq, hsteps.target_eq]
    exact h.types.append _
  · rw [hsteps.constants_eq, hsteps.target_eq]
    dsimp only
    rw [List.filterMap_append, results_instruction]
    refine List.forall_mem_append.2 ⟨fun entry hentry => ?_, List.forall_mem_map.2 fun d hd => ?_⟩
    · exact List.mem_append_left _ (h.constants entry hentry)
    · exact List.mem_append_right _ (List.mem_map_of_mem hd)

end Grounded

/-- The opcodes under which zeros are declared. -/
theorem IsZeroOf.opcode_cases {types : TypeTable} {constants : ConstantTable} {type : Ty}
    {c : Constant} (h : IsZeroOf types constants type c) :
    c.declaration.1 = "OpConstant" ∨ c.declaration.1 = "OpConstantComposite" := by
  cases h with
  | scalar => exact .inl rfl
  | vector => exact .inr rfl

theorem IsZeroOf.printable_operands {types : TypeTable} {constants : ConstantTable} {type : Ty}
    {c : Constant} (h : IsZeroOf types constants type c)
    (hspelled : ∀ id ∈ c.declaration.2.filterMap Operand.id?, id.Spelled) :
    ∀ operand ∈ c.declaration.2, operand.Printable := by
  cases h with
  | scalar => exact List.forall_mem_singleton.2 (.int 0)
  | vector =>
    refine List.forall_mem_map.2 fun id hid => .id (hspelled id ?_)
    exact List.mem_filterMap.2 ⟨.id id, List.mem_map_of_mem hid, rfl⟩

theorem isMnemonic_constant {opcode : String}
    (h : opcode = "OpConstant" ∨ opcode = "OpConstantComposite") :
    Instruction.IsMnemonic opcode ∧ Opcode.hasResultType opcode = true := by
  rcases h with rfl | rfl
  · exact ⟨⟨"Constant".toList, by decide, by decide, List.all_eq_true.1 rfl⟩, rfl⟩
  · exact ⟨⟨"ConstantComposite".toList, by decide, by decide, List.all_eq_true.1 rfl⟩, rfl⟩

/-- Constants are declared outside of functions and not in the header. -/
theorem isGlobal_constant {opcode : String}
    (h : opcode = "OpConstant" ∨ opcode = "OpConstantComposite") :
    Opcode.isPreamble opcode = false ∧ opcode ≠ "OpFunction" ∧ opcode ≠ "OpFunctionEnd" := by
  rcases h with rfl | rfl <;> decide

theorem isMnemonic_insertion :
    Instruction.IsMnemonic "OpBitFieldInsert" ∧ Opcode.hasResultType "OpBitFieldInsert" = true :=
  ⟨⟨"BitFieldInsert".toList, by decide, by decide, List.all_eq_true.1 rfl⟩, rfl⟩

theorem arranged_guardedFunction {f : Function} (hf : f.Arranged) {gs : List Guard} :
    (guardedFunction gs f).Arranged := by
  refine ⟨hf.definition, hf.result, hf.params, ?_, ?_⟩
  · refine List.forall_mem_map.2 fun b hb i hi => ?_
    obtain ⟨j, hj, hi⟩ := List.mem_flatMap.1 hi
    have hopcode := hf.body b hb j hj
    cases hguard : guardOf? gs j with
    | none =>
      rw [guarded, hguard, List.mem_singleton] at hi
      exact hi ▸ hopcode
    | some g =>
      have hinsertion : "OpBitFieldInsert" ∉ Opcode.structural := by decide
      obtain ⟨-, rfl⟩ := mem_of_guardOf? hguard
      rw [guarded_of_guardOf? hguard] at hi
      rcases List.mem_pair.1 hi with rfl | rfl
      · exact hopcode
      · exact hinsertion
  · have hlabels : (guardedFunction gs f).labels = f.labels := by
      rw [Function.labels, guardedFunction, List.map_map]
      rfl
    rw [hlabels]
    exact hf.labels

/-! ## A run keeps a module printable -/

/-- The ids of a module and those that were taken since. -/
def idsWith (ids : List Id) (es : List Event) : List Id := (es.map Event.id).reverse ++ ids

theorem id_mem_idsWith {e : Event} (h : e ∈ es) : e.id ∈ idsWith ids es :=
  List.mem_append_left _ (List.mem_reverse.2 (List.mem_map_of_mem h))

section Run

variable (hm : r.target.Printable ids) (hr : Grounded r) (hsteps : Steps r es r')

include hm in
theorem within_old {i : Instruction} (hi : i ∈ r.target.listed) : i.Within (idsWith ids es) :=
  ⟨(hm.within i hi).printable,
    fun id hid => List.mem_append_right _ ((hm.within i hi).mentions id hid)⟩

include hm hsteps in
theorem global_mem_idsWith {id : Id} (hid : id ∈ r'.target.globals.filterMap Instruction.result) :
    id ∈ idsWith ids es := by
  rw [hsteps.target_eq] at hid
  dsimp only at hid
  rw [List.filterMap_append, results_instruction] at hid
  rcases List.mem_append.1 hid with hid | hid
  · obtain ⟨i, hi, hresult⟩ := List.mem_filterMap.1 hid
    have hlisted : i ∈ r.target.listed := List.mem_append_left _ (List.mem_append_right _ hi)
    exact (within_old hm hlisted).mentions id (List.mem_append_left _ (by simp [hresult]))
  · obtain ⟨d, hd, rfl⟩ := List.mem_map.1 hid
    exact id_mem_idsWith (e := .declared d) (mem_declarations.1 hd)

variable (hspelled : ∀ id ∈ idsWith ids es, id.Spelled)
include hm hr hsteps hspelled

theorem within_declared {d : Declaration} (hd : .declared d ∈ es) :
    d.instruction.Within (idsWith ids es) := by
  obtain ⟨⟨type, hzero⟩, htype⟩ := hsteps.declared hd
  have hr' := hr.steps hsteps
  have hlane : ∀ id ∈ d.constant.declaration.2.filterMap Operand.id?, id ∈ idsWith ids es := by
    intro id hid
    obtain ⟨c, hc⟩ := hzero.exists_of_mem_inputs hid
    exact global_mem_idsWith hm hsteps (hr'.constant_mem hc)
  have htypeId : d.type ∈ idsWith ids es := global_mem_idsWith hm hsteps (hr'.type_mem htype)
  have hid : d.id ∈ idsWith ids es := id_mem_idsWith hd
  obtain ⟨hmnemonic, htyped⟩ := isMnemonic_constant hzero.opcode_cases
  refine ⟨⟨hmnemonic, ?_, ?_, ?_, ?_⟩, ?_⟩
  · rintro id ⟨⟩
    exact hspelled _ htypeId
  · rintro id ⟨⟩
    exact hspelled _ hid
  · exact hzero.printable_operands fun id hid => hspelled id (hlane id hid)
  · exact htyped.symm
  · refine List.forall_mem_cons.2 ⟨hid, List.forall_mem_cons.2 ⟨htypeId, hlane⟩⟩

theorem within_guarded {g : Guard} (hg : .guarded g ∈ es) (hshift : g.shift ∈ bodies r.target) :
    g.renamed.Within (idsWith ids es) ∧ g.insertion.Within (idsWith ids es) := by
  obtain ⟨hresult, type, -, c, htype, -, -, hc⟩ := hsteps.guarded hg
  have hzero : g.zero ∈ idsWith ids es :=
    global_mem_idsWith hm hsteps ((hr.steps hsteps).constant_mem hc)
  have htemporary : g.temporary ∈ idsWith ids es := id_mem_idsWith hg
  have hold : g.shift.Within (idsWith ids es) :=
    within_old hm (Module.mem_listed.2 (.inl ((bodies_sublist r.target).subset hshift)))
  have hmentions := hold.mentions
  obtain ⟨hmnemonic, htypes, hresults, hoperands, htyped⟩ := hold.printable
  constructor
  · refine ⟨⟨hmnemonic, htypes, ?_, hoperands, ?_⟩, ?_⟩
    · rintro id ⟨⟩
      exact hspelled _ htemporary
    · rw [hresult] at htyped
      exact htyped
    · refine List.forall_mem_cons.2 ⟨htemporary, fun id hid => ?_⟩
      exact hmentions id (List.mem_append_right _ hid)
  · refine ⟨⟨isMnemonic_insertion.1, htypes, hresults, ?_, ?_⟩, ?_⟩
    · have hzero' := Operand.Printable.id (hspelled _ hzero)
      have htemporary' := Operand.Printable.id (hspelled _ htemporary)
      simp [Guard.insertion, hzero', htemporary']
    · simp [Guard.insertion, hresult, htype, isMnemonic_insertion.2]
    · intro id hid
      rcases List.mem_append.1 hid with hid | hid
      · exact hmentions id (List.mem_append_left _ hid)
      rcases List.mem_append.1 hid with hid | hid
      · exact hmentions id (List.mem_append_right _ (List.mem_append_left _ hid))
      · have hcases : id = g.temporary ∨ id = g.zero := by
          simpa [Instruction.inputs, Guard.insertion, Operand.id?] using hid
        rcases hcases with rfl | rfl
        · exact htemporary
        · exact hzero

omit hr hspelled in
/-- Every addition stands where its opcode belongs. -/
theorem arranged_rewritten : (rewritten r.target es).Arranged := by
  obtain ⟨hpreamble, hglobals, hfunctions, hids⟩ := hm.arranged
  refine ⟨hpreamble, ?_, ?_, ?_⟩
  · refine List.forall_mem_append.2 ⟨hglobals, List.forall_mem_map.2 fun d hd => ?_⟩
    obtain ⟨⟨type, hzero⟩, -⟩ := hsteps.declared (mem_declarations.1 hd)
    exact isGlobal_constant hzero.opcode_cases
  · exact List.forall_mem_map.2 fun f hf => arranged_guardedFunction (hfunctions f hf)
  · have hmap : (rewritten r.target es).functions.map (·.id.number)
        = r.target.functions.map (·.id.number) := by
      rw [rewritten, List.map_map]
      rfl
    rw [hmap]
    exact hids

omit hspelled in
/-- **What a run leaves behind can be listed and read again.** -/
theorem printable_rewritten (hwell : r.target.WellFormed)
    (hlimit : r.target.maxIdBound ≤ Settings.maxIdWord)
    (hshifts : ((guards es).map Guard.shift).Sublist (bodies r.target)) :
    (rewritten r.target es).Printable (idsWith ids es) := by
  have hvocabulary := hsteps.vocabulary hwell.bound_pos hlimit hm.vocabulary
  rw [hsteps.bound_eq] at hvocabulary
  have hspelled := hvocabulary.spelled
  have hguard : ∀ g ∈ guards es,
      g.renamed.Within (idsWith ids es) ∧ g.insertion.Within (idsWith ids es) := fun g hg =>
    within_guarded hm hr hsteps hspelled (mem_guards.1 hg)
      (hshifts.subset (List.mem_map_of_mem hg))
  refine ⟨hvocabulary, arranged_rewritten hm hsteps, fun i hi => ?_⟩
  rcases Module.mem_listed.1 hi with hi | ⟨label, hlabel, rfl⟩ | ⟨f, -, rfl⟩
  · have hperm := perm_rewritten hwell.nodup_instructions hshifts
    rcases List.mem_append.1 (hperm.mem_iff.1 hi) with hi | hi
    · obtain ⟨j, hj, rfl⟩ := List.mem_map.1 hi
      rcases renamedBy_cases (guards es) j with ⟨-, heq⟩ | ⟨g, hg, rfl, heq⟩
      · rw [heq]
        exact within_old hm (Module.mem_listed.2 (.inl hj))
      · rw [heq]
        exact (hguard g hg).1
    · obtain ⟨e, he, rfl⟩ := List.mem_map.1 hi
      cases e with
      | declared d => exact within_declared hm hr hsteps hspelled he
      | guarded g => exact (hguard g (mem_guards.2 he)).2
  · rw [labels_rewritten] at hlabel
    have hlisted : Block.opening label ∈ r.target.listed :=
      Module.mem_listed.2 (.inr (.inl ⟨label, hlabel, rfl⟩))
    exact within_old hm hlisted
  · exact Function.within_ending _

omit hspelled in
/-- A run keeps a module well-formed, too. -/
theorem wellFormed_rewritten (hwell : r.target.WellFormed)
    (hlimit : r.target.maxIdBound ≤ Settings.maxIdWord)
    (hshifts : ((guards es).map Guard.shift).Sublist (bodies r.target)) :
    (rewritten r.target es).WellFormed := by
  have hprintable := printable_rewritten hm hr hsteps hwell hlimit hshifts
  obtain ⟨hnodup, hserial⟩ := serials_rewritten hwell rfl hsteps hshifts
  refine ⟨Nat.lt_of_lt_of_le hwell.bound_pos (Nat.le_add_right _ _), ?_, ?_, hnodup, hserial⟩
  · intro i hi id hid
    have hwithin := hprintable.within i (Module.mem_listed.2 (.inl hi))
    exact hprintable.vocabulary.below id (hwithin.mentions id hid)
  · intro id hid
    have hlisted := Module.mem_listed.2 (.inr (.inl ⟨id, hid, rfl⟩))
    exact hprintable.vocabulary.below id ((hprintable.within _ hlisted).mentions id
      (List.mem_append_left _ (by simp [Block.opening])))

end Run

end Barrier

/-! ## Grounded caches

The tables that a run works with may be stale, but they never speak of ids that the module has
not. -/

open Barrier

/-- What an entry of a cache speaks of. -/
def CachedAnalysis.Grounded (m : Module) : CachedAnalysis → Prop
  | .types t => t.ReadFrom m.globals
  | .constants (some t) => ∀ entry ∈ t.entries, entry.1 ∈ m.globals.filterMap Instruction.result
  | .constants none | .defUse _ | .abstract => True

namespace Cache

/-- The tables in a cache speak of the globals of a module, which may have changed since. -/
def Grounded (m : Module) (c : Cache) : Prop := ∀ e ∈ c.entries, e.Grounded m

variable {m : Module} {c : Cache}

theorem made_grounded (m : Module) : Made m (·.Grounded m) where
  types := TypeTable.readFrom_analyze m
  pending := trivial
  constants types := fun _ hentry =>
    (ConstantTable.readFrom_analyze types m).ids.subset (List.mem_map_of_mem hentry)
  defUse := trivial
  abstract := trivial

/-- After a run, all tables are those of the run. -/
theorem grounded_update {types : TypeTable} {constants : ConstantTable}
    (htypes : types.ReadFrom m.globals)
    (hconstants : ∀ entry ∈ constants.entries, entry.1 ∈ m.globals.filterMap Instruction.result)
    (c : Cache) : ((c.setTypes types).setConstants constants).Grounded m := by
  refine List.forall_mem_map.2 (List.forall_mem_map.2 fun e _ => ?_)
  cases e with
  | types _ => exact htypes
  | constants _ => exact hconstants
  | defUse _ => trivial
  | abstract => trivial

end Cache

/-! ## Sessions

A session may run the pass, ask for analyses and drop them, in any order.  The invariant holds of
all the sessions this leads to. -/

namespace Session

/-- What may happen to a session: the pass is run, whatever comes of it, and analyses are asked for
and dropped. -/
inductive Step : Session → Session → Prop
  | run (s : Session) : Step s (Pass.runBarrier s).2
  | request (s : Session) (kind : AnalysisKind) :
      Step s { s with cache := (s.cache.request s.target kind).2 }
  | invalidate (s : Session) (kind : AnalysisKind) :
      Step s { s with cache := s.cache.invalidate kind }
  | invalidateExcept (s : Session) (keep : List AnalysisKind) :
      Step s { s with cache := s.cache.invalidateExcept keep }
  | renew (s : Session) (log : Log) : Step s { s with cache := {}, log }

/-- What every step keeps of a session. -/
structure Legible (settings : Settings) (s : Session) : Prop where
  settings : s.target.settings = settings
  wellFormed : s.target.WellFormed
  printable : ∃ ids, s.target.Printable ids
  grounded : s.cache.Grounded s.target

variable {settings : Settings} {s s' : Session}

theorem Legible.withCache (h : s.Legible settings) {c : Cache} (hc : c.Grounded s.target)
    (log : Log) : Legible settings { s with cache := c, log } :=
  ⟨h.settings, h.wellFormed, h.printable, hc⟩

/-- A run of the pass on any tables, in terms of its events. -/
theorem barrierOn_spec (hwell : s.target.WellFormed) {types : TypeTable}
    (constants : ConstantTable) (hformed : ∀ entry ∈ types.entries, types.Formed entry.2) :
    ∃ es r, Steps ⟨⟨s.target, types, s.log⟩, constants⟩ es r ∧
      ((guards es).map Guard.shift).Sublist (bodies s.target) ∧
      (Pass.barrierOn types constants s).2.target = rewritten s.target es ∧
      (Pass.barrierOn types constants s).2.cache
        = (s.cache.setTypes r.types).setConstants r.constants := by
  have hready : Ready ⟨⟨s.target, types, s.log⟩, constants⟩ (bodies s.target) :=
    ⟨hformed, fun i hi => hwell.below i ((bodies_sublist _).subset hi),
      hwell.nodup_instructions.sublist (bodies_sublist _)⟩
  rcases hon : Pass.barrierOn types constants s with ⟨run, s'⟩
  obtain ⟨stop, done, log, hrun, -, -, rfl, -⟩ := barrierOn_eq hon
  obtain ⟨es, last, hswept, hregistry, -⟩ := run_spec hready hrun
  have hsteps : Steps ⟨⟨s.target, types, s.log⟩, constants⟩ es last.registry := hswept.steps
  refine ⟨es, last.registry, hsteps, hswept.first.sublist.trans List.filter_sublist, ?_, ?_⟩
  · rw [hregistry, hsteps.target_eq]
    rfl
  · rw [hregistry]

/-- A run on tables that speak of the module, even if they are not those of the module. -/
theorem Legible.barrierOn (h : s.Legible settings)
    (hlimit : settings.maxIdBound ≤ Settings.maxIdWord) {types : TypeTable}
    {constants : ConstantTable} (hr : Grounded ⟨⟨s.target, types, s.log⟩, constants⟩) :
    Legible settings (Pass.barrierOn types constants s).2 := by
  obtain ⟨ids, hprintable⟩ := h.printable
  obtain ⟨es, r, hsteps, hshifts, htarget, hcache⟩ :=
    barrierOn_spec h.wellFormed constants hr.types.formed
  have hlimit' : s.target.maxIdBound ≤ Settings.maxIdWord := by
    rw [Module.maxIdBound, h.settings]
    exact hlimit
  have hglobals : r.target.globals = (rewritten s.target es).globals := by
    rw [hsteps.target_eq]
    rfl
  have hgrounded := hr.steps hsteps
  refine ⟨?_, ?_, ⟨idsWith ids es, ?_⟩, ?_⟩
  · rw [htarget]
    exact h.settings
  · rw [htarget]
    exact wellFormed_rewritten hprintable hr hsteps h.wellFormed hlimit' hshifts
  · rw [htarget]
    exact printable_rewritten hprintable hr hsteps h.wellFormed hlimit' hshifts
  · rw [htarget, hcache]
    exact Cache.grounded_update (hglobals ▸ hgrounded.types) (hglobals ▸ hgrounded.constants) _

theorem Legible.run (h : s.Legible settings) (hlimit : settings.maxIdBound ≤ Settings.maxIdWord) :
    Legible settings (Pass.runBarrier s).2 := by
  have hmade := Cache.made_grounded s.target
  rcases hrun : Pass.runBarrier s with ⟨run, s'⟩
  cases passOutcome hrun with
  | noTypes htypes => exact h.withCache (hmade.requestTypes h.grounded htypes).1 s.log
  | noConstants htypes hconstants | pending htypes hconstants =>
    obtain ⟨hcache, -⟩ := hmade.requestTypes h.grounded htypes
    exact h.withCache (hmade.requestConstants hcache hconstants).1 s.log
  | tables htypes hconstants hon =>
    obtain ⟨hcache, hgrounded⟩ := hmade.requestTypes h.grounded htypes
    obtain ⟨hcache', hgrounded'⟩ := hmade.requestConstants hcache hconstants
    have hdone := (h.withCache hcache' s.log).barrierOn hlimit
      ⟨hgrounded _ rfl, hgrounded' _ rfl⟩
    rwa [hon] at hdone

/-- **Every step keeps the module printable.** -/
theorem Legible.step (h : s.Legible settings) (hlimit : settings.maxIdBound ≤ Settings.maxIdWord)
    (hstep : Step s s') : s'.Legible settings := by
  cases hstep with
  | run => exact h.run hlimit
  | request kind =>
    exact h.withCache ((Cache.made_grounded s.target).request h.grounded
      (rfl : s.cache.request s.target kind = _)) s.log
  | invalidate kind =>
    exact h.withCache (fun e he => h.grounded e (s.cache.subset_invalidate kind he)) s.log
  | invalidateExcept keep =>
    exact h.withCache (fun e he => h.grounded e (s.cache.subset_invalidateExcept keep he)) s.log
  | renew log => exact h.withCache (fun e he => absurd he List.not_mem_nil) log

theorem legible_of_parse {source : String} {m : Module}
    (hparse : Assembly.parse settings source = .ok m) (log : Log) :
    Legible settings { target := m, log } := by
  obtain ⟨hsettings, hprintable⟩ := Assembly.printable_of_parse hparse
  exact ⟨hsettings, Assembly.wellFormed_of_parse hparse, hprintable,
    fun e he => absurd he List.not_mem_nil⟩

theorem legible_of_steps {source : String} {m : Module}
    (hlimit : settings.maxIdBound ≤ Settings.maxIdWord)
    (hparse : Assembly.parse settings source = .ok m) {log : Log}
    (hsteps : Relation.ReflTransGen Step { target := m, log } s) : s.Legible settings := by
  induction hsteps with
  | refl => exact legible_of_parse hparse log
  | tail _ hstep ih => exact ih.step hlimit hstep

end Session

/-! ## The round trip -/

namespace Settings

theorem le_of_checkBound {value : SettingValue} {n : Nat} (h : checkBound value = .ok n) :
    n ≤ maxIdWord := by
  cases value with
  | number k =>
    rw [checkBound] at h
    split at h
    · next hrange =>
      cases h
      exact Int.toNat_le.2 hrange.2
    · cases h
  | flag b =>
    cases b with
    | false => cases h
    | true => cases h; decide
  | other => cases h

/-- Settings that were checked limit ids to 32-bit words, if the limit that was not checked does. -/
theorem maxIdBound_le_of_ofValues {maxIdBound validate : Option SettingValue} {fallback : Nat}
    {settings : Settings} (h : ofValues maxIdBound validate fallback = .ok settings)
    (hfallback : fallback ≤ maxIdWord) : settings.maxIdBound ≤ maxIdWord := by
  rw [ofValues, bind_eq_ok_iff] at h
  obtain ⟨bound, hbound, h⟩ := h
  rw [bind_eq_ok_iff] at h
  obtain ⟨flag, -, h⟩ := h
  cases h
  cases maxIdBound with
  | none =>
    cases hbound
    exact hfallback
  | some value =>
    rw [Option.mapM_some, map_eq_pure_bind, bind_eq_ok_iff] at hbound
    obtain ⟨n, hn, heq⟩ := hbound
    cases heq
    exact le_of_checkBound hn

end Settings

end ShiftBarrier
