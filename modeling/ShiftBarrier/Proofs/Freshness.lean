import ShiftBarrier.Proofs.Cache

/-!
# Fresh entries

* `CachedAnalysis.Fresh` says that an entry is what an analysis of the module as it is now would
  enter; the `fresh_iff` lemmas say what that means for each kind of analysis.
* `Cache.Holds` says which tables are cached, and `Cache.Holds.request` that requests do not change
  them.
* `Cache.Filled` are the caches that come of requests that succeed, and `Cache.Filled.fresh` says
  that all entries are fresh then.
* `Cache.kind_mem_of_invalidateExcept` is what is left by an invalidation.
-/

set_option autoImplicit false

namespace ShiftBarrier

/-! ## First requests -/

namespace Cache

theorem requestTypes_empty (m : Module) :
    requestTypes m {} = ((TypeTable.analyze m).1.map fun _ => m.declaredTypes,
      ⟨[.types m.declaredTypes]⟩) := rfl

theorem requestConstants_types (m : Module) :
    requestConstants m ⟨[.types m.declaredTypes]⟩ =
      ((ConstantTable.analyze m.declaredTypes m).1.map fun _ => some m.declaredConstants,
        ⟨[.types m.declaredTypes, .constants (some m.declaredConstants)]⟩) := rfl

end Cache

/-- A first request for the analysis would succeed now, and enter just this. -/
def CachedAnalysis.Fresh (m : Module) (e : CachedAnalysis) : Prop :=
  ∃ c, Cache.request m e.kind {} = (.ok (), c) ∧ e ∈ c.entries

namespace CachedAnalysis

variable {m : Module}

theorem fresh_types_iff {t : TypeTable} :
    (types t).Fresh m ↔ (TypeTable.analyze m).1 = .ok () ∧ t = m.declaredTypes := by
  rw [Fresh, kind, Cache.request, Cache.requestTypes_empty]
  cases (TypeTable.analyze m).1 <;> simp [Except.map]

/-- The constants are those of the registry: it takes both analyses to have them. -/
theorem fresh_constants_iff {t : Option ConstantTable} :
    (constants t).Fresh m ↔ ∃ r, Registry.ofModule m = .ok r ∧ t = some r.constants := by
  have hrequest : Cache.requestTypes m (Cache.push {} (.constants none))
      = ((TypeTable.analyze m).1.map fun _ => m.declaredTypes,
        ⟨[.constants none, .types m.declaredTypes]⟩) := rfl
  have hnot : ¬ Cache.isCached {} .constants = true := Bool.false_ne_true
  rw [Fresh, kind, Cache.request, Cache.requestConstants, if_neg hnot, hrequest]
  simp only [Registry.ofModule_eq_ok_iff]
  cases (TypeTable.analyze m).1 with
  | error e => simp [Except.map]
  | ok _ =>
    have hset : Cache.setConstants ⟨[.constants none, .types m.declaredTypes]⟩ m.declaredConstants
        = ⟨[.constants (some m.declaredConstants), .types m.declaredTypes]⟩ := rfl
    dsimp only [Except.map]
    rw [← Module.declaredConstants, hset]
    cases (ConstantTable.analyze m.declaredTypes m).1 <;> simp [Registry.start]

theorem fresh_defUse_iff {t : DefUse} : (defUse t).Fresh m ↔ t = DefUse.analyze m := by
  have hrequest : Cache.request m .defUse {} = (.ok (), ⟨[.defUse (DefUse.analyze m)]⟩) := rfl
  rw [Fresh, kind, hrequest]
  simp

theorem not_fresh_abstract : ¬ abstract.Fresh m := by
  rintro ⟨c, h, -⟩
  cases h

end CachedAnalysis

namespace Cache

variable {m : Module} {c c' : Cache} {k : ConstantTable}

/-! ## Tables that are entered again -/

theorem types?_of_isCached {types : TypeTable} (hcached : c.isCached .types = true)
    (htypes : ∀ t, .types t ∈ c.entries → t = types) : c.types? = some types := by
  cases h : c.types? with
  | some t => rw [htypes t (mem_of_types? h)]
  | none =>
    obtain ⟨e, he, hkind⟩ := mem_of_isCached hcached
    cases e with
    | types t => cases List.findSome?_eq_none_iff.1 h _ he
    | _ => cases hkind

theorem constants?_of_isCached (hcached : c.isCached .constants = true)
    (hconstants : ∀ t, .constants t ∈ c.entries → t = some k) : c.constants? = some k := by
  cases h : c.constants? with
  | some k' =>
    exact hconstants _ (mem_of_constants? h)
  | none =>
    obtain ⟨e, he, hkind⟩ := mem_of_isCached hcached
    cases e with
    | constants t =>
      rw [hconstants t he] at he
      cases List.findSome?_eq_none_iff.1 h _ he
    | _ => cases hkind

theorem setTypes_eq_self {t : TypeTable} (h : ∀ t', .types t' ∈ c.entries → t' = t) :
    c.setTypes t = c := by
  obtain ⟨entries⟩ := c
  refine congrArg Cache.mk ((List.map_congr_left fun e he => ?_).trans (List.map_id _))
  cases e with
  | types t' => exact congrArg _ (h t' he).symm
  | _ => rfl

theorem setConstants_eq_self (h : ∀ t, .constants t ∈ c.entries → t = some k) :
    c.setConstants k = c := by
  obtain ⟨entries⟩ := c
  refine congrArg Cache.mk ((List.map_congr_left fun e he => ?_).trans (List.map_id _))
  cases e with
  | constants t => exact congrArg _ (h t he).symm
  | _ => rfl

/-! ## Caches that hold given tables

While a pass runs, the cached tables are not those of the module but those it is working on.  What
is cached is then said relative to these. -/

/-- All cached tables are these. -/
structure Holds (types : TypeTable) (constants : ConstantTable) (c : Cache) : Prop where
  types : ∀ t, .types t ∈ c.entries → t = types
  constants : ∀ t, .constants t ∈ c.entries → t = some constants

namespace Holds

variable {t t' : TypeTable} {k' : ConstantTable}

theorem empty (t : TypeTable) (k : ConstantTable) : Holds t k {} :=
  ⟨fun _ ht => absurd ht List.not_mem_nil, fun _ ht => absurd ht List.not_mem_nil⟩

theorem setTypes (h : c.Holds t k) : (c.setTypes t').Holds t' k := by
  constructor
  · intro t₁ ht
    obtain ⟨e, -, heq⟩ := List.mem_map.1 ht
    cases e <;> cases heq
    rfl
  · intro t₁ ht
    obtain ⟨e, he, heq⟩ := List.mem_map.1 ht
    cases e <;> cases heq
    exact h.constants _ he

theorem setConstants (h : c.Holds t k) : (c.setConstants k').Holds t k' := by
  constructor
  · intro t₁ ht
    obtain ⟨e, he, heq⟩ := List.mem_map.1 ht
    cases e <;> cases heq
    exact h.types _ he
  · intro t₁ ht
    obtain ⟨e, -, heq⟩ := List.mem_map.1 ht
    cases e <;> cases heq
    rfl

theorem push (h : c.Holds t k) {e : CachedAnalysis} (htypes : ∀ t', e = .types t' → t' = t)
    (hconstants : ∀ o, e = .constants o → o = some k) : (c.push e).Holds t k := by
  constructor
  · intro t₁ ht
    rcases List.mem_append.1 ht with ht | ht
    · exact h.types _ ht
    · exact htypes _ (List.mem_singleton.1 ht).symm
  · intro t₁ ht
    rcases List.mem_append.1 ht with ht | ht
    · exact h.constants _ ht
    · exact hconstants _ (List.mem_singleton.1 ht).symm

theorem pushTypes (h : c.Holds t k) : (c.push (.types t)).Holds t k :=
  h.push (fun _ heq => by cases heq; rfl) (fun _ heq => by cases heq)

/-- Constants are entered if there are none. -/
theorem pushConstants (h : c.Holds t k) (hcached : c.isCached .constants = false)
    (k' : ConstantTable) : (c.push (.constants (some k'))).Holds t k' := by
  refine Holds.push ⟨h.types, fun o ho => ?_⟩ (fun _ heq => by cases heq)
    (fun _ heq => by cases heq; rfl)
  exact absurd rfl (kind_ne_of_isCached_eq_false hcached ho)

section

variable (hok : (TypeTable.analyze m).1 = .ok ())
include hok

theorem requestTypes (h : c.Holds m.declaredTypes k) :
    ∃ c' : Cache, c.requestTypes m = (.ok m.declaredTypes, c') ∧ c'.Holds m.declaredTypes k := by
  cases hcached : c.isCached .types with
  | true =>
    obtain ⟨t, ht⟩ := exists_types? hcached
    obtain rfl := h.types t (mem_of_types? ht)
    exact ⟨c, requestTypes_of_types? ht m, h⟩
  | false =>
    rw [requestTypes_of_isCached_eq_false hcached, hok]
    exact ⟨_, rfl, h.pushTypes⟩

/-- Whatever is asked for, the tables are those of the module. -/
theorem request (h : c.Holds m.declaredTypes k) {kind : AnalysisKind}
    {result : Except Error Unit} (hrequest : c.request m kind = (result, c')) :
    ∃ k', (k' = k ∨ k' = m.declaredConstants) ∧ c'.Holds m.declaredTypes k' := by
  cases requested hrequest with
  | cached => exact ⟨k, .inl rfl, h⟩
  | types => exact ⟨k, .inl rfl, h.pushTypes⟩
  | constants hcached htypes =>
    obtain rfl := h.types _ (mem_of_types? htypes)
    exact ⟨_, .inr rfl, h.pushConstants hcached _⟩
  | noTypes _ _ herror => cases hok.symm.trans herror
  | both hcached => exact ⟨_, .inr rfl, (h.pushConstants hcached _).pushTypes⟩
  | defUse | abstract =>
    exact ⟨k, .inl rfl, h.push (fun _ heq => by cases heq) (fun _ heq => by cases heq)⟩

/-- Constants that are not cached are read from the module. -/
theorem requestConstants (hok' : (ConstantTable.analyze m.declaredTypes m).1 = .ok ())
    (h : c.Holds m.declaredTypes k) :
    ∃ (c' : Cache) (k' : ConstantTable), c.requestConstants m = (.ok (some k'), c') ∧
      (k' = k ∨ k' = m.declaredConstants) ∧ c'.Holds m.declaredTypes k' := by
  rcases hrequest : c.requestConstants m with ⟨result, c'⟩
  have hanswer := request_of_requestConstants hrequest
  obtain ⟨k', hk, hholds⟩ := h.request hok hanswer
  cases result with
  | ok t =>
    obtain rfl := hholds.constants t (mem_of_requestConstants hrequest)
    exact ⟨c', k', rfl, hk, hholds⟩
  | error e =>
    have hrequested : Requested m c .constants (.error e) c' := requested hanswer
    cases hrequested with
    | constants _ htypes herror =>
      obtain rfl := h.types _ (mem_of_types? htypes)
      cases hok'.symm.trans herror
    | noTypes _ _ herror => cases hok.symm.trans herror
    | both _ _ _ herror => cases hok'.symm.trans herror

end

end Holds

/-! ## Caches that are fresh -/

/-- Everything that is cached is what a new analysis would give. -/
def Fresh (m : Module) (c : Cache) : Prop := ∀ e ∈ c.entries, e.Fresh m

namespace Fresh

theorem types_eq (h : c.Fresh m) {t : TypeTable} (ht : .types t ∈ c.entries) :
    t = m.declaredTypes :=
  (CachedAnalysis.fresh_types_iff.1 (h _ ht)).2

theorem constants_eq (h : c.Fresh m) {t : Option ConstantTable} (ht : .constants t ∈ c.entries) :
    t = some m.declaredConstants := by
  obtain ⟨r, hr, rfl⟩ := CachedAnalysis.fresh_constants_iff.1 (h _ ht)
  obtain ⟨-, -, rfl⟩ := Registry.ofModule_eq_ok_iff.1 hr
  rfl

theorem push (h : c.Fresh m) {e : CachedAnalysis} (he : e.Fresh m) : (c.push e).Fresh m :=
  List.forall_mem_append.2 ⟨h, List.forall_mem_singleton.2 he⟩

/-- **A request that succeeds enters what is fresh.** -/
theorem request (h : c.Fresh m) {kind : AnalysisKind}
    (hrequest : c.request m kind = (.ok (), c')) : c'.Fresh m := by
  have hconstants : (TypeTable.analyze m).1 = .ok () →
      (ConstantTable.analyze m.declaredTypes m).1 = .ok () →
      (CachedAnalysis.constants (some m.declaredConstants)).Fresh m := fun hok hok' =>
    CachedAnalysis.fresh_constants_iff.2 ⟨_, Registry.ofModule_eq_ok_iff.2 ⟨hok, hok', rfl⟩, rfl⟩
  cases requested hrequest with
  | cached => exact h
  | types _ hok => exact h.push (CachedAnalysis.fresh_types_iff.2 ⟨hok, rfl⟩)
  | constants _ htypes hok' =>
    obtain ⟨hok, rfl⟩ := CachedAnalysis.fresh_types_iff.1 (h _ (mem_of_types? htypes))
    exact h.push (hconstants hok hok')
  | both _ _ hok hok' =>
    exact (h.push (hconstants hok hok')).push (CachedAnalysis.fresh_types_iff.2 ⟨hok, rfl⟩)
  | defUse => exact h.push (CachedAnalysis.fresh_defUse_iff.2 rfl)

theorem requestTypes (h : c.Fresh m) {t : TypeTable} (hrequest : c.requestTypes m = (.ok t, c')) :
    ((TypeTable.analyze m).1 = .ok () ∧ t = m.declaredTypes) ∧ c'.Fresh m :=
  have hfresh := h.request (request_of_requestTypes hrequest)
  ⟨CachedAnalysis.fresh_types_iff.1 (hfresh _ (mem_of_requestTypes hrequest)), hfresh⟩

theorem requestConstants (h : c.Fresh m) {t : Option ConstantTable}
    (hrequest : c.requestConstants m = (.ok t, c')) :
    (∃ r, Registry.ofModule m = .ok r ∧ t = some r.constants) ∧ c'.Fresh m :=
  have hfresh := h.request (request_of_requestConstants hrequest)
  ⟨CachedAnalysis.fresh_constants_iff.1 (hfresh _ (mem_of_requestConstants hrequest)), hfresh⟩

end Fresh

/-- The caches that come of requests that succeed. -/
inductive Filled (m : Module) : Cache → Prop
  | empty : Filled m {}
  | request {c c' : Cache} {kind : AnalysisKind} (h : Filled m c)
      (hrequest : c.request m kind = (.ok (), c')) : Filled m c'

theorem Filled.fresh (h : Filled m c) : c.Fresh m := by
  induction h with
  | empty => exact List.forall_mem_nil _
  | request _ hrequest ih => exact ih.request hrequest

/-! ## Invalidation

To invalidate all but some kinds leaves none but these, though not always all of these: the
constants go with the types. -/

theorem kind_ne_of_drop {kind : AnalysisKind} {e : CachedAnalysis}
    (he : e ∈ (c.drop kind).entries) : e.kind ≠ kind :=
  bne_iff_ne.1 (List.mem_filter.1 he).2

/-- What is invalidated is gone. -/
theorem kind_ne_of_invalidate {kind : AnalysisKind} {e : CachedAnalysis}
    (he : e ∈ (c.invalidate kind).entries) : e.kind ≠ kind := by
  rw [invalidate.eq_def] at he
  split at he
  · split at he
    · exact kind_ne_of_drop ((c.drop .types).subset_drop .constants he)
    · next hcached =>
      intro hkind
      exact hcached (List.contains_iff_mem.2 (hkind ▸ List.mem_map_of_mem he))
  · exact kind_ne_of_drop he

/-- **Only what is to be kept is left.** -/
theorem kind_mem_of_invalidateExcept {keep : List AnalysisKind} {e : CachedAnalysis}
    (he : e ∈ (c.invalidateExcept keep).entries) : e.kind ∈ keep := by
  have hgone : ∀ (kinds : List AnalysisKind) (c : Cache), e ∈ (kinds.foldl invalidate c).entries →
      e ∈ c.entries ∧ e.kind ∉ kinds := by
    intro kinds
    induction kinds with
    | nil => exact fun c he => ⟨he, List.not_mem_nil⟩
    | cons kind kinds ih =>
      intro c he
      obtain ⟨hmem, hnot⟩ := ih _ he
      exact ⟨c.subset_invalidate kind hmem,
        List.not_mem_cons_of_ne_of_not_mem (kind_ne_of_invalidate hmem) hnot⟩
  obtain ⟨hmem, hnot⟩ := hgone _ c he
  by_contra hkeep
  refine hnot (List.mem_filter.2 ⟨List.mem_map_of_mem hmem, ?_⟩)
  exact decide_eq_true hkeep

theorem invalidateExcept_nil (c : Cache) : c.invalidateExcept [] = {} := by
  have hnone : (c.invalidateExcept []).entries = [] :=
    List.eq_nil_iff_forall_not_mem.2 fun e he =>
      List.not_mem_nil (kind_mem_of_invalidateExcept he)
  rw [← hnone]

end Cache
end ShiftBarrier
