import ShiftBarrier.Assembly
import ShiftBarrier.Proofs.Freshness

/-!
# What a cache serves

An analysis is entered before it runs, and nothing takes it out again when it fails.  So it fails
once: from then on it is served as it was left, until it is dropped.

* `Module.outcome` is how an analysis comes out when nothing is cached, and `Cache.attempt` how it
  comes out when types may be.
* `Cache.request_of_isCached` and `Cache.Reachable.request_fst` say what is answered.
* `Cache.Reachable.fresh_iff` says which entries are complete: those of analyses that come out well.
* `Cache.request_fails_once` puts this together; by `Cache.request_after_failure` types that cannot
  be analysed are served when they are asked for again.
-/

set_option autoImplicit false

namespace ShiftBarrier

/-- How an analysis of the module comes out. -/
def Module.outcome (m : Module) (kind : AnalysisKind) : Except Error Unit :=
  (Cache.request m kind {}).1

namespace Cache

variable {m : Module} {c : Cache} {kind : AnalysisKind} {e : CachedAnalysis}

/-! ## What was asked for -/

theorem isCached_push_self (c : Cache) (e : CachedAnalysis) :
    (c.push e).isCached e.kind = true := by
  rw [isCached, kinds_push, List.contains_iff_mem]
  exact List.mem_append_right _ (List.mem_singleton_self _)

theorem isCached_push (h : c.isCached kind = true) (e : CachedAnalysis) :
    (c.push e).isCached kind = true := by
  rw [isCached, List.contains_iff_mem] at h
  rw [isCached, kinds_push, List.contains_iff_mem]
  exact List.mem_append_left _ h

/-- **What was asked for is cached**, however it came out. -/
theorem isCached_request (c : Cache) (m : Module) (kind : AnalysisKind) :
    (c.request m kind).2.isCached kind = true := by
  rcases hrequest : c.request m kind with ⟨result, c'⟩
  cases requested hrequest with
  | cached hcached => exact hcached
  | noTypes | both => exact isCached_push (isCached_push_self c _) _
  | _ => exact isCached_push_self c _

/-! ## How analyses come out

An analysis comes out well or not for the module alone, but for the constants, which make do with
whatever types are cached. -/

/-- How an analysis comes out that is not cached.  The constants make do with cached types. -/
def attempt (c : Cache) (m : Module) (kind : AnalysisKind) : Except Error Unit :=
  if kind = .constants ∧ c.isCached .types = true then
    (ConstantTable.analyze m.declaredTypes m).1
  else m.outcome kind

theorem outcome_types (m : Module) : m.outcome .types = (TypeTable.analyze m).1 :=
  map_map_unit (TypeTable.analyze m).1 m.declaredTypes

theorem outcome_constants (m : Module) : m.outcome .constants
    = ((TypeTable.analyze m).1 >>= fun _ => (ConstantTable.analyze m.declaredTypes m).1) := by
  rcases hrequest : request m .constants {} with ⟨result, c⟩
  rw [Module.outcome, hrequest]
  cases requested hrequest with
  | cached hcached => cases hcached
  | constants _ htypes => cases htypes
  | noTypes _ _ herror =>
    rw [herror]
    rfl
  | both _ _ hok hanalyze =>
    rw [hok]
    exact hanalyze.symm

theorem outcome_constants_eq_ok_iff :
    m.outcome .constants = .ok () ↔ ∃ r, Registry.ofModule m = .ok r := by
  rw [outcome_constants, bind_eq_ok_iff]
  simp only [Registry.ofModule_eq_ok_iff]
  exact ⟨fun ⟨_, htypes, hconstants⟩ => ⟨_, htypes, hconstants, rfl⟩,
    fun ⟨_, htypes, hconstants, _⟩ => ⟨(), htypes, hconstants⟩⟩

/-- What comes out well when nothing is cached always does. -/
theorem attempt_of_outcome (h : m.outcome kind = .ok ()) : c.attempt m kind = .ok () := by
  rw [attempt]
  split
  · next hcase =>
    rw [hcase.1, outcome_constants, bind_eq_ok_iff] at h
    obtain ⟨-, -, hconstants⟩ := h
    exact hconstants
  · exact h

/-! ## Caches of a module that does not change

The module does not change here, so what is cached is all there is to know about a request. -/

namespace Reachable

/-- Types that are cached are the declared ones, as far as those can be read. -/
theorem types?_eq (h : Reachable m c) (hcached : c.isCached .types = true) :
    c.types? = some m.declaredTypes :=
  types?_of_isCached hcached fun t ht => h.sound (.types t) ht

theorem request_fst (h : Reachable m c) (hcached : c.isCached kind = false) :
    (c.request m kind).1 = c.attempt m kind := by
  rcases hrequest : c.request m kind with ⟨result, c'⟩
  cases requested hrequest with
  | cached htrue => cases hcached.symm.trans htrue
  | types _ hanalyze =>
    rw [attempt, if_neg (by simp), outcome_types]
    exact hanalyze.symm
  | constants _ htypes hanalyze =>
    have hthere : c.isCached .types = true := by
      rw [← isSome_types?, htypes]
      rfl
    obtain rfl := Option.some.inj (htypes.symm.trans (h.types?_eq hthere))
    rw [attempt, if_pos ⟨rfl, hthere⟩]
    exact hanalyze.symm
  | noTypes _ htypes herror =>
    rw [attempt, if_neg (by simp [htypes]), outcome_constants, herror]
    rfl
  | both _ htypes hok hanalyze =>
    rw [attempt, if_neg (by simp [htypes]), outcome_constants, hok]
    exact hanalyze.symm
  | defUse | abstract => rfl

/-- Definitions and uses are always those of the module. -/
theorem made_analyze (m : Module) :
    Made m fun e => ∀ t, e = .defUse t → t = DefUse.analyze m where
  types t heq := by cases heq
  pending t heq := by cases heq
  constants types t heq := by cases heq
  defUse t heq := by
    cases heq
    rfl
  abstract t heq := by cases heq

/-- What holds of all entries that an analysis may make holds of all that are reached. -/
theorem made {P : CachedAnalysis → Prop} (hmade : Made m P) (h : Reachable m c) :
    ∀ e ∈ c.entries, P e := by
  induction h with
  | empty => exact List.forall_mem_nil _
  | request _ kind ih => exact hmade.request ih rfl
  | @invalidate c _ kind ih => exact fun e he => ih e (c.subset_invalidate kind he)
  | @invalidateExcept c _ keep ih => exact fun e he => ih e (c.subset_invalidateExcept keep he)

/-- **An entry is complete exactly if its analysis comes out well.** -/
theorem fresh_iff (h : Reachable m c) (he : e ∈ c.entries) :
    e.Fresh m ↔ m.outcome e.kind = .ok () := by
  cases e with
  | types t =>
    obtain rfl : t = m.declaredTypes := h.sound _ he
    rw [CachedAnalysis.fresh_types_iff, CachedAnalysis.kind, outcome_types, and_iff_left rfl]
  | constants t =>
    rw [CachedAnalysis.fresh_constants_iff, CachedAnalysis.kind, outcome_constants_eq_ok_iff]
    refine exists_congr fun r => and_iff_left_of_imp fun hr => ?_
    obtain ⟨htypes, -, rfl⟩ := Registry.ofModule_eq_ok_iff.1 hr
    cases t with
    | some t => exact congrArg some (h.sound _ he)
    | none =>
      obtain ⟨error, herror⟩ := h.sound _ he
      rw [herror] at htypes
      cases htypes
  | defUse t =>
    rw [CachedAnalysis.fresh_defUse_iff]
    exact iff_of_true (h.made (made_analyze m) _ he t rfl) rfl
  | abstract =>
    refine iff_of_false CachedAnalysis.not_fresh_abstract fun hok => ?_
    cases hok

end Reachable

/-- **An analysis fails once.**  Whatever was asked for and dropped before, an analysis that is not
cached comes out as attempted, and one that is cached is served.  Asked for again it is served,
even if it failed; and what is served is complete exactly if the analysis comes out well. -/
theorem request_fails_once (h : Reachable m c) (kind : AnalysisKind) :
    (c.request m kind).1 = (if c.isCached kind = true then .ok () else c.attempt m kind) ∧
      (m.outcome kind = .ok () → (c.request m kind).1 = .ok ()) ∧
      (c.request m kind).2.request m kind = (.ok (), (c.request m kind).2) ∧
      ∀ e ∈ (c.request m kind).2.entries, e.kind = kind →
        (e.Fresh m ↔ m.outcome kind = .ok ()) := by
  have hresult : (c.request m kind).1
      = (if c.isCached kind = true then .ok () else c.attempt m kind) := by
    split
    · next hcached => rw [request_of_isCached hcached]
    · next hcached => exact h.request_fst (Bool.eq_false_iff.2 hcached)
  refine ⟨hresult, fun hok => ?_, request_of_isCached (isCached_request c m kind), ?_⟩
  · rw [hresult, attempt_of_outcome hok, ite_self]
  · rintro e he rfl
    exact (h.request e.kind).fresh_iff he

/-! ### An example -/

/-- A vector of voids. -/
def voidVectorText : String := "%1 = OpTypeVoid\n%2 = OpTypeVector %1 2\n"

/-- The module of that text. -/
def voidVector : Module :=
  { globals :=
      [{ opcode := "OpTypeVoid", result := some ⟨1, none⟩, serial := 0 },
       { opcode := "OpTypeVector", result := some ⟨2, none⟩,
         operands := [.id ⟨1, none⟩, .literal (.int 2) none], serial := 1 }]
    bound := 3
    nextSerial := 2 }

/-- The table that is left of the types. -/
def voidTypes : TypeTable := ⟨[(⟨1, none⟩, .void)]⟩

/-- The types have failed; the constants are then read with what is left of them. -/
theorem request_fails_once_voidVector :
    Reachable voidVector ⟨[.types voidTypes]⟩ ∧
      (request voidVector .constants ⟨[.types voidTypes]⟩).1 = .ok () ∧
      ¬ (CachedAnalysis.constants (some {})).Fresh voidVector := by
  have hreachable : Reachable voidVector ⟨[.types voidTypes]⟩ := .request .empty .types
  obtain ⟨hresult, -, -, hfresh⟩ := request_fails_once hreachable .constants
  have hmem : .constants (some {})
      ∈ (request voidVector .constants ⟨[.types voidTypes]⟩).2.entries :=
    List.mem_cons_of_mem _ List.mem_cons_self
  refine ⟨hreachable, hresult.trans rfl, ?_⟩
  rw [hfresh _ hmem rfl]
  exact nofun

/-- **A failed analysis is served.** -/
theorem request_after_failure :
    Assembly.parse {} voidVectorText = .ok voidVector ∧
      (∃ e, request voidVector .types {} = (.error e, ⟨[.types voidTypes]⟩)) ∧
      request voidVector .types ⟨[.types voidTypes]⟩ = (.ok (), ⟨[.types voidTypes]⟩) ∧
      ¬ (CachedAnalysis.types voidTypes).Fresh voidVector := by
  refine ⟨toOption_eq_some_iff.1 (by decide +kernel), ⟨_, rfl⟩, rfl, ?_⟩
  rw [CachedAnalysis.fresh_types_iff]
  rintro ⟨hok, -⟩
  cases hok

end Cache
end ShiftBarrier
