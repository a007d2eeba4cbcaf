import ShiftBarrier.Proofs.Failure
import ShiftBarrier.Session

/-!
# What a cache holds

As long as a module does not change, its cache holds what the analyses of the module give, whatever
was asked for and dropped in between.  An analysis that fails leaves the table it had made by then.

* `Module.declaredTypes` and `Module.declaredConstants` are those tables.
* `Cache.Requested` says what can come of a request; whatever requests keep is proved from it.
* `Cache.Made` is what holds of all entries that come of requests, if it holds of what the analyses
  make.
* `Cache.Reachable` says that a cache comes from the empty one by requests and invalidations, and
  `Cache.Reachable.sound` what is in it then.
* `Session.tables_run_eq` says what a session gets when it asks for both tables.
-/

set_option autoImplicit false

namespace ShiftBarrier

/-- The types declared in a module, as far as its declarations can be read. -/
def Module.declaredTypes (m : Module) : TypeTable := (TypeTable.analyze m).2

/-- The constants declared in a module, as far as its declarations can be read. -/
def Module.declaredConstants (m : Module) : ConstantTable :=
  (ConstantTable.analyze m.declaredTypes m).2

/-- The registry of the tables of a module, also if they are only half-read. -/
def Registry.start (m : Module) (log : Log) : Registry :=
  ⟨⟨m, m.declaredTypes, log⟩, m.declaredConstants⟩

/-- The declarations of a module are sound if its registry can be made. -/
theorem Registry.ofModule_eq_ok_iff {m : Module} {r : Registry} :
    Registry.ofModule m = .ok r ↔ (TypeTable.analyze m).1 = .ok () ∧
      (ConstantTable.analyze m.declaredTypes m).1 = .ok () ∧ r = Registry.start m [] := by
  rw [Registry.ofModule, Registry.start, Module.declaredConstants, Module.declaredTypes]
  rcases TypeTable.analyze m with ⟨_ | ⟨⟨⟩⟩, types⟩
  · simp
  · rcases hconstants : ConstantTable.analyze types m with ⟨_ | ⟨⟨⟩⟩, constants⟩
    · simp [hconstants]
    · simp [hconstants, eq_comm]

/-- What an entry of a cache holds if the module has not changed since. -/
def CachedAnalysis.Sound (m : Module) : CachedAnalysis → Prop
  | .types t => t = m.declaredTypes
  | .constants (some t) => t = m.declaredConstants
  | .constants none => ∃ e, (TypeTable.analyze m).1 = .error e
  | .defUse _ | .abstract => True

namespace Cache

/-- Everything that is cached is what the module declares.  Definitions and uses are left out: the
barrier pass does not look at them. -/
def Sound (m : Module) (c : Cache) : Prop := ∀ e ∈ c.entries, e.Sound m

variable {m : Module} {c : Cache}

theorem mem_of_types? {t : TypeTable} (h : c.types? = some t) : .types t ∈ c.entries := by
  obtain ⟨e, he, heq⟩ := List.exists_of_findSome?_eq_some h
  cases e with
  | types t' => cases heq; exact he
  | _ => cases heq

theorem mem_of_constants? {t : ConstantTable} (h : c.constants? = some t) :
    .constants (some t) ∈ c.entries := by
  obtain ⟨e, he, heq⟩ := List.exists_of_findSome?_eq_some h
  cases e with
  | constants t' => cases heq; exact he
  | _ => cases heq

theorem mem_of_isCached {kind : AnalysisKind} (h : c.isCached kind = true) :
    ∃ e ∈ c.entries, e.kind = kind := by
  rw [isCached, List.contains_iff_mem, kinds] at h
  exact List.mem_map.1 h

theorem kind_ne_of_isCached_eq_false {kind : AnalysisKind} (h : c.isCached kind = false)
    {e : CachedAnalysis} (he : e ∈ c.entries) : e.kind ≠ kind := by
  rintro rfl
  refine Bool.eq_false_iff.1 h (List.contains_iff_mem.2 ?_)
  exact List.mem_map_of_mem he

/-- A table is there if its analysis is cached. -/
theorem isSome_findSome? {α : Type} {f : CachedAnalysis → Option α} {kind : AnalysisKind}
    (hf : ∀ e, (f e).isSome = (kind == e.kind)) (c : Cache) :
    (c.entries.findSome? f).isSome = c.isCached kind := by
  rw [List.isSome_findSome?, isCached, kinds, List.contains_map]
  exact congrArg c.entries.any (funext hf)

theorem isSome_types? (c : Cache) : c.types?.isSome = c.isCached .types :=
  isSome_findSome? (fun e => by cases e <;> rfl) c

theorem isSome_defUse? (c : Cache) : c.defUse?.isSome = c.isCached .defUse :=
  isSome_findSome? (fun e => by cases e <;> rfl) c

theorem types?_eq_none (h : c.isCached .types = false) : c.types? = none :=
  Option.not_isSome_iff_eq_none.1 (by rw [isSome_types?, h]; exact Bool.false_ne_true)

theorem defUse?_eq_none (h : c.isCached .defUse = false) : c.defUse? = none :=
  Option.not_isSome_iff_eq_none.1 (by rw [isSome_defUse?, h]; exact Bool.false_ne_true)

theorem exists_types? (h : c.isCached .types = true) : ∃ t, c.types? = some t :=
  Option.isSome_iff_exists.1 (c.isSome_types?.trans h)

/-! ## What comes of a request

A request answers and leaves a cache.  `Requested` says both, and with it what a failed request
leaves behind. -/

theorem requestTypes_of_types? {t : TypeTable} (h : c.types? = some t) (m : Module) :
    c.requestTypes m = (.ok t, c) := by
  rw [requestTypes, h]

theorem requestTypes_of_isCached_eq_false (h : c.isCached .types = false) :
    c.requestTypes m = ((TypeTable.analyze m).1.map fun _ => m.declaredTypes,
      c.push (.types m.declaredTypes)) := by
  rw [requestTypes, types?_eq_none h]
  rfl

/-- What is cached is served, however it came out. -/
theorem request_of_isCached {kind : AnalysisKind} (h : c.isCached kind = true) :
    c.request m kind = (.ok (), c) := by
  cases kind with
  | types =>
    obtain ⟨t, ht⟩ := exists_types? h
    rw [request, requestTypes_of_types? ht]
    rfl
  | constants =>
    rw [request, requestConstants, if_pos h]
    rfl
  | defUse =>
    obtain ⟨t, ht⟩ := Option.isSome_iff_exists.1 (c.isSome_defUse?.trans h)
    rw [request, requestDefUse, ht]
  | abstract => rw [request, requestAbstract, if_pos h]

/-- What comes of a request.  Constants ask for types after they are entered themselves, and are
entered without a table until they are read. -/
inductive Requested (m : Module) (c : Cache) :
    AnalysisKind → Except Error Unit → Cache → Prop
  | cached {kind : AnalysisKind} (hcached : c.isCached kind = true) :
      Requested m c kind (.ok ()) c
  | types {result : Except Error Unit} (hcached : c.isCached .types = false)
      (hanalyze : (TypeTable.analyze m).1 = result) :
      Requested m c .types result (c.push (.types m.declaredTypes))
  | constants {types : TypeTable} {result : Except Error Unit}
      (hcached : c.isCached .constants = false) (htypes : c.types? = some types)
      (hanalyze : (ConstantTable.analyze types m).1 = result) :
      Requested m c .constants result
        (c.push (.constants (some (ConstantTable.analyze types m).2)))
  | noTypes {e : Error} (hcached : c.isCached .constants = false)
      (htypes : c.isCached .types = false) (hanalyze : (TypeTable.analyze m).1 = .error e) :
      Requested m c .constants (.error e)
        ((c.push (.constants none)).push (.types m.declaredTypes))
  | both {result : Except Error Unit} (hcached : c.isCached .constants = false)
      (htypes : c.isCached .types = false) (hok : (TypeTable.analyze m).1 = .ok ())
      (hanalyze : (ConstantTable.analyze m.declaredTypes m).1 = result) :
      Requested m c .constants result
        ((c.push (.constants (some m.declaredConstants))).push (.types m.declaredTypes))
  | defUse (hcached : c.isCached .defUse = false) :
      Requested m c .defUse (.ok ()) (c.push (.defUse (DefUse.analyze m)))
  | abstract (hcached : c.isCached .abstract = false) :
      Requested m c .abstract (.error (.notImplemented "IRAnalysis.analyze()")) (c.push .abstract)

/-- There are no constants to be changed. -/
theorem setConstants_of_isCached_eq_false (h : c.isCached .constants = false)
    (t : ConstantTable) : c.setConstants t = c := by
  obtain ⟨entries⟩ := c
  refine congrArg Cache.mk ((List.map_congr_left fun e he => ?_).trans (List.map_id _))
  cases e with
  | constants t' => exact absurd rfl (kind_ne_of_isCached_eq_false h he)
  | _ => rfl

/-- Only the constants that were entered just now are changed. -/
theorem setConstants_push (h : c.isCached .constants = false) (t : ConstantTable)
    (pending : Option ConstantTable) :
    (c.push (.constants pending)).setConstants t = c.push (.constants (some t)) := by
  rw [push, setConstants, List.map_append, push]
  exact congrArg (Cache.mk <| · ++ _) (Cache.mk.inj (setConstants_of_isCached_eq_false h t))

theorem types?_push_constants (c : Cache) (pending : Option ConstantTable) :
    (c.push (.constants pending)).types? = c.types? := by
  rw [types?, push, List.findSome?_append, types?]
  exact Option.or_none

/-- The constants, if they are not cached. -/
theorem requested_constants (h : c.isCached .constants = false) :
    Requested m c .constants (c.request m .constants).1 (c.request m .constants).2 := by
  rw [request, requestConstants, if_neg (Bool.eq_false_iff.1 h)]
  cases htypes : c.isCached .types with
  | true =>
    obtain ⟨types, htypes⟩ := exists_types? htypes
    rw [requestTypes_of_types? ((types?_push_constants c none).trans htypes)]
    dsimp only
    rw [setConstants_push h, map_map_unit]
    exact .constants h htypes rfl
  | false =>
    have hpushed : (c.push (.constants none)).isCached .types = false := by
      rw [← isSome_types?, types?_push_constants, isSome_types?, htypes]
    rw [requestTypes_of_isCached_eq_false hpushed]
    cases hanalyze : (TypeTable.analyze m).1 with
    | error e => exact .noTypes h htypes hanalyze
    | ok _ =>
      have hset : ((c.push (.constants none)).push (.types m.declaredTypes)).setConstants
            m.declaredConstants
          = (c.push (.constants (some m.declaredConstants))).push (.types m.declaredTypes) := by
        rw [← setConstants_push h m.declaredConstants none, push, setConstants, List.map_append]
        rfl
      show Requested m c .constants (Except.map _ (Except.map _ _))
        (setConstants _ m.declaredConstants)
      rw [hset, map_map_unit]
      exact .both h htypes hanalyze rfl

theorem requested {kind : AnalysisKind} {result : Except Error Unit} {c' : Cache}
    (hrequest : c.request m kind = (result, c')) : Requested m c kind result c' := by
  suffices h : Requested m c kind (c.request m kind).1 (c.request m kind).2 by
    rwa [hrequest] at h
  cases hcached : c.isCached kind with
  | true =>
    rw [request_of_isCached hcached]
    exact .cached hcached
  | false =>
    cases kind with
    | types =>
      rw [request, requestTypes_of_isCached_eq_false hcached]
      dsimp only
      rw [map_map_unit]
      exact .types hcached rfl
    | constants => exact requested_constants hcached
    | defUse =>
      rw [request, requestDefUse, defUse?_eq_none hcached]
      exact .defUse hcached
    | abstract =>
      rw [request, requestAbstract, if_neg (Bool.eq_false_iff.1 hcached)]
      exact .abstract hcached

/-! ### Tables -/

section Tables

variable {c' : Cache}

theorem request_of_requestTypes {result : Except Error TypeTable}
    (h : c.requestTypes m = (result, c')) :
    c.request m .types = (result.map fun _ => (), c') := by
  rw [request, h]

theorem request_of_requestConstants {result : Except Error (Option ConstantTable)}
    (h : c.requestConstants m = (result, c')) :
    c.request m .constants = (result.map fun _ => (), c') := by
  rw [request, h]

/-- The types that are answered are cached then. -/
theorem mem_of_requestTypes {t : TypeTable} (h : c.requestTypes m = (.ok t, c')) :
    .types t ∈ c'.entries := by
  rw [requestTypes] at h
  cases htypes : c.types? with
  | some t' =>
    rw [htypes] at h
    cases h
    exact mem_of_types? htypes
  | none =>
    rw [htypes] at h
    obtain ⟨hresult, rfl⟩ := Prod.mk.inj h
    rw [eq_of_map_const hresult]
    exact List.mem_append_right _ (List.mem_singleton_self _)

/-- Nothing that is cached is given up for the types. -/
theorem subset_requestTypes {result : Except Error TypeTable}
    (h : c.requestTypes m = (result, c')) : c.entries ⊆ c'.entries := by
  have hrequested := requested (request_of_requestTypes h)
  generalize (result.map fun _ => ()) = answer at hrequested
  cases hrequested with
  | cached => exact List.Subset.refl _
  | types => exact List.subset_append_left _ _

/-- Constants that are cached without a table have none. -/
theorem mem_of_constants?_eq_none (hcached : c.isCached .constants = true)
    (h : c.constants? = none) : .constants none ∈ c.entries := by
  obtain ⟨e, he, hkind⟩ := mem_of_isCached hcached
  cases e with
  | constants t =>
    cases t with
    | none => exact he
    | some t => cases List.findSome?_eq_none_iff.1 h _ he
  | _ => cases hkind

/-- So are the constants. -/
theorem mem_of_requestConstants {t : Option ConstantTable}
    (h : c.requestConstants m = (.ok t, c')) : .constants t ∈ c'.entries := by
  rw [requestConstants] at h
  split at h
  · next hcached =>
    cases h
    cases hconstants : c.constants? with
    | some t => exact mem_of_constants? hconstants
    | none => exact mem_of_constants?_eq_none hcached hconstants
  · rcases htypes : (c.push (.constants none)).requestTypes m with ⟨_ | types, c₁⟩
    · rw [htypes] at h
      cases h
    · rw [htypes] at h
      obtain ⟨hresult, rfl⟩ := Prod.mk.inj h
      rw [eq_of_map_const hresult]
      have hpending : .constants none ∈ c₁.entries :=
        subset_requestTypes htypes (List.mem_append_right _ (List.mem_singleton_self _))
      exact List.mem_map.2 ⟨_, hpending, rfl⟩

end Tables

/-! ### Entries that are sound -/

theorem Sound.push (h : c.Sound m) {e : CachedAnalysis} (he : e.Sound m) :
    (c.push e).Sound m :=
  List.forall_mem_append.2 ⟨h, List.forall_mem_singleton.2 he⟩

theorem Sound.request (h : c.Sound m) {kind : AnalysisKind} {result : Except Error Unit}
    {c' : Cache} (hrequest : c.request m kind = (result, c')) : c'.Sound m := by
  have htypes : (CachedAnalysis.types m.declaredTypes).Sound m := rfl
  have hconstants : (CachedAnalysis.constants (some m.declaredConstants)).Sound m := rfl
  cases requested hrequest with
  | cached => exact h
  | types => exact h.push htypes
  | constants _ hcached =>
    obtain rfl := h _ (mem_of_types? hcached)
    exact h.push hconstants
  | @noTypes e _ _ herror =>
    have hpending : (CachedAnalysis.constants none).Sound m := ⟨e, herror⟩
    exact (h.push hpending).push htypes
  | both => exact (h.push hconstants).push htypes
  | defUse | abstract => exact h.push trivial

theorem Sound.requestTypes (h : c.Sound m) {t : TypeTable} {c' : Cache}
    (hrequest : c.requestTypes m = (.ok t, c')) : t = m.declaredTypes ∧ c'.Sound m :=
  have hsound := h.request (request_of_requestTypes hrequest)
  ⟨hsound _ (mem_of_requestTypes hrequest), hsound⟩

theorem Sound.requestConstants (h : c.Sound m) {t : Option ConstantTable} {c' : Cache}
    (hrequest : c.requestConstants m = (.ok t, c')) :
    t = some m.declaredConstants ∨ t = none ∧ ∃ e, (TypeTable.analyze m).1 = .error e := by
  have hsound := h.request (request_of_requestConstants hrequest)
  have hentry := hsound _ (mem_of_requestConstants hrequest)
  cases t with
  | some t => exact .inl (congrArg some hentry)
  | none => exact .inr ⟨rfl, hentry⟩

/-! ## Invalidation -/

theorem subset_drop (c : Cache) (kind : AnalysisKind) : (c.drop kind).entries ⊆ c.entries :=
  fun _ he => List.mem_of_mem_filter he

/-- Nothing new is entered. -/
theorem subset_invalidate (c : Cache) (kind : AnalysisKind) :
    (c.invalidate kind).entries ⊆ c.entries := by
  rw [Cache.invalidate.eq_def]
  split
  · split
    · exact fun _ he => c.subset_drop .types ((c.drop .types).subset_drop .constants he)
    · exact fun _ he => he
  · exact c.subset_drop _

theorem subset_invalidateExcept (c : Cache) (keep : List AnalysisKind) :
    (c.invalidateExcept keep).entries ⊆ c.entries := by
  rw [Cache.invalidateExcept]
  induction c.kinds.filter (· ∉ keep) generalizing c with
  | nil => exact fun _ he => he
  | cons kind kinds ih => exact fun _ he => c.subset_invalidate kind (ih _ he)

/-! ## What is entered

A property of entries that every analysis of the module gives its results holds of all caches that
are reachable by requests and invalidations, in any order. -/

/-- What holds of all entries that an analysis of a module may make. -/
structure Made (m : Module) (P : CachedAnalysis → Prop) : Prop where
  types : P (.types m.declaredTypes)
  pending : P (.constants none)
  constants : ∀ types, P (.constants (some (ConstantTable.analyze types m).2))
  defUse : P (.defUse (DefUse.analyze m))
  abstract : P .abstract

namespace Made

variable {P : CachedAnalysis → Prop}

theorem push (h : ∀ e ∈ c.entries, P e) {new : CachedAnalysis} (hnew : P new) :
    ∀ e ∈ (c.push new).entries, P e :=
  List.forall_mem_append.2 ⟨h, List.forall_mem_singleton.2 hnew⟩

/-- **Whatever is asked for**, only such entries are made. -/
theorem request (hmade : Made m P) (h : ∀ e ∈ c.entries, P e) {kind : AnalysisKind}
    {result : Except Error Unit} {c' : Cache} (hrequest : c.request m kind = (result, c')) :
    ∀ e ∈ c'.entries, P e := by
  cases requested hrequest with
  | cached => exact h
  | types => exact push h hmade.types
  | constants => exact push h (hmade.constants _)
  | noTypes => exact push (push h hmade.pending) hmade.types
  | both => exact push (push h (hmade.constants _)) hmade.types
  | defUse => exact push h hmade.defUse
  | abstract => exact push h hmade.abstract

theorem requestTypes (hmade : Made m P) (h : ∀ e ∈ c.entries, P e)
    {result : Except Error TypeTable} {c' : Cache} (hrequest : c.requestTypes m = (result, c')) :
    (∀ e ∈ c'.entries, P e) ∧ ∀ t, result = .ok t → P (.types t) := by
  have hentries := hmade.request h (request_of_requestTypes hrequest)
  exact ⟨hentries, fun t heq => hentries _ (mem_of_requestTypes (heq ▸ hrequest))⟩

theorem requestConstants (hmade : Made m P) (h : ∀ e ∈ c.entries, P e)
    {result : Except Error (Option ConstantTable)} {c' : Cache}
    (hrequest : c.requestConstants m = (result, c')) :
    (∀ e ∈ c'.entries, P e) ∧ ∀ t, result = .ok t → P (.constants t) := by
  have hentries := hmade.request h (request_of_requestConstants hrequest)
  exact ⟨hentries, fun t heq => hentries _ (mem_of_requestConstants (heq ▸ hrequest))⟩

end Made

/-- The caches a module may have that is not changed. -/
inductive Reachable (m : Module) : Cache → Prop
  | empty : Reachable m {}
  | request {c : Cache} (h : Reachable m c) (kind : AnalysisKind) :
      Reachable m (c.request m kind).2
  | invalidate {c : Cache} (h : Reachable m c) (kind : AnalysisKind) :
      Reachable m (c.invalidate kind)
  | invalidateExcept {c : Cache} (h : Reachable m c) (keep : List AnalysisKind) :
      Reachable m (c.invalidateExcept keep)

/-- **Whatever was asked for and dropped, the tables are those of the module.** -/
theorem Reachable.sound (h : Reachable m c) : c.Sound m := by
  induction h with
  | empty => exact fun e he => absurd he List.not_mem_nil
  | request _ kind ih => exact ih.request rfl
  | @invalidate c _ kind ih => exact fun e he => ih e (c.subset_invalidate kind he)
  | @invalidateExcept c _ keep ih => exact fun e he => ih e (c.subset_invalidateExcept keep he)

end Cache

/-! ## Sessions -/

namespace Session

variable {α β : Type} {s s' : Session}

theorem bind_run (x : Action α) (f : α → Action β) (s : Session) :
    (x >>= f).run.run s = match x.run.run s with
      | (.ok a, s') => (f a).run.run s'
      | (.error e, s') => (.error e, s') := by
  show (ExceptT.bind x f) s = _
  rw [ExceptT.bind, ExceptT.mk]
  show (ExceptT.bindCont f (x.run.run s).1) (x.run.run s).2 = _
  rcases x.run.run s with ⟨_ | _, s'⟩ <;> rfl

theorem onCache_run (f : Module → Cache → Except Error α × Cache) (s : Session) :
    (onCache f).run.run s
      = ((f s.target s.cache).1, { s with cache := (f s.target s.cache).2 }) := by
  have hget : (get : Action Session).run.run s = (.ok s, s) := rfl
  rw [onCache, bind_run, hget]
  dsimp only
  rcases f s.target s.cache with ⟨result, c⟩
  cases result <;> rfl

/-- What it comes to to ask for both tables. -/
theorem tables_run_eq (s : Session) :
    (do return (← types, ← constants?) : Action (TypeTable × Option ConstantTable)).run.run s
      = match s.cache.requestTypes s.target with
        | (.error e, c) => (.error e, { s with cache := c })
        | (.ok t, c) => match c.requestConstants s.target with
          | (.error e, c) => (.error e, { s with cache := c })
          | (.ok cs, c) => (.ok (t, cs), { s with cache := c }) := by
  rw [bind_run, types, onCache_run]
  rcases s.cache.requestTypes s.target with ⟨_ | t, c⟩
  · rfl
  · dsimp only
    rw [bind_run, constants?, onCache_run]
    rcases c.requestConstants s.target with ⟨_ | cs, c'⟩ <;> rfl

end Session
end ShiftBarrier
