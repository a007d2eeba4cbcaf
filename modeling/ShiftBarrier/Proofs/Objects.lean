import Mathlib.Data.List.Nodup
import ShiftBarrier.Proofs.Serving

/-!
# Which analysis is served

A cache lists what its analyses hold.  This is not enough to tell whether an analysis that is served
is the same as before, or whether the constants refer to the types that are cached.  Here every
analysis is an object with a handle, the cache maps kinds to handles, and an object stays as it is
left when it is no longer cached.

* `ObjectCache` are the objects with the map; `ObjectCache.toCache` shows what is cached.
* `ObjectCache.Sound` says that every cached object has its tables, `ObjectCache.Linked` that cached
  constants refer to the cached types.
* `ObjectCache.Simulates` says that the objects show what the cache lists; `perform_simulates` that
  this is so after every call, with the same result.
* `CacheCall.Drops` says what a call drops; `mem_cached_perform_iff` that nothing else goes.
* `ObjectCache.served_after` is what holds after any calls.
-/

set_option autoImplicit false

namespace ShiftBarrier

/-- An analysis.  Its tables are missing until it has come to them, and after they were dropped. -/
inductive AnalysisObject
  | types (table : Option TypeTable)
  /-- With the handle of the types it refers to, once it has got them. -/
  | constants (types : Option Nat) (table : Option ConstantTable)
  | defUse (table : Option DefUse)
  | abstract

/-- What a cache lists of an analysis that was not dropped. -/
def AnalysisObject.view? : AnalysisObject → Option CachedAnalysis
  | .types t => t.map .types
  | .constants _ t => some (.constants t)
  | .defUse t => t.map .defUse
  | .abstract => some .abstract

/-- All objects that were made, and the handles of those that are cached. -/
structure ObjectCache where
  objects : List AnalysisObject := []
  cached : List (AnalysisKind × Nat) := []

/-- A call of a cache. -/
inductive CacheCall
  | request (kind : AnalysisKind)
  | invalidate (kind : AnalysisKind)
  | invalidateExcept (keep : List AnalysisKind)

/-- The call drops analyses of the kind. -/
def CacheCall.Drops : CacheCall → AnalysisKind → Prop
  | .request _, _ => False
  | .invalidate dropped, kind => kind = dropped ∨ kind = .constants ∧ dropped = .types
  | .invalidateExcept keep, kind => kind ∉ keep ∨ kind = .constants ∧ .types ∉ keep

instance (call : CacheCall) (kind : AnalysisKind) : Decidable (call.Drops kind) :=
  match call with
  | .request _ => inferInstanceAs (Decidable False)
  | .invalidate _ => inferInstanceAs (Decidable (_ ∨ _))
  | .invalidateExcept _ => inferInstanceAs (Decidable (_ ∨ _))

/-- Makes a call of a listing cache. -/
def CacheCall.onCache (m : Module) : CacheCall → Cache → Except Error Unit × Cache
  | .request kind, c => c.request m kind
  | .invalidate kind, c => (.ok (), c.invalidate kind)
  | .invalidateExcept keep, c => (.ok (), c.invalidateExcept keep)

namespace ObjectCache

/-- The kinds of the cached objects, in the order in which they were cached. -/
def kinds (s : ObjectCache) : List AnalysisKind := s.cached.map Prod.fst

/-- The cached object of a kind. -/
def handle? (s : ObjectCache) (kind : AnalysisKind) : Option Nat :=
  (s.cached.find? (·.1 == kind)).map Prod.snd

/-! ## Requests -/

/-- Makes an object and caches it. -/
def create (s : ObjectCache) (kind : AnalysisKind) (o : AnalysisObject) : ObjectCache :=
  { objects := s.objects ++ [o], cached := s.cached ++ [(kind, s.objects.length)] }

/-- Changes an object, cached or not. -/
def store (s : ObjectCache) (handle : Nat) (o : AnalysisObject) : ObjectCache :=
  { s with objects := s.objects.set handle o }

/-- The tables of types. -/
def typesAt? (s : ObjectCache) (handle : Nat) : Option TypeTable :=
  match s.objects[handle]? with
  | some (.types t) => t
  | _ => none

/-- Finds the types or makes them.  The object that is made is cached, whatever the analysis
says. -/
def requestTypes (m : Module) (s : ObjectCache) : Except Error Nat × ObjectCache :=
  match s.handle? .types with
  | some handle => (.ok handle, s)
  | none =>
    let (result, t) := TypeTable.analyze m
    (result.map fun _ => s.objects.length, s.create .types (.types (some t)))

/-- The constants are cached before they ask for the types. -/
def requestConstants (m : Module) (s : ObjectCache) : Except Error Nat × ObjectCache :=
  match s.handle? .constants with
  | some handle => (.ok handle, s)
  | none =>
    let handle := s.objects.length
    match (s.create .constants (.constants none none)).requestTypes m with
    | (.error e, s) => (.error e, s)
    | (.ok types, s) =>
      match s.typesAt? types with
      | none => (.error .noTables, s.store handle (.constants (some types) none))
      | some table =>
        let (result, t) := ConstantTable.analyze table m
        (result.map fun _ => handle, s.store handle (.constants (some types) (some t)))

/-- Finds the object of a kind or makes it. -/
def request (m : Module) (kind : AnalysisKind) (s : ObjectCache) :
    Except Error Nat × ObjectCache :=
  match kind with
  | .types => s.requestTypes m
  | .constants => s.requestConstants m
  | .defUse =>
    match s.handle? .defUse with
    | some handle => (.ok handle, s)
    | none => (.ok s.objects.length, s.create .defUse (.defUse (some (DefUse.analyze m))))
  | .abstract =>
    match s.handle? .abstract with
    | some handle => (.ok handle, s)
    | none => (.error (.notImplemented "IRAnalysis.analyze()"), s.create .abstract .abstract)

/-! ## Invalidation -/

/-- Objects are dropped from the cache, and are still there for those who hold them. -/
def drop (s : ObjectCache) (kind : AnalysisKind) : ObjectCache :=
  { s with cached := s.cached.filter (·.1 != kind) }

/-- The object goes first.  Types then invalidate the constants, before they drop their tables. -/
def invalidate (s : ObjectCache) (kind : AnalysisKind) : ObjectCache :=
  match kind with
  | .types =>
    match s.handle? .types with
    | some handle => ((s.drop .types).drop .constants).store handle (.types none)
    | none => s
  | .defUse =>
    match s.handle? .defUse with
    | some handle => (s.drop .defUse).store handle (.defUse none)
    | none => s
  | kind => s.drop kind

/-- Goes through the kinds that are cached at first. -/
def invalidateExcept (s : ObjectCache) (keep : List AnalysisKind) : ObjectCache :=
  (s.kinds.filter (· ∉ keep)).foldl invalidate s

/-- Makes a call, for the handle that a request returns. -/
def perform (m : Module) (s : ObjectCache) : CacheCall → Except Error (Option Nat) × ObjectCache
  | .request kind => let (result, s) := s.request m kind; (result.map some, s)
  | .invalidate kind => (.ok none, s.invalidate kind)
  | .invalidateExcept keep => (.ok none, s.invalidateExcept keep)

/-- Makes calls one after the other, whatever comes of them. -/
def performAll (m : Module) (calls : List CacheCall) (s : ObjectCache) : ObjectCache :=
  calls.foldl (fun s call => (s.perform m call).2) s

/-! ## Cached objects

A cache of objects stands for a cache of tables.  Objects are never given up, so an object that was
dropped from the cache may still be held, and even be changed. -/

/-- What the cache lists of an object. -/
def view? (s : ObjectCache) (handle : Nat) : Option CachedAnalysis :=
  s.objects[handle]?.bind AnalysisObject.view?

/-- The cache of tables that a cache of objects stands for. -/
def toCache (s : ObjectCache) : Cache := ⟨s.cached.filterMap fun entry => s.view? entry.2⟩

/-- Every cached object is of its kind and has its tables, and is cached once. -/
structure Sound (s : ObjectCache) : Prop where
  shown : ∀ entry ∈ s.cached, ∃ e, s.view? entry.2 = some e ∧ e.kind = entry.1
  nodup_kinds : (s.cached.map Prod.fst).Nodup
  nodup_handles : (s.cached.map Prod.snd).Nodup

/-- Cached constants refer to the cached types, once they refer to any. -/
def Linked (s : ObjectCache) : Prop :=
  ∀ handle, (.constants, handle) ∈ s.cached → ∃ types refers table,
    (.types, types) ∈ s.cached ∧ s.objects[handle]? = some (.constants refers table) ∧
      ∀ referred ∈ refers, referred = types

variable {m : Module} {s s' : ObjectCache} {kind : AnalysisKind} {handle : Nat}
  {o : AnalysisObject} {e : CachedAnalysis}

theorem Sound.lt_length (hs : s.Sound) {entry : AnalysisKind × Nat} (h : entry ∈ s.cached) :
    entry.2 < s.objects.length := by
  obtain ⟨e, he, -⟩ := hs.shown entry h
  obtain ⟨o, ho, -⟩ := Option.bind_eq_some_iff.1 he
  exact (List.getElem?_eq_some_iff.1 ho).1

theorem mem_of_handle? (h : s.handle? kind = some handle) : (kind, handle) ∈ s.cached := by
  obtain ⟨entry, hfind, rfl⟩ := Option.map_eq_some_iff.1 h
  have hkind : (entry.1 == kind) = true :=
    List.find?_some (p := fun entry : AnalysisKind × Nat => entry.1 == kind) hfind
  rw [← eq_of_beq hkind]
  exact List.mem_of_find?_eq_some hfind

theorem Sound.handle?_of_mem (hs : s.Sound) (h : (kind, handle) ∈ s.cached) :
    s.handle? kind = some handle := by
  cases hkind : s.handle? kind with
  | none =>
    rw [handle?, Option.map_eq_none_iff, List.find?_eq_none] at hkind
    exact absurd (beq_self_eq_true kind) (hkind _ h)
  | some found =>
    have heq := List.inj_on_of_nodup_map hs.nodup_kinds (mem_of_handle? hkind) h rfl
    rw [(Prod.mk.inj heq).2]

theorem isSome_handle? (s : ObjectCache) (kind : AnalysisKind) :
    (s.handle? kind).isSome = s.kinds.contains kind := by
  rw [handle?, Option.isSome_map, List.isSome_find?, kinds, List.contains_map]
  exact congrArg s.cached.any (funext fun entry => Bool.beq_comm)

theorem Sound.kinds_toCache (hs : s.Sound) : s.toCache.kinds = s.kinds := by
  rw [Cache.kinds, toCache, List.map_filterMap, kinds, ← List.filterMap_eq_map]
  refine List.filterMap_congr fun entry hentry => ?_
  obtain ⟨e, he, hkind⟩ := hs.shown entry hentry
  rw [he, Option.map_some, hkind]
  rfl

theorem Sound.isCached_toCache (hs : s.Sound) (kind : AnalysisKind) :
    s.toCache.isCached kind = (s.handle? kind).isSome := by
  rw [Cache.isCached, hs.kinds_toCache, isSome_handle?]

/-! ### Objects that are made -/

theorem view?_create_of_lt (h : handle < s.objects.length) :
    (s.create kind o).view? handle = s.view? handle := by
  rw [view?, create, List.getElem?_append_left h, view?]

theorem view?_create_self : (s.create kind o).view? s.objects.length = o.view? := by
  rw [view?, create, List.getElem?_concat_length, Option.bind_some]

theorem Sound.create (hs : s.Sound) (hnew : kind ∉ s.kinds) (hview : o.view? = some e)
    (hkind : e.kind = kind) : (s.create kind o).Sound := by
  refine ⟨?_, ?_, ?_⟩
  · intro entry hentry
    rcases List.mem_append.1 hentry with hentry | hentry
    · rw [view?_create_of_lt (hs.lt_length hentry)]
      exact hs.shown entry hentry
    · rw [List.mem_singleton.1 hentry, view?_create_self]
      exact ⟨e, hview, hkind⟩
  · rw [ObjectCache.create, List.map_append, List.map_singleton, ← List.concat_eq_append]
    exact List.Nodup.concat hnew hs.nodup_kinds
  · rw [ObjectCache.create, List.map_append, List.map_singleton, ← List.concat_eq_append]
    refine List.Nodup.concat (fun hmem => ?_) hs.nodup_handles
    obtain ⟨entry, hentry, hhandle⟩ := List.mem_map.1 hmem
    exact Nat.lt_irrefl _ (hhandle ▸ hs.lt_length hentry)

theorem Sound.toCache_create (hs : s.Sound) (hview : o.view? = some e) :
    (s.create kind o).toCache = s.toCache.push e := by
  have hold : s.cached.filterMap (fun entry => (s.create kind o).view? entry.2)
      = s.cached.filterMap fun entry => s.view? entry.2 :=
    List.filterMap_congr fun entry hentry => view?_create_of_lt (hs.lt_length hentry)
  have hlast : [(kind, s.objects.length)].filterMap (fun entry => (s.create kind o).view? entry.2)
      = [e] := by
    have hself : (s.create kind o).view? s.objects.length = o.view? := view?_create_self
    rw [List.filterMap_cons, hself, hview, List.filterMap_nil]
  rw [toCache, Cache.push, toCache, ← hold, ← hlast, ← List.filterMap_append]
  rfl

/-! ### Objects that are changed -/

theorem view?_store_of_ne {h : Nat} (hne : handle ≠ h) :
    (s.store handle o).view? h = s.view? h := by
  rw [view?, store, List.getElem?_set_ne hne, view?]

theorem view?_store_self (hlt : handle < s.objects.length) :
    (s.store handle o).view? handle = o.view? := by
  rw [view?, store, List.getElem?_set_self hlt, Option.bind_some]

/-- Constants that get their tables. -/
theorem Sound.store_constants (hs : s.Sound) (hmem : (.constants, handle) ∈ s.cached)
    (types : Option Nat) (t : ConstantTable) :
    (s.store handle (.constants types (some t))).Sound ∧
      (s.store handle (.constants types (some t))).toCache = s.toCache.setConstants t := by
  have hself := view?_store_self (o := .constants types (some t)) (hs.lt_length hmem)
  -- the other entries have other handles and are of other kinds
  have hother : ∀ entry ∈ s.cached, entry ≠ (.constants, handle) →
      handle ≠ entry.2 ∧ entry.1 ≠ .constants := by
    intro entry hentry hne
    exact ⟨fun heq => hne (List.inj_on_of_nodup_map hs.nodup_handles hentry hmem heq.symm),
      fun heq => hne (List.inj_on_of_nodup_map hs.nodup_kinds hentry hmem heq)⟩
  constructor
  · refine ⟨fun entry hentry => ?_, hs.nodup_kinds, hs.nodup_handles⟩
    by_cases heq : entry = (.constants, handle)
    · rw [heq]
      exact ⟨_, hself, rfl⟩
    · rw [view?_store_of_ne (hother entry hentry heq).1]
      exact hs.shown entry hentry
  · rw [toCache, Cache.setConstants, toCache, List.map_filterMap]
    refine congrArg Cache.mk (List.filterMap_congr fun entry hentry => ?_)
    obtain ⟨e, he, hkind⟩ := hs.shown entry hentry
    rw [he, Option.map_some]
    by_cases heq : entry = (.constants, handle)
    · rw [heq] at hkind ⊢
      rw [hself]
      cases e with
      | constants _ => rfl
      | _ => cases hkind
    · obtain ⟨hne, hnot⟩ := hother entry hentry heq
      rw [view?_store_of_ne hne, he]
      cases e with
      | constants _ => exact absurd hkind.symm hnot
      | _ => rfl

/-! ### Objects that are left -/

/-- Some entries are left, with their objects as they were. -/
structure Leaves (s : ObjectCache) (p : AnalysisKind → Bool) (s' : ObjectCache) : Prop where
  cached : s'.cached = s.cached.filter fun entry => p entry.1
  objects : ∀ entry ∈ s'.cached, s'.objects[entry.2]? = s.objects[entry.2]?
  length : s'.objects.length = s.objects.length

namespace Leaves

variable {p : AnalysisKind → Bool}

theorem mem (h : s.Leaves p s') {entry : AnalysisKind × Nat} :
    entry ∈ s'.cached ↔ entry ∈ s.cached ∧ p entry.1 = true := by
  rw [h.cached, List.mem_filter]

theorem sound (h : s.Leaves p s') (hs : s.Sound) : s'.Sound := by
  have hsub : s'.cached.Sublist s.cached := h.cached ▸ List.filter_sublist
  refine ⟨fun entry hentry => ?_, hs.nodup_kinds.sublist (hsub.map _),
    hs.nodup_handles.sublist (hsub.map _)⟩
  rw [view?, h.objects entry hentry]
  exact hs.shown entry (hsub.subset hentry)

theorem toCache_eq (h : s.Leaves p s') (hs : s.Sound) :
    s'.toCache = ⟨s.toCache.entries.filter (p ·.kind)⟩ := by
  rw [toCache, toCache, List.filter_filterMap, h.cached, List.filterMap_filter]
  refine congrArg Cache.mk (List.filterMap_congr fun entry hentry => ?_)
  obtain ⟨e, he, hkind⟩ := hs.shown entry hentry
  rw [he, Option.filter_some, hkind]
  by_cases hp : p entry.1 = true
  · rw [if_pos hp, if_pos hp, view?, h.objects entry (h.mem.2 ⟨hentry, hp⟩)]
    exact he
  · rw [if_neg hp, if_neg hp]

/-- Cached constants stay linked if they do not stay without the types. -/
theorem linked (h : s.Leaves p s') (hs : s.Linked)
    (hp : p .constants = true → p .types = true) : s'.Linked := by
  intro handle hmem
  obtain ⟨hold, hkept⟩ := h.mem.1 hmem
  obtain ⟨types, refers, table, htypes, hobject, hrefers⟩ := hs handle hold
  exact ⟨types, refers, table, h.mem.2 ⟨htypes, hp hkept⟩, (h.objects _ hmem).trans hobject,
    hrefers⟩

theorem refl_of (h : ∀ entry ∈ s.cached, p entry.1 = true) : s.Leaves p s :=
  ⟨(List.filter_eq_self.2 h).symm, fun _ _ => rfl, rfl⟩

theorem congr {q : AnalysisKind → Bool} (h : s.Leaves p s')
    (hpq : ∀ entry ∈ s.cached, p entry.1 = q entry.1) : s.Leaves q s' :=
  ⟨h.cached.trans (List.filter_congr hpq), h.objects, h.length⟩

theorem trans {q : AnalysisKind → Bool} {s'' : ObjectCache} (h : s.Leaves p s')
    (h' : s'.Leaves q s'') : s.Leaves (fun kind => p kind && q kind) s'' := by
  refine ⟨?_, fun entry hentry => ?_, h'.length.trans h.length⟩
  · rw [h'.cached, h.cached, List.filter_filter]
    exact List.filter_congr fun entry _ => Bool.and_comm _ _
  · exact (h'.objects entry hentry).trans (h.objects entry (h'.mem.1 hentry).1)

/-- An object that is dropped may change. -/
theorem store (h : s.Leaves p s') (hs : s.Sound) (hmem : (kind, handle) ∈ s.cached)
    (hp : p kind = false) (o : AnalysisObject) : s.Leaves p (s'.store handle o) := by
  refine ⟨h.cached, fun entry hentry => ?_, ?_⟩
  · obtain ⟨hold, hkept⟩ := h.mem.1 hentry
    have hne : handle ≠ entry.2 := by
      intro heq
      rw [List.inj_on_of_nodup_map hs.nodup_handles hold hmem heq.symm, hp] at hkept
      cases hkept
    rw [ObjectCache.store, List.getElem?_set_ne hne]
    exact h.objects entry hentry
  · rw [ObjectCache.store, List.length_set]
    exact h.length

end Leaves

theorem leaves_drop (s : ObjectCache) (kind : AnalysisKind) :
    s.Leaves (· != kind) (s.drop kind) :=
  ⟨rfl, fun _ _ => rfl, rfl⟩

/-- What is dropped with the types includes the constants. -/
theorem drops_constants {call : CacheCall} (h : call.Drops .types) : call.Drops .constants := by
  cases call with
  | request _ => exact h
  | invalidate dropped =>
    rcases h with h | ⟨h, -⟩
    · exact .inr ⟨rfl, h.symm⟩
    · cases h
  | invalidateExcept keep =>
    rcases h with h | ⟨h, -⟩
    · exact .inr ⟨rfl, h⟩
    · cases h

/-- What a call leaves. -/
def kept (call : CacheCall) (kind : AnalysisKind) : Bool := !decide (call.Drops kind)

theorem kept_iff {call : CacheCall} : kept call kind = true ↔ ¬ call.Drops kind := by
  rw [kept, Bool.not_eq_true', decide_eq_false_iff_not]

theorem kept_types {call : CacheCall} (h : kept call .constants = true) :
    kept call .types = true :=
  kept_iff.2 fun hdrops => kept_iff.1 h (drops_constants hdrops)

/-- **One analysis is invalidated**, and the constants with the types. -/
theorem leaves_invalidate (hs : s.Sound) (hl : s.Linked) (kind : AnalysisKind) :
    s.Leaves (kept (.invalidate kind)) (s.invalidate kind) := by
  cases kind with
  | types =>
    rw [invalidate]
    cases htypes : s.handle? .types with
    | none =>
      have hnot : ∀ handle, (.types, handle) ∉ s.cached := fun handle hmem => by
        rw [hs.handle?_of_mem hmem] at htypes
        cases htypes
      refine .refl_of fun entry hentry => kept_iff.2 ?_
      rintro (hkind | ⟨hkind, -⟩)
      · exact hnot entry.2 (hkind ▸ hentry)
      · obtain ⟨types, -, -, hmem, -⟩ := hl entry.2 (hkind ▸ hentry)
        exact hnot types hmem
    | some handle =>
      refine (((leaves_drop s .types).trans (leaves_drop _ .constants)).store hs
        (mem_of_handle? htypes) rfl _).congr fun entry _ => ?_
      cases entry.1 <;> rfl
  | constants => exact (leaves_drop s .constants).congr fun entry _ => by cases entry.1 <;> rfl
  | abstract => exact (leaves_drop s .abstract).congr fun entry _ => by cases entry.1 <;> rfl
  | defUse =>
    rw [invalidate]
    cases hdefUse : s.handle? .defUse with
    | none =>
      refine .refl_of fun entry hentry => kept_iff.2 ?_
      rintro (hkind | ⟨-, hkind⟩)
      · have hmem : (.defUse, entry.2) ∈ s.cached := hkind ▸ hentry
        rw [hs.handle?_of_mem hmem] at hdefUse
        cases hdefUse
      · cases hkind
    | some handle =>
      refine ((leaves_drop s .defUse).store hs (mem_of_handle? hdefUse) rfl _).congr
        fun entry _ => ?_
      cases entry.1 <;> rfl

/-- A listing cache whose constants are never without the types. -/
theorem invalidate_eq {c : Cache} (hc : c.isCached .constants = true → c.isCached .types = true)
    (kind : AnalysisKind) :
    c.invalidate kind = ⟨c.entries.filter fun e => kept (.invalidate kind) e.kind⟩ := by
  cases kind with
  | types =>
    rw [Cache.invalidate]
    by_cases htypes : c.isCached .types = true
    · rw [if_pos htypes, Cache.drop, Cache.drop, List.filter_filter]
      refine congrArg Cache.mk (List.filter_congr fun e _ => ?_)
      cases e.kind <;> rfl
    · rw [if_neg htypes]
      have hall : ∀ e ∈ c.entries, kept (.invalidate .types) e.kind = true := by
        intro e he
        have hcached : c.isCached e.kind = true :=
          List.contains_iff_mem.2 (List.mem_map_of_mem he)
        refine kept_iff.2 ?_
        rintro (hkind | ⟨hkind, -⟩)
        · exact htypes (hkind ▸ hcached)
        · exact htypes (hc (hkind ▸ hcached))
      rw [List.filter_eq_self.2 hall]
  | constants | defUse | abstract =>
    rw [Cache.invalidate, Cache.drop]
    · refine congrArg Cache.mk (List.filter_congr fun e _ => ?_)
      cases e.kind <;> rfl
    · decide

/-- The objects are sound and show what a cache lists. -/
structure Simulates (s : ObjectCache) (c : Cache) : Prop where
  sound : s.Sound
  linked : s.Linked
  toCache_eq : s.toCache = c

namespace Simulates

variable {c : Cache}

theorem isCached_eq (h : s.Simulates c) (kind : AnalysisKind) :
    c.isCached kind = (s.handle? kind).isSome := by
  rw [← h.toCache_eq, h.sound.isCached_toCache]

theorem kinds_eq (h : s.Simulates c) : c.kinds = s.kinds := by
  rw [← h.toCache_eq, h.sound.kinds_toCache]

theorem types_of_constants (h : s.Simulates c) (hcached : c.isCached .constants = true) :
    c.isCached .types = true := by
  rw [h.isCached_eq] at hcached ⊢
  obtain ⟨handle, hhandle⟩ := Option.isSome_iff_exists.1 hcached
  obtain ⟨types, -, -, htypes, -⟩ := h.linked handle (mem_of_handle? hhandle)
  rw [h.sound.handle?_of_mem htypes]
  rfl

theorem invalidate (h : s.Simulates c) (kind : AnalysisKind) :
    (s.invalidate kind).Simulates (c.invalidate kind) := by
  have hleaves := leaves_invalidate h.sound h.linked kind
  refine ⟨hleaves.sound h.sound, hleaves.linked h.linked kept_types, ?_⟩
  rw [hleaves.toCache_eq h.sound, h.toCache_eq, invalidate_eq h.types_of_constants]

/-- What is left after analyses of some kinds were invalidated, one after the other. -/
theorem foldl_invalidate (h : s.Simulates c) (dropped : List AnalysisKind) :
    (dropped.foldl ObjectCache.invalidate s).Simulates (dropped.foldl Cache.invalidate c) ∧
      s.Leaves (fun kind => dropped.all fun d => kept (.invalidate d) kind)
        (dropped.foldl ObjectCache.invalidate s) := by
  induction dropped generalizing s c with
  | nil => exact ⟨h, .refl_of fun _ _ => rfl⟩
  | cons d dropped ih =>
    obtain ⟨hrest, hleaves⟩ := ih (h.invalidate d)
    exact ⟨hrest, (leaves_invalidate h.sound h.linked d).trans hleaves⟩

/-- **All others are invalidated**: what is left is what is to be kept, except for constants that
would be without the types. -/
theorem invalidateExcept (h : s.Simulates c) (keep : List AnalysisKind) :
    (s.invalidateExcept keep).Simulates (c.invalidateExcept keep) ∧
      s.Leaves (kept (.invalidateExcept keep)) (s.invalidateExcept keep) := by
  obtain ⟨hsimulates, hleaves⟩ := h.foldl_invalidate (s.kinds.filter (· ∉ keep))
  rw [ObjectCache.invalidateExcept, Cache.invalidateExcept, h.kinds_eq]
  refine ⟨hsimulates, hleaves.congr fun entry hentry => ?_⟩
  have hmem : ∀ {entry}, entry ∈ s.cached →
      (entry.1 ∈ s.kinds.filter (· ∉ keep) ↔ entry.1 ∉ keep) := by
    intro entry hentry
    rw [List.mem_filter, decide_eq_true_eq]
    exact and_iff_right (List.mem_map_of_mem hentry)
  rw [Bool.eq_iff_iff, List.all_eq_true, kept_iff]
  constructor
  · rintro hall (hkind | ⟨hkind, htypes⟩)
    · exact kept_iff.1 (hall _ ((hmem hentry).2 hkind)) (.inl rfl)
    · obtain ⟨types, -, -, hcached, -⟩ := h.linked entry.2 (hkind ▸ hentry)
      exact kept_iff.1 (hall _ ((hmem hcached).2 htypes)) (.inr ⟨hkind, rfl⟩)
  · intro hkept d hd
    obtain ⟨-, hd⟩ := List.mem_filter.1 hd
    rw [decide_eq_true_eq] at hd
    refine kept_iff.2 ?_
    rintro (hkind | ⟨hkind, rfl⟩)
    · exact hkept (.inl (hkind ▸ hd))
    · exact hkept (.inr ⟨hkind, hd⟩)

end Simulates

/-! ### Requests -/

/-- Objects were made, and those that were there are as they were. -/
structure Extends (s s' : ObjectCache) : Prop where
  cached : ∃ new, s'.cached = s.cached ++ new ∧ ∀ entry ∈ new, s.objects.length ≤ entry.2
  length : s.objects.length ≤ s'.objects.length
  objects : ∀ handle < s.objects.length, s'.objects[handle]? = s.objects[handle]?

namespace Extends

theorem refl (s : ObjectCache) : s.Extends s :=
  ⟨⟨[], (List.append_nil _).symm, List.forall_mem_nil _⟩, Nat.le_refl _, fun _ _ => rfl⟩

theorem trans {s'' : ObjectCache} (h : s.Extends s') (h' : s'.Extends s'') : s.Extends s'' := by
  obtain ⟨new, hcached, hnew⟩ := h.cached
  obtain ⟨new', hcached', hnew'⟩ := h'.cached
  refine ⟨⟨new ++ new', ?_, ?_⟩, Nat.le_trans h.length h'.length, fun handle hlt => ?_⟩
  · rw [hcached', hcached, List.append_assoc]
  · intro entry hentry
    rcases List.mem_append.1 hentry with hentry | hentry
    · exact hnew entry hentry
    · exact Nat.le_trans h.length (hnew' entry hentry)
  · exact (h'.objects handle (Nat.lt_of_lt_of_le hlt h.length)).trans (h.objects handle hlt)

theorem create (s : ObjectCache) (kind : AnalysisKind) (o : AnalysisObject) :
    s.Extends (s.create kind o) := by
  refine ⟨⟨[(kind, s.objects.length)], rfl, ?_⟩, ?_, fun handle hlt => ?_⟩
  · exact List.forall_mem_singleton.2 (Nat.le_refl _)
  · rw [ObjectCache.create, List.length_append]
    exact Nat.le_add_right _ _
  · rw [ObjectCache.create, List.getElem?_append_left hlt]

/-- An object that was made may change. -/
theorem store (h : s.Extends s') (hhandle : s.objects.length ≤ handle) (o : AnalysisObject) :
    s.Extends (s'.store handle o) := by
  refine ⟨h.cached, ?_, fun old hlt => ?_⟩
  · rw [ObjectCache.store, List.length_set]
    exact h.length
  · rw [ObjectCache.store, List.getElem?_set_ne (by omega)]
    exact h.objects old hlt

theorem mem (h : s.Extends s') {entry : AnalysisKind × Nat} (hentry : entry ∈ s.cached) :
    entry ∈ s'.cached := by
  obtain ⟨new, hcached, -⟩ := h.cached
  rw [hcached]
  exact List.mem_append_left _ hentry

theorem mem_iff (h : s.Extends s') {entry : AnalysisKind × Nat}
    (hlt : entry.2 < s.objects.length) : entry ∈ s'.cached ↔ entry ∈ s.cached := by
  refine ⟨fun hentry => ?_, h.mem⟩
  obtain ⟨new, hcached, hnew⟩ := h.cached
  rw [hcached] at hentry
  rcases List.mem_append.1 hentry with hentry | hentry
  · exact hentry
  · exact absurd (hnew entry hentry) (Nat.not_le.2 hlt)

end Extends

/-- The linked constants stay the only ones. -/
theorem Linked.create (hl : s.Linked) (hs : s.Sound) (hkind : kind ≠ .constants)
    (o : AnalysisObject) : (s.create kind o).Linked := by
  intro handle hmem
  rcases List.mem_append.1 hmem with hmem | hmem
  · obtain ⟨types, refers, table, htypes, hobject, hrefers⟩ := hl handle hmem
    have hextends := Extends.create s kind o
    exact ⟨types, refers, table, hextends.mem htypes,
      (hextends.objects handle (hs.lt_length hmem)).trans hobject, hrefers⟩
  · exact absurd (Prod.mk.inj (List.mem_singleton.1 hmem)).1.symm hkind

/-- The cached types. -/
theorem Sound.types?_toCache (hs : s.Sound) (hmem : (.types, handle) ∈ s.cached) :
    ∃ table, s.view? handle = some (.types table) ∧ s.toCache.types? = some table := by
  have hcached : s.toCache.isCached .types = true := by
    rw [hs.isCached_toCache, hs.handle?_of_mem hmem]
    rfl
  rw [← Cache.isSome_types?] at hcached
  obtain ⟨table, htable⟩ := Option.isSome_iff_exists.1 hcached
  obtain ⟨entry, hentry, hview⟩ := List.mem_filterMap.1 (Cache.mem_of_types? htable)
  obtain ⟨e, he, hkind⟩ := hs.shown entry hentry
  rw [hview, Option.some.injEq] at he
  subst he
  obtain rfl : entry = (.types, handle) :=
    List.inj_on_of_nodup_map hs.nodup_kinds hentry hmem hkind.symm
  exact ⟨table, hview, htable⟩

theorem object_of_view? {table : TypeTable} (h : s.view? handle = some (.types table)) :
    s.objects[handle]? = some (.types (some table)) := by
  obtain ⟨o, ho, hview⟩ := Option.bind_eq_some_iff.1 h
  cases o with
  | types t =>
    obtain ⟨t, rfl, heq⟩ := Option.map_eq_some_iff.1 hview
    rw [ho, CachedAnalysis.types.inj heq]
  | constants _ _ => cases hview
  | defUse t =>
    obtain ⟨t, rfl, heq⟩ := Option.map_eq_some_iff.1 hview
    cases heq
  | abstract => cases hview

theorem typesAt?_of_view? {table : TypeTable} (h : s.view? handle = some (.types table)) :
    s.typesAt? handle = some table := by
  rw [typesAt?, object_of_view? h]

theorem not_mem_kinds (h : s.handle? kind = none) : kind ∉ s.kinds := by
  rw [← List.contains_iff_mem, ← isSome_handle?, h]
  exact Bool.false_ne_true

/-- What is known of the types that were asked for. -/
structure GivesTypes (m : Module) (s : ObjectCache) (result : Except Error Nat)
    (s' : ObjectCache) (handle : Nat) (table : TypeTable) : Prop where
  sound : s'.Sound
  extension : s.Extends s'
  mem : (.types, handle) ∈ s'.cached
  view?_eq : s'.view? handle = some (.types table)
  eq_of_ok : ∀ h, result = .ok h → h = handle
  request_eq : s.toCache.requestTypes m = (result.map fun _ => table, s'.toCache)

theorem requestTypes_of_none (h : s.handle? .types = none) :
    s.requestTypes m = ((TypeTable.analyze m).1.map fun _ => s.objects.length,
      s.create .types (.types (some m.declaredTypes))) := by
  rw [requestTypes, h]
  rfl

theorem requestTypes_gives (m : Module) (hs : s.Sound) :
    ∃ handle table, GivesTypes m s (s.requestTypes m).1 (s.requestTypes m).2 handle table := by
  cases htypes : s.handle? .types with
  | some handle =>
    rw [requestTypes, htypes]
    have hmem := mem_of_handle? htypes
    obtain ⟨table, hview, htable⟩ := hs.types?_toCache hmem
    refine ⟨handle, table, hs, .refl s, hmem, hview, fun h hok => (Except.ok.inj hok).symm, ?_⟩
    rw [Cache.requestTypes, htable]
    rfl
  | none =>
    have hcached : s.toCache.isCached .types = false := by
      rw [hs.isCached_toCache, htypes]
      rfl
    rw [requestTypes_of_none htypes]
    refine ⟨s.objects.length, m.declaredTypes,
      hs.create (not_mem_kinds htypes) (Option.map_some ..) rfl, .create _ _ _,
      List.mem_append_right _ List.mem_cons_self, view?_create_self, fun h hok => ?_, ?_⟩
    · exact eq_of_map_const hok
    · rw [Cache.requestTypes_of_isCached_eq_false hcached,
        hs.toCache_create (e := .types m.declaredTypes) rfl]
      cases (TypeTable.analyze m).1 <;> rfl

/-- What is known of a request. -/
structure Serves (m : Module) (kind : AnalysisKind) (s : ObjectCache) (c : Cache)
    (result : Except Error Nat) (s' : ObjectCache) : Prop where
  simulates : s'.Simulates (c.request m kind).2
  result_eq : result.map (fun _ => ()) = (c.request m kind).1
  extension : s.Extends s'
  served : ∃ handle, s'.handle? kind = some handle ∧ ∀ h, result = .ok h → h = handle

variable {c : Cache}

/-- **What is cached is served.** -/
theorem request_of_handle? (h : s.handle? kind = some handle) :
    s.request m kind = (.ok handle, s) := by
  cases kind with
  | types => rw [request, requestTypes, h]
  | constants => rw [request, requestConstants, h]
  | defUse => rw [request, h]
  | abstract => rw [request, h]

theorem serves_of_handle? (hs : s.Simulates c) (h : s.handle? kind = some handle) :
    Serves m kind s c (s.request m kind).1 (s.request m kind).2 := by
  have hcached : c.isCached kind = true := by
    rw [hs.isCached_eq, h]
    rfl
  rw [request_of_handle? h]
  refine ⟨?_, ?_, .refl s, handle, h, fun h hok => (Except.ok.inj hok).symm⟩
  · rw [Cache.request_of_isCached hcached]
    exact hs
  · rw [Cache.request_of_isCached hcached]
    rfl

/-- An object that is made at once. -/
theorem serves_of_create (hs : s.Simulates c) (h : s.handle? kind = none)
    (hkind : kind ≠ .constants) (hview : o.view? = some e) (hekind : e.kind = kind)
    {result : Except Error Nat} (hok : ∀ h, result = .ok h → h = s.objects.length)
    (hrequest : c.request m kind = (result.map fun _ => (), c.push e)) :
    Serves m kind s c result (s.create kind o) := by
  have hsound := hs.sound.create (not_mem_kinds h) hview hekind
  refine ⟨⟨hsound, hs.linked.create hs.sound hkind o, ?_⟩, ?_, .create s kind o, s.objects.length,
    hsound.handle?_of_mem (List.mem_append_right _ List.mem_cons_self), hok⟩
  · rw [hrequest, hs.sound.toCache_create hview, hs.toCache_eq]
  · rw [hrequest]

/-- Constants are linked if they refer to the cached types. -/
theorem Sound.linked_of (hs : s.Sound) {types : Nat} {refers : Option Nat}
    {table : Option ConstantTable} (hmem : (.constants, handle) ∈ s.cached)
    (htypes : (.types, types) ∈ s.cached)
    (hobject : s.objects[handle]? = some (.constants refers table))
    (hrefers : ∀ referred ∈ refers, referred = types) : s.Linked := by
  intro found hfound
  obtain rfl : handle = found :=
    (Prod.mk.inj (List.inj_on_of_nodup_map hs.nodup_kinds hmem hfound rfl)).2
  exact ⟨types, refers, table, htypes, hobject, hrefers⟩

/-- The constants ask for the types while they are cached themselves. -/
theorem serves_constants (hs : s.Simulates c) (h : s.handle? .constants = none) :
    Serves m .constants s c (s.requestConstants m).1 (s.requestConstants m).2 := by
  have hcached : ¬ c.isCached .constants = true := by
    rw [hs.isCached_eq, h]
    exact Bool.false_ne_true
  -- the types are asked for in the state in which the constants are there, but empty
  have hpush : c.push (.constants none) = (s.create .constants (.constants none none)).toCache := by
    rw [hs.sound.toCache_create (e := .constants none) rfl, hs.toCache_eq]
  have hsound := hs.sound.create (o := .constants none none) (e := .constants none)
    (not_mem_kinds h) rfl rfl
  have hmade := Extends.create s .constants (.constants none none)
  have hself : (.constants, s.objects.length)
      ∈ (s.create .constants (.constants none none)).cached :=
    List.mem_append_right _ List.mem_cons_self
  obtain ⟨types, table, hgives⟩ := requestTypes_gives m hsound
  rcases hasked : (s.create .constants (.constants none none)).requestTypes m with ⟨result, s₁⟩
  rw [hasked] at hgives
  rw [requestConstants, h, hasked]
  dsimp only at hgives
  have hextends := hmade.trans hgives.extension
  have hmem := hgives.extension.mem hself
  cases result with
  | error e =>
    have hrequest : c.request m .constants = (.error e, s₁.toCache) := by
      rw [Cache.request, Cache.requestConstants, if_neg hcached, hpush, hgives.request_eq]
      rfl
    -- the constants stay behind without their types
    have hobject : s₁.objects[s.objects.length]? = some (.constants none none) :=
      (hgives.extension.objects _ (hsound.lt_length hself)).trans List.getElem?_concat_length
    refine ⟨⟨hgives.sound, hgives.sound.linked_of hmem hgives.mem hobject ?_, ?_⟩, ?_, hextends,
      s.objects.length, hgives.sound.handle?_of_mem hmem, fun _ hok => by cases hok⟩
    · exact fun referred hreferred => absurd hreferred (Option.not_mem_none referred)
    · rw [hrequest]
    · rw [hrequest]
      rfl
  | ok found =>
    obtain rfl := hgives.eq_of_ok found rfl
    dsimp only
    rw [typesAt?_of_view? hgives.view?_eq]
    dsimp only
    rcases hanalyze : ConstantTable.analyze table m with ⟨outcome, t⟩
    have hrequest : c.request m .constants = (outcome, s₁.toCache.setConstants t) := by
      rw [Cache.request, Cache.requestConstants, if_neg hcached, hpush, hgives.request_eq]
      dsimp only [Except.map]
      rw [hanalyze]
      exact congrArg (·, _) (map_map_unit outcome _)
    obtain ⟨hstored, htoCache⟩ := hgives.sound.store_constants hmem (some found) t
    have hobject : (s₁.store s.objects.length (.constants (some found) (some t))).objects[
        s.objects.length]? = some (.constants (some found) (some t)) :=
      List.getElem?_set_self (hgives.sound.lt_length hmem)
    refine ⟨⟨hstored, hstored.linked_of hmem hgives.mem hobject ?_, ?_⟩, ?_,
      hextends.store (Nat.le_refl _) _, s.objects.length, hstored.handle?_of_mem hmem,
      fun _ hok => eq_of_map_const hok⟩
    · exact fun referred hreferred => (Option.some.inj hreferred).symm
    · rw [htoCache, hrequest]
    · rw [hrequest]
      exact map_map_unit outcome _

/-- **A request does to the objects what it does to the cache.** -/
theorem request_serves (hs : s.Simulates c) (m : Module) (kind : AnalysisKind) :
    Serves m kind s c (s.request m kind).1 (s.request m kind).2 := by
  cases h : s.handle? kind with
  | some handle => exact serves_of_handle? hs h
  | none =>
    have hcached : c.isCached kind = false := by
      rw [hs.isCached_eq, h]
      rfl
    cases kind with
    | types =>
      rw [request, requestTypes_of_none h]
      refine serves_of_create hs h (by decide) rfl rfl (fun _ hok => eq_of_map_const hok) ?_
      rw [Cache.request, Cache.requestTypes_of_isCached_eq_false hcached]
      cases (TypeTable.analyze m).1 <;> rfl
    | constants => exact serves_constants hs h
    | defUse =>
      have hnone : c.defUse? = none := by
        rw [← Option.not_isSome_iff_eq_none, Cache.isSome_defUse?, hcached]
        exact Bool.false_ne_true
      rw [request, h]
      refine serves_of_create hs h (by decide) rfl rfl (fun _ hok => (Except.ok.inj hok).symm) ?_
      rw [Cache.request, Cache.requestDefUse, hnone]
      rfl
    | abstract =>
      rw [request, h]
      refine serves_of_create hs h (by decide) rfl rfl (fun _ hok => by cases hok) ?_
      rw [Cache.request, Cache.requestAbstract, if_neg (by rw [hcached]; exact Bool.false_ne_true)]
      rfl

/-! ### Calls -/

/-- **Every call does to the objects what it does to the cache.** -/
theorem perform_simulates (hs : s.Simulates c) (m : Module) (call : CacheCall) :
    (s.perform m call).2.Simulates (call.onCache m c).2 ∧
      (s.perform m call).1.map (fun _ => ()) = (call.onCache m c).1 := by
  cases call with
  | request kind =>
    have hserves := request_serves hs m kind
    refine ⟨hserves.simulates, Eq.trans ?_ hserves.result_eq⟩
    show Except.map _ ((s.request m kind).1.map some) = _
    cases (s.request m kind).1 <;> rfl
  | invalidate kind => exact ⟨hs.invalidate kind, rfl⟩
  | invalidateExcept keep => exact ⟨(hs.invalidateExcept keep).1, rfl⟩

/-- **What a call drops is gone, and the rest stays**, of the objects that were made before. -/
theorem mem_cached_perform_iff (hs : s.Simulates c) (m : Module) (call : CacheCall)
    (hlt : handle < s.objects.length) :
    (kind, handle) ∈ (s.perform m call).2.cached ↔
      (kind, handle) ∈ s.cached ∧ ¬ call.Drops kind := by
  cases call with
  | request asked =>
    exact ((request_serves hs m asked).extension.mem_iff hlt).trans (and_iff_left id).symm
  | invalidate dropped =>
    exact (leaves_invalidate hs.sound hs.linked dropped).mem.trans (and_congr_right' kept_iff)
  | invalidateExcept keep =>
    exact (hs.invalidateExcept keep).2.mem.trans (and_congr_right' kept_iff)

theorem length_le_perform (hs : s.Simulates c) (m : Module) (call : CacheCall) :
    s.objects.length ≤ (s.perform m call).2.objects.length := by
  cases call with
  | request asked => exact (request_serves hs m asked).extension.length
  | invalidate dropped =>
    exact Nat.le_of_eq (leaves_invalidate hs.sound hs.linked dropped).length.symm
  | invalidateExcept keep => exact Nat.le_of_eq (hs.invalidateExcept keep).2.length.symm

theorem performAll_simulates (hs : s.Simulates c) (m : Module) (calls : List CacheCall) :
    (performAll m calls s).Simulates (calls.foldl (fun c call => (call.onCache m c).2) c) := by
  induction calls generalizing s c with
  | nil => exact hs
  | cons call calls ih => exact ih (perform_simulates hs m call).1

/-- **An object is served until it is dropped**, and then never again. -/
theorem mem_cached_performAll_iff (hs : s.Simulates c) (m : Module) (calls : List CacheCall)
    (hlt : handle < s.objects.length) :
    (kind, handle) ∈ (performAll m calls s).cached ↔
      (kind, handle) ∈ s.cached ∧ ∀ call ∈ calls, ¬ call.Drops kind := by
  induction calls generalizing s c with
  | nil => exact (and_iff_left (List.forall_mem_nil _)).symm
  | cons call calls ih =>
    have hnext := (perform_simulates hs m call).1
    rw [performAll, List.foldl_cons, ← performAll,
      ih hnext (Nat.lt_of_lt_of_le hlt (length_le_perform hs m call)),
      mem_cached_perform_iff hs m call hlt, List.forall_mem_cons, and_assoc]

theorem simulates_empty : Simulates {} {} :=
  ⟨⟨List.forall_mem_nil _, List.nodup_nil, List.nodup_nil⟩,
    fun _ hmem => absurd hmem List.not_mem_nil, rfl⟩

/-- **Which objects are served.**  After any calls, whatever came of them, the objects show what the
cache lists, and the next call comes out the same.  If constants are cached, the types are cached
with their tables, and it is them that the constants refer to.  A request caches an object also if
it fails, and returns no other; from then on this object is served until it is dropped, and never
again after that.  When all others are invalidated, what is left is what was cached and is to be
kept, less the constants if the types are not kept. -/
theorem served_after (m : Module) (calls : List CacheCall) :
    let s := performAll m calls {}
    s.toCache = calls.foldl (fun c call => (call.onCache m c).2) {} ∧
    (∀ call, (s.perform m call).1.map (fun _ => ()) = (call.onCache m s.toCache).1) ∧
    (∀ handle, s.handle? .constants = some handle → ∃ types table refers t,
      s.handle? .types = some types ∧ s.objects[types]? = some (.types (some table)) ∧
      s.objects[handle]? = some (.constants refers t) ∧
      ∀ referred ∈ refers, referred = types) ∧
    (∀ kind, ∃ handle, (s.request m kind).2.handle? kind = some handle ∧
      ∀ h, (s.request m kind).1 = .ok h → h = handle) ∧
    (∀ kind handle, s.handle? kind = some handle → s.request m kind = (.ok handle, s) ∧
      ∀ later, (performAll m later s).handle? kind = some handle ↔
        ∀ call ∈ later, ¬ call.Drops kind) ∧
    ∀ keep, (s.invalidateExcept keep).cached
      = s.cached.filter fun entry => entry.1 ∈ keep ∧ (entry.1 = .constants → .types ∈ keep) := by
  intro s
  have hs := performAll_simulates simulates_empty m calls
  refine ⟨hs.toCache_eq, fun call => ?_, fun handle hhandle => ?_, fun kind => ?_,
    fun kind handle hhandle => ⟨request_of_handle? hhandle, fun later => ?_⟩, fun keep => ?_⟩
  · rw [hs.toCache_eq]
    exact (perform_simulates hs m call).2
  · obtain ⟨types, refers, t, htypes, hobject, hrefers⟩ := hs.linked handle (mem_of_handle? hhandle)
    obtain ⟨table, hview, -⟩ := hs.sound.types?_toCache htypes
    exact ⟨types, table, refers, t, hs.sound.handle?_of_mem htypes, object_of_view? hview, hobject,
      hrefers⟩
  · exact (request_serves hs m kind).served
  · have hlater := performAll_simulates hs m later
    have hmem := mem_of_handle? hhandle
    rw [show (performAll m later s).handle? kind = some handle ↔
        (kind, handle) ∈ (performAll m later s).cached from
      ⟨mem_of_handle?, hlater.sound.handle?_of_mem⟩,
      mem_cached_performAll_iff hs m later (hs.sound.lt_length hmem)]
    exact and_iff_right hmem
  · rw [(hs.invalidateExcept keep).2.cached]
    refine List.filter_congr fun entry _ => ?_
    rw [Bool.eq_iff_iff, kept_iff, decide_eq_true_iff, CacheCall.Drops, not_or, not_and, not_not]
    simp only [not_not]

/-! ### An example -/

/-- The types fail, so the constants refer to none yet; they are served all the same. -/
theorem served_after_sample :
    Assembly.parse {} Cache.voidVectorText = .ok Cache.voidVector ∧
      let s := performAll Cache.voidVector [.request .constants] {}
      s.cached = [(.constants, 0), (.types, 1)] ∧
      s.request Cache.voidVector .constants = (.ok 0, s) ∧
      (performAll Cache.voidVector [.request .types, .invalidate .defUse] s).handle? .constants
        = some 0 ∧
      (s.invalidateExcept [.constants]).cached = [] := by
  obtain ⟨-, -, -, -, hserved, hexcept⟩ := served_after Cache.voidVector [.request .constants]
  obtain ⟨hrequest, hlater⟩ := hserved .constants 0 rfl
  have hkept : ∀ call ∈ [CacheCall.request .types, .invalidate .defUse],
      ¬ call.Drops .constants := by decide
  exact ⟨toOption_eq_some_iff.1 (by decide +kernel), rfl, hrequest, (hlater _).2 hkept,
    (hexcept [.constants]).trans rfl⟩

end ObjectCache
end ShiftBarrier
