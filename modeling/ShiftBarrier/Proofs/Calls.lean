import ShiftBarrier.Proofs.Cache
import ShiftBarrier.Proofs.Reading
import ShiftBarrier.Proofs.Registry

/-!
# Calls on cached tables

A session that has both tables cached declares types and constants on demand and enters them in the
tables.  The cached tables never fall behind the module.

* `Session.Call` is one call, `Session.InStep` what every call keeps.
* `Session.tables_of_calls`: whatever was called, a fresh analysis of the module succeeds and gives
  tables that answer alike.
* `Session.tables_amiss`: that is not so of zeros of integer types longer than any integer.
-/

set_option autoImplicit false

namespace ShiftBarrier

namespace Mirrored

variable {q : TypeRegistry} {k : ConstantTable}

/-- The tables of a module that was read are those of the module. -/
theorem start {m : Module} (hm : m.WellFormed) (honce : m.DefinedOnce) {r : Registry}
    (hr : Registry.ofModule m = .ok r) (log : Log) : Mirrored ⟨m, r.types, log⟩ r.constants := by
  obtain ⟨hok, hok', rfl⟩ := Registry.ofModule_eq_ok_iff.1 hr
  refine ⟨hm.bound_pos, fun id hid => ?_, honce.nodup_globals, Prod.ext hok rfl, _,
    Prod.ext hok' rfl, .refl _⟩
  obtain ⟨i, hi, hresult⟩ := List.mem_filterMap.1 hid
  have hmem : i ∈ m.instructions := List.mem_append_left _ (List.mem_append_right _ hi)
  exact hm.below i hmem id (List.mem_append_left _ (by simp [hresult]))

/-- A mirrored module can be analysed, and gives tables that answer alike. -/
theorem ofModule (h : Mirrored q k) : ∃ r, Registry.ofModule q.target = .ok r ∧
    r.types = q.types ∧ r.constants.Matches k := by
  obtain ⟨t, hanalyze, hmatches⟩ := h.constants
  refine ⟨⟨⟨q.target, q.types, []⟩, t⟩, ?_, rfl, hmatches⟩
  rw [Registry.ofModule, h.types]
  dsimp only
  rw [hanalyze]

/-- The constants may be read again. -/
theorem reread (h : Mirrored q k) : Mirrored q q.target.declaredConstants := by
  obtain ⟨t, hanalyze, -⟩ := h.constants
  refine ⟨h.bound_pos, h.below, h.once, h.types, t, hanalyze, ?_⟩
  rw [Module.declaredConstants, Module.declaredTypes, h.types, hanalyze]
  exact .refl t

end Mirrored

/-! ## Cached tables -/

namespace Cache

variable {c : Cache} {t t' : TypeTable} {k k' : ConstantTable}

theorem isCached_of_constants? (h : c.constants? = some k) : c.isCached .constants = true :=
  List.contains_iff_mem.2 (List.mem_map_of_mem (mem_of_constants? h))

theorem requestConstants_of_constants? (h : c.constants? = some k) (m : Module) :
    c.requestConstants m = (.ok (some k), c) := by
  rw [requestConstants, if_pos (isCached_of_constants? h), h]

theorem types?_setTypes (h : c.types? = some t) : (c.setTypes t').types? = some t' := by
  obtain ⟨entries⟩ := c
  rw [types?] at h
  rw [types?, setTypes]
  dsimp only at h ⊢
  induction entries with
  | nil => cases h
  | cons e es ih =>
    cases e with
    | types _ => rfl
    | _ => exact ih h

theorem types?_setConstants (c : Cache) (k : ConstantTable) :
    (c.setConstants k).types? = c.types? := by
  rw [types?, types?, setConstants, List.findSome?_map]
  congr 1
  funext e
  cases e <;> rfl

theorem constants?_setTypes (c : Cache) (t : TypeTable) :
    (c.setTypes t).constants? = c.constants? := by
  rw [constants?, constants?, setTypes, List.findSome?_map]
  congr 1
  funext e
  cases e <;> rfl

theorem constants?_setConstants (h : c.constants? = some k) :
    (c.setConstants k').constants? = some k' := by
  obtain ⟨entries⟩ := c
  rw [constants?] at h
  rw [constants?, setConstants]
  dsimp only at h ⊢
  induction entries with
  | nil => cases h
  | cons e es ih =>
    cases e with
    | constants _ => rfl
    | _ => exact ih h

end Cache

namespace Session

variable {α : Type} {s s' : Session} {types : TypeTable} {constants : ConstantTable}

/-- What it comes to to run an operation on types, with the table at hand or not. -/
theorem onTypes_run_eq (f : TypeRegistry → α × TypeRegistry) (s : Session) :
    (onTypes f).run.run s = match s.cache.requestTypes s.target with
      | (.error e, c) => (.error e, { s with cache := c })
      | (.ok types, c) =>
        let (a, q) := f ⟨s.target, types, s.log⟩
        (.ok a, { target := q.target, cache := c.setTypes q.types, log := q.log }) := by
  rw [onTypes, bind_run, Session.types, onCache_run]
  rcases s.cache.requestTypes s.target with ⟨_ | types, c⟩ <;> rfl

/-- What it comes to to run an operation on constants, with the tables at hand or not. -/
theorem onRegistry_run_eq (f : Registry → α × Registry) (s : Session) :
    (onRegistry f).run.run s = match s.cache.requestConstants s.target with
      | (.error e, c) => (.error e, { s with cache := c })
      | (.ok none, c) => (.error .noTables, { s with cache := c })
      | (.ok (some constants), c) => match c.requestTypes s.target with
        | (.error e, c) => (.error e, { s with cache := c })
        | (.ok types, c) =>
          let (a, r) := f ⟨⟨s.target, types, s.log⟩, constants⟩
          (.ok a, { target := r.target, log := r.log,
                    cache := (c.setTypes r.types).setConstants r.constants }) := by
  have hask : (Session.constants : Action ConstantTable).run.run s
      = match s.cache.requestConstants s.target with
        | (.error e, c) => (.error e, { s with cache := c })
        | (.ok none, c) => (.error .noTables, { s with cache := c })
        | (.ok (some constants), c) => (.ok constants, { s with cache := c }) := by
    rw [Session.constants, bind_run, constants?, onCache_run]
    rcases s.cache.requestConstants s.target with ⟨_ | _ | constants, c⟩ <;> rfl
  rw [onRegistry, bind_run, hask]
  rcases s.cache.requestConstants s.target with ⟨_ | _ | constants, c⟩
  · rfl
  · rfl
  · dsimp only
    rw [bind_run, Session.types, onCache_run]
    dsimp only
    rcases c.requestTypes s.target with ⟨_ | types, c'⟩ <;> rfl

/-- With the types at hand, an operation on types runs on them. -/
theorem onTypes_run (htypes : s.cache.types? = some types) (f : TypeRegistry → α × TypeRegistry) :
    (onTypes f).run.run s =
      (.ok (f ⟨s.target, types, s.log⟩).1,
        { target := (f ⟨s.target, types, s.log⟩).2.target
          cache := s.cache.setTypes (f ⟨s.target, types, s.log⟩).2.types
          log := (f ⟨s.target, types, s.log⟩).2.log }) := by
  rw [onTypes_run_eq, Cache.requestTypes_of_types? htypes]

/-- With both tables at hand, an operation runs on them. -/
theorem onRegistry_run (htypes : s.cache.types? = some types)
    (hconstants : s.cache.constants? = some constants) (f : Registry → α × Registry) :
    (onRegistry f).run.run s =
      (.ok (f ⟨⟨s.target, types, s.log⟩, constants⟩).1,
        { target := (f ⟨⟨s.target, types, s.log⟩, constants⟩).2.target
          cache := (s.cache.setTypes (f ⟨⟨s.target, types, s.log⟩, constants⟩).2.types).setConstants
            (f ⟨⟨s.target, types, s.log⟩, constants⟩).2.constants
          log := (f ⟨⟨s.target, types, s.log⟩, constants⟩).2.log }) := by
  rw [onRegistry_run_eq, Cache.requestConstants_of_constants? hconstants]
  dsimp only
  rw [Cache.requestTypes_of_types? htypes]

/-! ## Calls

Every call finds both tables cached and leaves them in step with the module, also if it fails; so
the same can be said of any number of calls. -/

/-- What may be asked of the cached tables of a session. -/
inductive Call : Session → Session → Prop
  | typeId {s : Session} {types : TypeTable} {type : Ty} (htypes : s.cache.types? = some types)
      (h : types.Admits type) : Call s ((onTypes (TypeRegistry.typeId type)).run.run s).2
  | vectorId {s : Session} {types : TypeTable} {element : Ty} (count : Int)
      (htypes : s.cache.types? = some types) (h : types.Admits element) :
      Call s ((onTypes (TypeRegistry.vectorId element count)).run.run s).2
  | constantId {s : Session} {types : TypeTable} {constants : ConstantTable} {c : Constant}
      (htypes : s.cache.types? = some types) (hconstants : s.cache.constants? = some constants)
      (h : Registry.Admits ⟨⟨s.target, types, s.log⟩, constants⟩ c) :
      Call s ((onRegistry (Registry.constantId c)).run.run s).2
  | zeroScalarId {s : Session} {w : Nat} {signed : Bool} (hpos : 0 < w)
      (hw : w ≤ Integer.maxBits) : Call s ((zeroScalarId (.int w signed)).run.run s).2
  | compositeId (s : Session) (type : Option Id) (components : List (Option Id)) :
      Call s ((compositeId type components).run.run s).2

/-- Both tables are cached, and they are those of the module. -/
def InStep (s : Session) : Prop :=
  ∃ types constants, s.cache.types? = some types ∧ s.cache.constants? = some constants ∧
    Mirrored ⟨s.target, types, s.log⟩ constants

theorem inStep_onTypes (htypes : s.cache.types? = some types)
    (hconstants : s.cache.constants? = some constants) {f : TypeRegistry → α × TypeRegistry}
    (h : Mirrored (f ⟨s.target, types, s.log⟩).2 constants) :
    InStep ((onTypes f).run.run s).2 := by
  rw [onTypes_run htypes]
  refine ⟨_, constants, Cache.types?_setTypes htypes, ?_, h⟩
  exact (Cache.constants?_setTypes _ _).trans hconstants

theorem inStep_onRegistry (htypes : s.cache.types? = some types)
    (hconstants : s.cache.constants? = some constants) {f : Registry → α × Registry}
    (h : Mirrored (f ⟨⟨s.target, types, s.log⟩, constants⟩).2.toTypeRegistry
      (f ⟨⟨s.target, types, s.log⟩, constants⟩).2.constants) :
    InStep ((onRegistry f).run.run s).2 := by
  rw [onRegistry_run htypes hconstants]
  refine ⟨_, _, ?_, Cache.constants?_setConstants (k := constants) ?_, h⟩
  · exact (Cache.types?_setConstants _ _).trans (Cache.types?_setTypes htypes)
  · exact (Cache.constants?_setTypes _ _).trans hconstants

/-- **Every call keeps the tables those of the module**, whether or not it gets an id. -/
theorem InStep.call (h : InStep s) (hcall : Call s s') : InStep s' := by
  obtain ⟨types, constants, htypes, hconstants, hmirrored⟩ := h
  cases hcall with
  | typeId htypes' hadmits =>
    obtain rfl := Option.some.inj (htypes.symm.trans htypes')
    exact inStep_onTypes htypes hconstants (hmirrored.typeId hadmits rfl).mirrored
  | vectorId count htypes' hadmits =>
    obtain rfl := Option.some.inj (htypes.symm.trans htypes')
    exact inStep_onTypes htypes hconstants (hmirrored.vectorId hadmits rfl)
  | constantId htypes' hconstants' hadmits =>
    obtain rfl := Option.some.inj (htypes.symm.trans htypes')
    obtain rfl := Option.some.inj (hconstants.symm.trans hconstants')
    exact inStep_onRegistry htypes hconstants
      (Mirrored.constantId (r := ⟨⟨s.target, types, s.log⟩, constants⟩) hmirrored hadmits rfl)
  | @zeroScalarId w signed hpos hw =>
    have hcall : zeroScalarId (.int w signed) = onRegistry (Registry.zeroScalarId w signed) := rfl
    rw [hcall]
    exact inStep_onRegistry htypes hconstants
      (Mirrored.zeroScalarId (r := ⟨⟨s.target, types, s.log⟩, constants⟩) hmirrored hpos hw rfl)
  | compositeId type components =>
    refine inStep_onRegistry htypes hconstants ?_
    split
    · exact Mirrored.compositeId (r := ⟨⟨s.target, types, s.log⟩, constants⟩) hmirrored rfl
    · exact hmirrored

/-- A session with the tables of a module that was read. -/
theorem inStep_of_ofModule {settings : Settings} {source : String} {m : Module}
    (hparse : Assembly.parse settings source = .ok m) (honce : m.DefinedOnce) {r : Registry}
    (hr : Registry.ofModule m = .ok r) {cache : Cache} (htypes : cache.types? = some r.types)
    (hconstants : cache.constants? = some r.constants) (log : Log) :
    InStep { target := m, cache, log } :=
  ⟨_, _, htypes, hconstants, .start (Assembly.wellFormed_of_parse hparse) honce hr log⟩

/-- **After any calls, a fresh analysis succeeds and gives tables that answer alike.** -/
theorem tables_of_calls {settings : Settings} {source : String} {m : Module}
    (hparse : Assembly.parse settings source = .ok m) (honce : m.DefinedOnce) {r : Registry}
    (hr : Registry.ofModule m = .ok r) {cache : Cache} (htypes : cache.types? = some r.types)
    (hconstants : cache.constants? = some r.constants) {log : Log} {s : Session}
    (hcalls : Relation.ReflTransGen Call { target := m, cache, log } s) :
    ∃ types constants fresh,
      s.cache.types? = some types ∧ s.cache.constants? = some constants ∧
      Registry.ofModule s.target = .ok fresh ∧
      (∀ id, fresh.types.type? id = types.type? id) ∧
      (∀ type, fresh.types.id? type = types.id? type) ∧
      (∀ id, Option.Rel Constant.Agrees (fresh.constants.constant? id) (constants.constant? id)) ∧
      ∀ c, fresh.constants.id? c = constants.id? c := by
  have hinStep : InStep s := by
    induction hcalls with
    | refl => exact inStep_of_ofModule hparse honce hr htypes hconstants log
    | tail _ hcall ih => exact ih.call hcall
  obtain ⟨types, constants, htypes, hconstants, hmirrored⟩ := hinStep
  obtain ⟨fresh, hfresh, rfl, hmatches⟩ := hmirrored.ofModule
  exact ⟨_, constants, fresh, htypes, hconstants, hfresh, fun _ => rfl, fun _ => rfl,
    hmatches.constant?, hmatches.id?_eq⟩

/-! ### An example -/

/-- A text that declares an integer type of 32 bits. -/
def wordText : String := "%1 = OpTypeInt 32 0\n"

/-- A module that declares an integer type and nothing else. -/
def declaringInt (width : Nat) : Module :=
  { globals :=
      [{ opcode := "OpTypeInt", result := some ⟨1, none⟩,
         operands := [.literal (.int width) none, .literal (.int 0) none], serial := 0 }]
    bound := 2
    nextSerial := 1 }

/-- The session of a module with both tables cached. -/
def cached (m : Module) : Session :=
  { target := m, cache := ⟨[.types m.declaredTypes, .constants (some m.declaredConstants)]⟩ }

theorem parse_wordText : Assembly.parse {} wordText = .ok (declaringInt 32) :=
  toOption_eq_some_iff.1 (by decide +kernel)

/-- A vector type and a zero. -/
theorem tables_of_calls_sample :
    Assembly.parse {} wordText = .ok (declaringInt 32) ∧ (declaringInt 32).DefinedOnce ∧
      (∃ r, Registry.ofModule (declaringInt 32) = .ok r) ∧
      ∃ s fresh, Relation.ReflTransGen Call (cached (declaringInt 32)) s ∧ s.target.bound = 4 ∧
        Registry.ofModule s.target = .ok fresh := by
  have honce : (declaringInt 32).DefinedOnce := by
    rw [Module.DefinedOnce]
    decide
  let s₀ := cached (declaringInt 32)
  let s₁ := ((onTypes (TypeRegistry.vectorId (.int 32 false) 2)).run.run s₀).2
  let s₂ := ((zeroScalarId (.int 32 false)).run.run s₁).2
  have hvector : Call s₀ s₁ := .vectorId 2 rfl (.inl (.int (by decide)))
  have hzero : Call s₁ s₂ := .zeroScalarId (by decide) (by decide)
  have hcalls : Relation.ReflTransGen Call s₀ s₂ := .tail (.single hvector) hzero
  obtain ⟨types, constants, fresh, -, -, hfresh, -⟩ :=
    tables_of_calls parse_wordText honce rfl rfl rfl hcalls
  exact ⟨parse_wordText, honce, ⟨_, rfl⟩, s₂, fresh, hcalls, rfl, hfresh⟩

/-- A text that declares one of `2 ^ 70` bits. -/
def wideText : String := "%1 = OpTypeInt 1180591620717411303424 0\n"

theorem parse_wideText : Assembly.parse {} wideText = .ok (declaringInt (2 ^ 70)) :=
  toOption_eq_some_iff.1 (by decide +kernel)

/-- **A zero may be entered that cannot be read again**: one of `2 ^ 70` bits. -/
theorem tables_amiss :
    Assembly.parse {} wideText = .ok (declaringInt (2 ^ 70)) ∧
      (declaringInt (2 ^ 70)).DefinedOnce ∧
      (∃ r, Registry.ofModule (declaringInt (2 ^ 70)) = .ok r) ∧
      ∃ s, (zeroScalarId (.int (2 ^ 70) false)).run.run (cached (declaringInt (2 ^ 70)))
        = (.ok ⟨2, none⟩, s) ∧ ∃ e, Registry.ofModule s.target = .error e := by
  refine ⟨parse_wideText, ?_, ⟨_, rfl⟩, _, rfl, _, rfl⟩
  rw [Module.DefinedOnce]
  decide

end Session
end ShiftBarrier
