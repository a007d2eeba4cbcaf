import ShiftBarrier.Proofs.Additions
import ShiftBarrier.Proofs.Barrier.Run
import ShiftBarrier.Proofs.Calls
import ShiftBarrier.Proofs.Freshness

/-!
# Asking for types and constants

A session whose tables are cached may be asked for the id of a type or of a constant, which is
declared if it is missing.  The tables can be read either way all the time, and an id that was once
given for something is given for it again.

* `Entity` is a type or a constant, with what the tables say of it.
* `Query` is what may be asked: `Query.call` runs it on a session, `Query.eval` on a registry, and
  `Query.wanted?` is the entity that it asks for.
* `Session.Opened` is a session to begin with, and `Session.Reaches` says that another comes of it
  by queries.
* `Session.two_way` is the theorem.
-/

set_option autoImplicit false

namespace ShiftBarrier

/-! ## Types and constants

Types and constants are looked up in the same way, so both are stated at once, for what an id may
stand for. -/

/-- What an id may stand for. -/
inductive Entity
  | type (t : Ty)
  | constant (c : Constant)

namespace Entity

/-- The id that the tables give for it. -/
def id? (r : Registry) : Entity → Option Id
  | .type t => r.types.id? t
  | .constant c => r.constants.id? c

/-- Whether an id stands for it in the tables. -/
def hasId (r : Registry) (id : Id) : Entity → Bool
  | .type t => (r.types.type? id).any (·.same t)
  | .constant c => (r.constants.constant? id).any (·.same c)

/-- Whether an instruction declares something of its kind. -/
def isOfKind (i : Instruction) : Entity → Bool
  | .type _ => i.isType
  | .constant _ => i.isConstant

/-- The first declaration of it in the global section. -/
def declaration? (r : Registry) (e : Entity) : Option Instruction :=
  r.target.globals.find? fun i => e.isOfKind i && i.result.any fun id => e.hasId r id

variable {r r' : Registry} {e : Entity} {id : Id}

/-- **The id of an entity stands for it.** -/
theorem hasId_of_id? (h : r.Indexed) (hid : e.id? r = some id) : e.hasId r id = true := by
  cases e with
  | type t =>
    obtain ⟨found, hfound, hsame⟩ := h.type?_of_id? hid
    rw [hasId, hfound, Option.any_some, hsame]
  | constant c =>
    obtain ⟨found, hfound, hsame⟩ := h.constant?_of_id? hid
    rw [hasId, hfound, Option.any_some, hsame]

/-- **An entity that an id stands for has the id of its first declaration.** -/
theorem id?_of_hasId (h : r.Indexed) (hid : e.hasId r id = true) :
    ∃ d key, e.declaration? r = some d ∧ d.result = some key ∧ e.id? r = some key := by
  cases e with
  | type t =>
    obtain ⟨found, hfound, hsame⟩ := (Option.any_eq_true _ _).1 hid
    obtain ⟨key, -, hmem⟩ := TypeTable.mem_of_type? hfound
    exact h.types.exists_declaration
      (fun entry hentry => TypeTable.type?_of_mem h.types_once hentry) (·.same t) hmem hsame
  | constant c =>
    obtain ⟨found, hfound, hsame⟩ := (Option.any_eq_true _ _).1 hid
    obtain ⟨key, -, hmem⟩ := ConstantTable.mem_of_constant? hfound
    exact h.constants.exists_declaration
      (fun entry hentry => ConstantTable.constant?_of_mem h.constants_once hentry) (·.same c) hmem
      hsame

/-- Additions take no id away. -/
theorem id?_extends (h : r.Extends r') (hid : e.id? r = some id) : e.id? r' = some id := by
  cases e with
  | type t => exact h.types_id? hid
  | constant c => exact h.constants_id? hid

end Entity

/-! ## Queries

A query is what a user of a session asks for.  It is proved on registries first, where nothing can
be stale. -/

/-- What may be asked for. -/
inductive Query
  | typeId (type : Ty)
  | vectorId (element : Ty) (count : Int)
  | constantId (c : Constant)
  | zeroScalarId (type : Ty)
  | compositeId (type : Option Id) (components : List (Option Id))
  | zeroId (type : Option Id)

namespace Query

/-- What a session does to answer. -/
def action : Query → Action Id
  | .typeId type => Session.onTypes (TypeRegistry.typeId type)
  | .vectorId element count => Session.onTypes (TypeRegistry.vectorId element count)
  | .constantId c => Session.onRegistry (Registry.constantId c)
  | .zeroScalarId type => Session.zeroScalarId type
  | .compositeId type components => Session.compositeId type components
  | .zeroId type => Session.zeroId type

/-- What a session answers, and what has become of it then. -/
def call (q : Query) (s : Session) : Except Error Id × Session := q.action.run.run s

/-- The zero of a type, if its type and the zero of its lanes are declared. -/
def zero? (r : Registry) : Ty → Option Constant
  | .int w s => some (.zero w s)
  | .vector (.int w s) n =>
    if 2 ≤ n ∧ (r.types.id? (.vector (.int w s) n)).isSome then
      (r.constants.id? (.zero w s)).map (Registry.zeros w s n)
    else none
  | _ => none

/-- What is asked for, none if there is no such thing. -/
def wanted? (r : Registry) : Query → Option Entity
  | .typeId type => some (.type type)
  | .vectorId element count =>
    if element.isScalar ∧ 2 ≤ count then some (.type (.vector element count.toNat)) else none
  | .constantId c => some (.constant c)
  | .zeroScalarId (.int w s) => some (.constant (.zero w s))
  | .zeroScalarId _ => none
  | .compositeId type components =>
    match type.bind r.types.type?, components.mapM id with
    | some (.vector element count), some components =>
      if count = components.length ∧ components.all r.constants.isDeclared then
        some (.constant (.composite (.vector element count) components))
      else none
    | _, _ => none
  | .zeroId type => ((type.bind r.types.type?).bind (zero? r)).map .constant

/-- What is done on a registry. -/
def eval (r : Registry) : Query → Id × Registry
  | .typeId type => r.onTypes (TypeRegistry.typeId type)
  | .vectorId element count => r.onTypes (TypeRegistry.vectorId element count)
  | .constantId c => Registry.constantId c r
  | .zeroScalarId (.int w s) => Registry.zeroScalarId w s r
  | .zeroScalarId _ => (Id.invalid, r)
  | .compositeId type components =>
    match type, components.mapM id with
    | some type, some components => Registry.compositeId type components r
    | _, _ => (Id.invalid, r)
  | .zeroId type => type.elim (Id.invalid, r) fun type => Registry.zeroId type r

/-- What may be asked for: declarations that are allowed, and no NaN. -/
def Allowed (p : Policy) : Query → Prop
  | .typeId type | .zeroScalarId type => p.type type
  | .vectorId element count =>
    element.isScalar = true → 2 ≤ count → p.type (.vector element count.toNat)
  | .constantId c => c.NaNFree ∧ p.type c.type ∧ ∀ t, p.constant t c
  | .compositeId _ _ | .zeroId _ => True

theorem eval_compositeId (r : Registry) (typeId : Id) (components : List (Option Id)) :
    (compositeId (some typeId) components).eval r
      = (components.mapM id).elim (Id.invalid, r) fun ids => Registry.compositeId typeId ids r := by
  rw [eval.eq_def]
  dsimp only
  cases components.mapM id <;> rfl

section Eval

variable {p : Policy} {q : Query} {r r' : Registry} {e : Entity} {key : Id}

/-! ### What is asked for -/

theorem zero?_eq_some_iff {type : Ty} {c : Constant} : zero? r type = some c ↔
    (∃ w s, type = .int w s ∧ c = .zero w s) ∨
      ∃ w s n z, type = .vector (.int w s) n ∧ 2 ≤ n ∧
        (r.types.id? (.vector (.int w s) n)).isSome = true ∧
        r.constants.id? (.zero w s) = some z ∧ c = Registry.zeros w s n z := by
  rw [zero?.eq_def]
  constructor
  · intro h
    split at h
    · cases h
      exact .inl ⟨_, _, rfl, rfl⟩
    · split at h
      · next hcount =>
        obtain ⟨z, hz, rfl⟩ := Option.map_eq_some_iff.1 h
        exact .inr ⟨_, _, _, z, rfl, hcount.1, hcount.2, hz, rfl⟩
      · cases h
    · cases h
  · rintro (⟨w, s, rfl, rfl⟩ | ⟨w, s, n, z, rfl, hn, hvector, hz, rfl⟩)
    · rfl
    · dsimp only
      rw [if_pos ⟨hn, hvector⟩, hz, Option.map_some]

/-- A query asks for an entity: what it needs to have been declared is declared. -/
inductive Wanted (r : Registry) : Query → Entity → Prop
  | type (type : Ty) : Wanted r (.typeId type) (.type type)
  | vector {element : Ty} {count : Int} (helement : element.isScalar = true) (hcount : 2 ≤ count) :
    Wanted r (.vectorId element count) (.type (.vector element count.toNat))
  | constant (c : Constant) : Wanted r (.constantId c) (.constant c)
  | scalar (w : Nat) (s : Bool) : Wanted r (.zeroScalarId (.int w s)) (.constant (.zero w s))
  | composite {typeId : Id} {components : List (Option Id)} {element : Ty} {ids : List Id}
    (htype : r.types.type? typeId = some (.vector element ids.length))
    (hids : components.mapM id = some ids) (hdeclared : ids.all r.constants.isDeclared = true) :
    Wanted r (.compositeId (some typeId) components)
      (.constant (.composite (.vector element ids.length) ids))
  | zero {typeId : Id} {type : Ty} {c : Constant} (htype : r.types.type? typeId = some type)
    (hzero : zero? r type = some c) : Wanted r (.zeroId (some typeId)) (.constant c)

theorem wanted?_eq_some_iff : q.wanted? r = some e ↔ Wanted r q e := by
  constructor
  · intro h
    cases q with
    | typeId type =>
      cases h
      exact .type type
    | vectorId element count =>
      obtain ⟨⟨helement, hcount⟩, ⟨⟩⟩ := Option.ite_none_right_eq_some.1 h
      exact .vector helement hcount
    | constantId c =>
      cases h
      exact .constant c
    | zeroScalarId type =>
      cases type with
      | int w s =>
        cases h
        exact .scalar w s
      | _ => cases h
    | compositeId type components =>
      rw [wanted?] at h
      split at h
      · next element count ids htype hids =>
        obtain ⟨⟨rfl, hdeclared⟩, ⟨⟩⟩ := Option.ite_none_right_eq_some.1 h
        obtain ⟨typeId, rfl, htype⟩ := Option.bind_eq_some_iff.1 htype
        exact .composite htype hids hdeclared
      · cases h
    | zeroId type =>
      obtain ⟨c, hc, rfl⟩ := Option.map_eq_some_iff.1 h
      obtain ⟨t, ht, hzero⟩ := Option.bind_eq_some_iff.1 hc
      obtain ⟨typeId, rfl, htype⟩ := Option.bind_eq_some_iff.1 ht
      exact .zero htype hzero
  · intro h
    cases h with
    | type | constant | scalar => rfl
    | vector helement hcount => exact if_pos ⟨helement, hcount⟩
    | composite htype hids hdeclared =>
      rw [wanted?, hids, Option.bind_some, htype]
      exact if_pos ⟨rfl, hdeclared⟩
    | zero htype hzero =>
      rw [wanted?, Option.bind_some, htype, Option.bind_some, hzero, Option.map_some]

theorem Wanted.extends (hextends : r.Extends r') (h : r.Indexed) (hwanted : Wanted r q e) :
    Wanted r' q e := by
  cases hwanted with
  | type type => exact .type type
  | vector helement hcount => exact .vector helement hcount
  | constant c => exact .constant c
  | scalar w s => exact .scalar w s
  | composite htype hids hdeclared =>
    exact .composite (hextends.type? h htype) hids (hextends.all_isDeclared hdeclared)
  | zero htype hzero =>
    refine .zero (hextends.type? h htype) (zero?_eq_some_iff.2 ?_)
    obtain hscalar | ⟨w, s, n, z, rfl, hn, hvector, hz, rfl⟩ := zero?_eq_some_iff.1 hzero
    · exact .inl hscalar
    · exact .inr ⟨w, s, n, z, rfl, hn, hextends.isSome_types_id? hvector,
        hextends.constants_id? hz, rfl⟩

/-! ### What is given for it -/

/-- A composite has the id of a composite of that type, made of those constants. -/
theorem eval_compositeId_spec (h : r.Indexed) {type : Option Id} {components : List (Option Id)}
    (heval : (compositeId type components).eval r = (key, r')) : Registry.Builds p r r' ∧
      (key.isValid = true → ∃ e, (compositeId type components).wanted? r' = some e ∧
        e.id? r' = some key) := by
  cases type with
  | none =>
    cases heval
    exact ⟨.refl, Id.absurd_invalid⟩
  | some typeId =>
    rw [eval_compositeId] at heval
    cases hids : components.mapM id with
    | none =>
      rw [hids, Option.elim_none] at heval
      cases heval
      exact ⟨.refl, Id.absurd_invalid⟩
    | some ids =>
      rw [hids, Option.elim_some] at heval
      obtain ⟨hbuilds, hid⟩ := Registry.compositeId_obtains h heval
      refine ⟨hbuilds, fun hvalid => ?_⟩
      obtain ⟨element, htype, hdeclared, hfound⟩ := hid hvalid
      have hextends := Registry.Extends.builds hbuilds
      exact ⟨_, wanted?_eq_some_iff.2 (.composite (hextends.type? h htype) hids
        (hextends.all_isDeclared hdeclared)), hfound⟩

/-- So has the zero of a type. -/
theorem eval_zeroId_spec (h : r.Indexed) {type : Option Id}
    (heval : (zeroId type).eval r = (key, r')) : Registry.Builds p r r' ∧
      (key.isValid = true → ∃ e, (zeroId type).wanted? r' = some e ∧ e.id? r' = some key) := by
  cases type with
  | none =>
    cases heval
    exact ⟨.refl, Id.absurd_invalid⟩
  | some typeId =>
    rw [eval, Option.elim_some] at heval
    cases Registry.zeroId_outcome heval with
    | scalar htype heval =>
      obtain ⟨hbuilds, hid⟩ :=
        Registry.zeroScalarId_obtains (.inr (h.isSome_id?_of_type? htype)) heval
      exact ⟨hbuilds, fun hvalid => ⟨_, wanted?_eq_some_iff.2
        (.zero ((Registry.Extends.builds hbuilds).type? h htype) rfl), hid hvalid⟩⟩
    | vector htype heval =>
      have hvector := h.isSome_id?_of_type? htype
      obtain ⟨hbuilds, hid⟩ :=
        Registry.zeroVectorId_obtains h (h.isSome_id?_of_element htype) hvector heval
      have hextends := Registry.Extends.builds hbuilds
      refine ⟨hbuilds, fun hvalid => ?_⟩
      obtain ⟨hn, z, hz, hzeros⟩ := hid hvalid
      exact ⟨_, wanted?_eq_some_iff.2 (.zero (hextends.type? h htype) (zero?_eq_some_iff.2
        (.inr ⟨_, _, _, z, rfl, hn, hextends.isSome_types_id? hvector, hz, rfl⟩))), hzeros⟩
    | other _ hid hr =>
      rw [hid, hr]
      exact ⟨.refl, Id.absurd_invalid⟩

/-- **Asking adds declarations**, and whatever id is given is the one of what was asked for. -/
theorem eval_spec (h : r.Indexed) (hq : q.Allowed p) (heval : q.eval r = (key, r')) :
    Registry.Builds p r r' ∧
      (key.isValid = true → ∃ e, q.wanted? r' = some e ∧ e.id? r' = some key) := by
  cases q with
  | typeId type =>
    rw [eval, Registry.onTypes] at heval
    rcases hrun : TypeRegistry.typeId type r.toTypeRegistry with ⟨id', q⟩
    have hobtains := TypeRegistry.typeId_obtains r.constants (.inl hq) hrun
    rw [hrun] at heval
    cases heval
    exact ⟨hobtains.builds, fun hvalid => ⟨_, rfl, hobtains.found hvalid⟩⟩
  | vectorId element count =>
    rw [eval, Registry.onTypes] at heval
    rcases hrun : TypeRegistry.vectorId element count r.toTypeRegistry with ⟨id', q⟩
    obtain ⟨hbuilds, hid⟩ := TypeRegistry.vectorId_obtains r.constants hq hrun
    rw [hrun] at heval
    cases heval
    refine ⟨hbuilds, fun hvalid => ⟨_, if_pos (hid hvalid).1, (hid hvalid).2⟩⟩
  | constantId c =>
    obtain ⟨hnan, htype, hconstant⟩ := hq
    obtain ⟨hbuilds, hid⟩ :=
      Registry.constantId_obtains hnan.same_refl (.inl htype) (hconstant _) heval
    exact ⟨hbuilds, fun hvalid => ⟨_, rfl, hid hvalid⟩⟩
  | zeroScalarId type =>
    cases type with
    | int w s =>
      obtain ⟨hbuilds, hid⟩ := Registry.zeroScalarId_obtains (.inl hq) heval
      exact ⟨hbuilds, fun hvalid => ⟨_, rfl, hid hvalid⟩⟩
    | _ =>
      cases heval
      exact ⟨.refl, Id.absurd_invalid⟩
  | compositeId type components => exact eval_compositeId_spec h heval
  | zeroId type => exact eval_zeroId_spec h heval

/-- What was asked for is asked for later on. -/
theorem wanted?_extends (hextends : r.Extends r') (h : r.Indexed) (hwanted : q.wanted? r = some e) :
    q.wanted? r' = some e :=
  wanted?_eq_some_iff.2 ((wanted?_eq_some_iff.1 hwanted).extends hextends h)

/-- **What is there is not declared again.** -/
theorem eval_again (h : r.Indexed) (hwanted : q.wanted? r = some e) (hid : e.id? r = some key) :
    q.eval r = (key, r) := by
  cases wanted?_eq_some_iff.1 hwanted with
  | type =>
    rw [eval, Registry.onTypes, TypeRegistry.typeId_of_id? (q := r.toTypeRegistry) hid]
  | vector helement hcount =>
    rw [eval, Registry.onTypes, TypeRegistry.vectorId, if_pos ⟨helement, hcount⟩,
      TypeRegistry.typeId_of_id? (q := r.toTypeRegistry) hid]
  | constant | scalar => exact Registry.constantId_of_id? hid
  | composite htype hids hdeclared =>
    rw [eval_compositeId, hids, Option.elim_some,
      Registry.compositeId_of_declared htype rfl hdeclared]
    exact Registry.constantId_of_id? hid
  | zero htype hzero =>
    rw [eval, Option.elim_some, Registry.zeroId, htype]
    obtain ⟨w, s, rfl, rfl⟩ | ⟨w, s, n, z, rfl, hn, hvector, hz, rfl⟩ := zero?_eq_some_iff.1 hzero
    · exact Registry.constantId_of_id? hid
    · exact Registry.zeroVectorId_again h hn hvector hz hid

end Eval

end Query

/-- Anything may be declared. -/
def Policy.anything : Policy where
  type _ := True
  constant _ _ := True
  element _ := trivial
  zero _ _ _ := trivial
  composite _ _ _ := trivial

/-! ## Sessions

A session that carries a registry answers as the registry does, so the laws of registries hold of it
after any number of queries. -/

namespace Session

/-- What is worked on and what is cached is what a registry has. -/
structure Carries (s : Session) (r : Registry) : Prop where
  target : s.target = r.target
  log : s.log = r.log
  types : s.cache.types? = some r.types
  constants : s.cache.constants? = some r.constants
  holds : s.cache.Holds r.types r.constants

/-- Puts the tables of a registry in the place of those that are cached. -/
def restore (s : Session) (r : Registry) : Session :=
  { target := r.target
    cache := (s.cache.setTypes r.types).setConstants r.constants
    log := r.log }

namespace Carries

variable {α : Type} {s : Session} {r : Registry}

theorem eq_registry (h : s.Carries r) : ⟨⟨s.target, r.types, s.log⟩, r.constants⟩ = r := by
  rw [h.target, h.log]

theorem restore (h : s.Carries r) (r' : Registry) : (s.restore r').Carries r' where
  target := rfl
  log := rfl
  types := (Cache.types?_setConstants _ _).trans (Cache.types?_setTypes h.types)
  constants := Cache.constants?_setConstants ((Cache.constants?_setTypes _ _).trans h.constants)
  holds := h.holds.setTypes.setConstants

theorem restore_self (h : s.Carries r) : s.restore r = s := by
  rw [Session.restore, Cache.setTypes_eq_self h.holds.types,
    Cache.setConstants_eq_self h.holds.constants, ← h.target, ← h.log]

theorem onTypes_run (h : s.Carries r) (f : TypeRegistry → α × TypeRegistry) :
    (onTypes f).run.run s = (.ok (r.onTypes f).1, s.restore (r.onTypes f).2) := by
  have hholds : (s.cache.setTypes (f r.toTypeRegistry).2.types).Holds
      (f r.toTypeRegistry).2.types r.constants := h.holds.setTypes
  have hregistry : (⟨s.target, r.types, s.log⟩ : TypeRegistry) = r.toTypeRegistry := by
    rw [h.target, h.log]
  rw [Session.onTypes_run h.types, hregistry, Session.restore, Registry.onTypes]
  dsimp only
  rw [Cache.setConstants_eq_self hholds.constants]

theorem onRegistry_run (h : s.Carries r) (f : Registry → α × Registry) :
    (onRegistry f).run.run s = (.ok (f r).1, s.restore (f r).2) := by
  rw [Session.onRegistry_run h.types h.constants, h.eq_registry, Session.restore]

end Carries
end Session

namespace Query

open Session (bind_run)

variable {s : Session} {r : Registry}

/-- **A session answers as its registry does**, and holds what becomes of it.  It fails if a zero
scalar is asked for that is no integer; then nothing happens. -/
theorem call_run (h : s.Carries r) (q : Query) :
    q.call s = (.ok (q.eval r).1, s.restore (q.eval r).2) ∨
      q.wanted? r = none ∧ (∃ type, q = .zeroScalarId type) ∧ ∃ e, q.call s = (.error e, s) := by
  rw [call]
  cases q with
  | typeId type => exact .inl (h.onTypes_run (TypeRegistry.typeId type))
  | vectorId element count => exact .inl (h.onTypes_run (TypeRegistry.vectorId element count))
  | constantId c => exact .inl (h.onRegistry_run (Registry.constantId c))
  | zeroScalarId type =>
    have hraise : ∀ name : Except Decimal.Fault String, ∃ e,
        (do throw (.violation (.zeroOfOtherType (← name))) : Action Id).run.run s
          = (.error e, s) := by
      intro name
      cases name <;> exact ⟨_, rfl⟩
    cases type with
    | int w signed => exact .inl (h.onRegistry_run (Registry.zeroScalarId w signed))
    | _ => exact .inr ⟨rfl, ⟨_, rfl⟩, hraise _⟩
  | compositeId type components =>
    have haction : action (compositeId type components)
        = Session.onRegistry fun r => eval r (compositeId type components) := by
      rw [action, Session.compositeId]
      congr 1
    rw [haction]
    exact .inl (h.onRegistry_run fun r => eval r (compositeId type components))
  | zeroId type =>
    left
    rw [action, Session.zeroId, bind_run, Session.types, Session.onCache_run,
      Cache.requestTypes_of_types? h.types]
    cases type with
    | none =>
      rw [eval, Option.elim_none, h.restore_self]
      rfl
    | some typeId =>
      dsimp only
      by_cases hintegral : (r.types.type? typeId).any Ty.isIntegral = true
      · rw [if_pos hintegral]
        exact h.onRegistry_run (Registry.zeroId typeId)
      · rw [if_neg hintegral, eval, Option.elim_some,
          Registry.zeroId_of_not_isIntegral hintegral, h.restore_self]
        rfl

variable {p : Policy} {q : Query} {e : Entity} {s' : Session} {key : Id}
  {result : Except Error Id}

/-- **A query adds declarations**, and whatever id it gives is the one of what was asked for. -/
theorem call_spec (h : s.Carries r) (hr : r.Indexed) (hq : q.Allowed p)
    (hcall : q.call s = (result, s')) : ∃ r', s'.Carries r' ∧ r.Builds p r' ∧
      ∀ id, result = .ok id → id.isValid = true →
        ∃ e, q.wanted? r' = some e ∧ e.id? r' = some id := by
  rcases q.call_run h with hrun | ⟨-, -, error, hrun⟩
  · rw [hrun] at hcall
    cases hcall
    rcases heval : q.eval r with ⟨id, r'⟩
    obtain ⟨hbuilds, hid⟩ := eval_spec hr hq heval
    refine ⟨r', h.restore r', hbuilds, fun id' heq => ?_⟩
    cases heq
    exact hid
  · rw [hrun] at hcall
    cases hcall
    exact ⟨r, h, .refl, fun _ heq => by cases heq⟩

/-- **What is there is given, and nothing happens.** -/
theorem call_again (h : s.Carries r) (hr : r.Indexed) (hwanted : q.wanted? r = some e)
    (hid : e.id? r = some key) : q.call s = (.ok key, s) := by
  rcases q.call_run h with hrun | ⟨hnone, -⟩
  · rw [hrun, eval_again hr hwanted hid, h.restore_self]
  · rw [hwanted] at hnone
    cases hnone

end Query

namespace Session

/-- A session to begin with: a module was read in which ids are defined once, and both of its
tables are cached. -/
structure Opened (s : Session) : Prop where
  parsed : ∃ settings source, Assembly.parse settings source = .ok s.target
  once : s.target.DefinedOnce
  filled : s.cache.Filled s.target
  types : s.cache.isCached .types = true
  constants : s.cache.isCached .constants = true

/-- A session comes of another by queries. -/
def Reaches (p : Policy) : Session → Session → Prop :=
  Relation.ReflTransGen fun s s' => ∃ q : Query, q.Allowed p ∧ (q.call s).2 = s'

variable {p : Policy} {s s' s₀ : Session} {r : Registry}

/-- The tables of an opened session are those of its module. -/
theorem Opened.carries (h : s.Opened) :
    s.Carries (Registry.start s.target s.log) ∧ (Registry.start s.target s.log).Indexed := by
  have hfresh := h.filled.fresh
  obtain ⟨e, he, hkind⟩ := Cache.mem_of_isCached h.constants
  obtain ⟨t, rfl⟩ : ∃ t, e = .constants t := by
    cases e <;> cases hkind
    exact ⟨_, rfl⟩
  obtain ⟨r, hr, -⟩ := CachedAnalysis.fresh_constants_iff.1 (hfresh _ he)
  obtain ⟨hok, hok', -⟩ := Registry.ofModule_eq_ok_iff.1 hr
  obtain ⟨settings, source, hparse⟩ := h.parsed
  refine ⟨⟨rfl, rfl, ?_, ?_, ?_⟩, .start hparse h.once hok hok' s.log⟩
  · exact Cache.types?_of_isCached h.types fun t ht => hfresh.types_eq ht
  · exact Cache.constants?_of_isCached h.constants fun t ht => hfresh.constants_eq ht
  · exact ⟨fun t ht => hfresh.types_eq ht, fun t ht => hfresh.constants_eq ht⟩

/-- **Queries add declarations**, one after the other. -/
theorem Reaches.builds (h : s.Carries r) (hr : r.Indexed) (hreach : Reaches p s s') :
    ∃ r', s'.Carries r' ∧ r.Builds p r' := by
  induction hreach with
  | refl => exact ⟨r, h, .refl⟩
  | tail _ hstep ih =>
    obtain ⟨r₁, hcarries, hbuilds⟩ := ih
    obtain ⟨q, hq, rfl⟩ := hstep
    obtain ⟨r₂, hcarries', hbuilds', -⟩ := q.call_spec hcarries (hr.builds hbuilds) hq rfl
    exact ⟨r₂, hcarries', hbuilds.trans hbuilds'⟩

/-- **The tables can be read either way**, and what was given once is given again.

After any queries, the id of an entity stands for it, and an entity that an id stands for has the
id of its first declaration.  A valid id that a query gives stands for what was asked for.  From
then on the query gives this id, and nothing happens. -/
theorem two_way (h : s₀.Opened) (hreach : Reaches .anything s₀ s) :
    ∃ r, s.Carries r ∧
      (∀ (e : Entity) id, e.id? r = some id → e.hasId r id = true) ∧
      (∀ (e : Entity) id, e.hasId r id = true →
        ∃ d key, e.declaration? r = some d ∧ d.result = some key ∧ e.id? r = some key) ∧
      ∀ (q : Query) id s₁, q.Allowed .anything → q.call s = (.ok id, s₁) → id.isValid = true →
        (∃ r₁ e, s₁.Carries r₁ ∧ q.wanted? r₁ = some e ∧ e.hasId r₁ id = true) ∧
        ∀ s₂, Reaches .anything s₁ s₂ → q.call s₂ = (.ok id, s₂) := by
  obtain ⟨hstart, hindexed⟩ := h.carries
  obtain ⟨r, hcarries, hbuilds⟩ := hreach.builds hstart hindexed
  have hr := hindexed.builds hbuilds
  refine ⟨r, hcarries, fun e id => e.hasId_of_id? hr, fun e id => e.id?_of_hasId hr, ?_⟩
  intro q id s₁ hq hcall hvalid
  obtain ⟨r₁, hcarries₁, hbuilds₁, hid⟩ := q.call_spec hcarries hr hq hcall
  obtain ⟨e, hwanted, hid⟩ := hid id rfl hvalid
  have hr₁ := hr.builds hbuilds₁
  refine ⟨⟨r₁, e, hcarries₁, hwanted, e.hasId_of_id? hr₁ hid⟩, fun s₂ hreach₂ => ?_⟩
  obtain ⟨r₂, hcarries₂, hbuilds₂⟩ := hreach₂.builds hcarries₁ hr₁
  have hextends := Registry.Extends.builds hbuilds₂
  exact q.call_again hcarries₂ (hr₁.builds hbuilds₂) (q.wanted?_extends hextends hr₁ hwanted)
    (e.id?_extends hextends hid)

/-! ### An example -/

theorem opened_cached {settings : Settings} {source : String} {m : Module} {r : Registry}
    (hparse : Assembly.parse settings source = .ok m) (honce : m.DefinedOnce)
    (hr : Registry.ofModule m = .ok r) : (cached m).Opened := by
  obtain ⟨hok, hok', -⟩ := Registry.ofModule_eq_ok_iff.1 hr
  have htypes : Cache.request m .types {} = (.ok (), ⟨[.types m.declaredTypes]⟩) := by
    rw [Cache.request, Cache.requestTypes_empty, hok]
    rfl
  have hconstants : Cache.request m .constants ⟨[.types m.declaredTypes]⟩
      = (.ok (), (cached m).cache) := by
    rw [Cache.request, Cache.requestConstants_types, hok']
    rfl
  exact
    { parsed := ⟨settings, source, hparse⟩
      once := honce
      filled := .request (.request .empty htypes) hconstants
      types := rfl
      constants := rfl }

/-- A vector of zeros is declared once. -/
theorem two_way_sample : (cached (declaringInt 32)).Opened ∧
    ∃ s s₁, Reaches .anything (cached (declaringInt 32)) s ∧
      (Query.zeroId (some ⟨2, none⟩)).call s = (.ok ⟨4, none⟩, s₁) ∧
      (Query.zeroId (some ⟨2, none⟩)).call s₁ = (.ok ⟨4, none⟩, s₁) := by
  have honce : (declaringInt 32).DefinedOnce := by
    rw [Module.DefinedOnce]
    decide
  have hopened := opened_cached parse_wordText honce rfl
  have hreach : Reaches .anything (cached (declaringInt 32))
      ((Query.vectorId (.int 32 false) 2).call (cached (declaringInt 32))).2 :=
    .single ⟨.vectorId (.int 32 false) 2, fun _ _ => trivial, rfl⟩
  obtain ⟨-, -, -, -, hagain⟩ := two_way hopened hreach
  have hcall := hagain (.zeroId (some ⟨2, none⟩)) ⟨4, none⟩ _ trivial rfl rfl
  exact ⟨hopened, _, _, hreach, rfl, hcall.2 _ .refl⟩

end Session
end ShiftBarrier
