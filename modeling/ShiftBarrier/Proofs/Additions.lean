import Mathlib.Logic.Relation
import ShiftBarrier.Proofs.Declaring
import ShiftBarrier.Proofs.Reflexivity
import ShiftBarrier.Proofs.Registry

/-!
# Tables and what is added to them

What is declared on demand is entered in a table behind all that is there, under an id that was
handed out for it.  So a table goes on saying what it says.

* `Policy` says what may be declared; `Registry.Adds` is one declaration, and `Registry.Builds` any
  number of them.
* `Registry.Indexed` is the invariant: the tables list the declarations of the global section, in
  order, and each of them finds what it lists.
* `Registry.Extends` is what is left of the additions when their order does not matter.
* `TypeRegistry.typeId_obtains`, `Registry.constantId_obtains` and those after them: an operation
  adds declarations, and if it returns an id, that is the one under which the table finds what was
  asked for.
-/

set_option autoImplicit false

namespace ShiftBarrier

open Mirrored (extended placed)

/-! ## Additions -/

/-- What may be declared on demand.  With a vector its elements may be, and all zeros and composites
of declared constants may be. -/
structure Policy where
  type : Ty → Prop
  constant : ConstantTable → Constant → Prop
  element {e : Ty} {n : Nat} (h : type (.vector e n)) : type e
  zero (t : ConstantTable) (w : Nat) (s : Bool) : constant t (.zero w s)
  composite {t : ConstantTable} (type : Ty) {ids : List Id}
    (h : ∀ id ∈ ids, t.isDeclared id = true) : constant t (.composite type ids)

namespace Registry

/-- A declaration is added and entered in its table, or something is logged. -/
inductive Adds (p : Policy) (r : Registry) : Registry → Prop
  | log (log : Log) : Adds p r { r with log }
  | type {i : Instruction} {type : Ty} (hi : i.isType = true) (hself : type.same type = true)
      (helement : ∀ e n, type = .vector e n → (r.types.id? e).isSome = true)
      (hp : p.type type) :
      Adds p r { r with
        target := extended r.target i, types := r.types.add ⟨r.target.bound, none⟩ type }
  | constant {i : Instruction} {c : Constant} (hi : i.isConstant = true)
      (hself : c.same c = true) (hp : p.constant r.constants c) :
      Adds p r { r with
        target := extended r.target i, constants := r.constants.add ⟨r.target.bound, none⟩ c }

/-- Any number of additions. -/
def Builds (p : Policy) : Registry → Registry → Prop := Relation.ReflTransGen (Adds p)

/-! ## The invariant

The tables are compared with the global section as a list: what they find first is what is declared
first.  All that later proofs need of a registry is drawn from this, and no operation is looked into
again. -/

/-- The entries have the results of the instructions as their ids, one by one. -/
def Lists {α : Type} (is : List Instruction) (entries : List (Id × α)) : Prop :=
  List.Forall₂ (fun i entry => i.result = some entry.1) is entries

/-- The tables list the declarations of the global section in order.  Ids are defined once there,
and what is listed is the same as itself, so that it can be looked up either way. -/
structure Indexed (r : Registry) : Prop where
  bound_pos : 0 < r.target.bound
  below : ∀ id ∈ r.target.globals.filterMap Instruction.result, id.Below r.target.bound
  once : ((r.target.globals.filterMap Instruction.result).map Id.number).Nodup
  types : Lists (r.target.globals.filter Instruction.isType) r.types.entries
  constants : Lists (r.target.globals.filter Instruction.isConstant) r.constants.entries
  types_self : ∀ entry ∈ r.types.entries, entry.2.same entry.2 = true
  constants_self : ∀ entry ∈ r.constants.entries, entry.2.same entry.2 = true
  /-- The elements of a declared vector type are of a declared type. -/
  elements : ∀ entry ∈ r.types.entries, ∀ e n, entry.2 = .vector e n →
    (r.types.id? e).isSome = true

theorem isSome_id?_add {t : TypeTable} {type : Ty} (h : (t.id? type).isSome = true) (id : Id)
    (new : Ty) : ((t.add id new).id? type).isSome = true := by
  rw [TypeTable.id?_add, Option.isSome_or, h, Bool.true_or]

namespace Lists

variable {α : Type} {is : List Instruction} {entries : List (Id × α)} {q : Instruction → Bool}
  {m : Module} {i : Instruction}

/-- A new declaration is listed behind those of its kind. -/
theorem extended_of_pos (h : Lists (m.globals.filter q) entries) (hq : q (placed m i) = true)
    (a : α) :
    Lists ((extended m i).globals.filter q) (entries ++ [(⟨m.bound, none⟩, a)]) := by
  rw [extended, List.filter_append, List.filter_singleton, hq]
  exact List.rel_append h (.cons rfl .nil)

/-- It is of no matter to those of the other kind. -/
theorem extended_of_neg (h : Lists (m.globals.filter q) entries) (hq : q (placed m i) = false) :
    Lists ((extended m i).globals.filter q) entries := by
  rw [extended, List.filter_append, List.filter_singleton, hq, cond_false, List.append_nil]
  exact h

/-- The ids of a table are results. -/
theorem ids_eq (h : Lists is entries) :
    entries.map Prod.fst = is.filterMap Instruction.result := by
  induction h with
  | nil => rfl
  | cons hi _ ih => rw [List.map_cons, List.filterMap_cons, hi, ih]

theorem sublist (h : Lists (is.filter q) entries) :
    (entries.map Prod.fst).Sublist (is.filterMap Instruction.result) := by
  rw [h.ids_eq]
  exact List.filter_sublist.filterMap _

theorem once (h : Lists (is.filter q) entries)
    (honce : ((is.filterMap Instruction.result).map Id.number).Nodup) :
    (entries.map (·.1.number)).Nodup := by
  have hsublist := h.sublist.map Id.number
  rw [List.map_map] at hsublist
  exact honce.sublist hsublist

/-- **The first entry of a kind is of the first declaration of that kind.** -/
theorem find? {lookup : Id → Option α} (h : Lists (is.filter q) entries)
    (hlookup : ∀ entry ∈ entries, lookup entry.1 = some entry.2) (wanted : α → Bool) :
    Option.Rel (fun i entry => i.result = some entry.1)
      (is.find? fun i => q i && i.result.any fun id => (lookup id).any wanted)
      (entries.find? fun entry => wanted entry.2) := by
  have hboth : List.Forall₂ (fun i entry => i.result = some entry.1 ∧
      lookup entry.1 = some entry.2) (is.filter q) entries := by
    refine ((List.forall₂_and_left _ _).2 ⟨hlookup, h.flip⟩).flip.imp fun i entry hentry => ?_
    exact hentry.symm
  have hfilter : (is.find? fun i => q i && i.result.any fun id => (lookup id).any wanted)
      = (is.filter q).find? fun i => i.result.any fun id => (lookup id).any wanted := by
    rw [List.find?_filter]
    simp only [Bool.decide_and, Bool.decide_eq_true]
  have hfind : Option.Rel (fun i entry => i.result = some entry.1 ∧ lookup entry.1 = some entry.2)
      ((is.filter q).find? fun i => i.result.any fun id => (lookup id).any wanted)
      (entries.find? fun entry => wanted entry.2) :=
    rel_find? hboth fun i entry hentry => by
      rw [hentry.1, Option.any_some, hentry.2, Option.any_some]
  rw [hfilter]
  generalize (is.filter q).find? (fun i => i.result.any fun id => (lookup id).any wanted) = i,
    entries.find? (fun entry => wanted entry.2) = entry at hfind ⊢
  cases hfind with
  | none => exact .none
  | some hentry => exact .some hentry.1

/-- A table that finds something finds the first of its kind. -/
theorem exists_declaration {lookup : Id → Option α} (h : Lists (is.filter q) entries)
    (hlookup : ∀ entry ∈ entries, lookup entry.1 = some entry.2) (wanted : α → Bool)
    {entry : Id × α} (hmem : entry ∈ entries) (hwanted : wanted entry.2 = true) :
    ∃ d key, (is.find? fun i => q i && i.result.any fun id => (lookup id).any wanted) = some d ∧
      d.result = some key ∧
      (entries.find? fun entry => wanted entry.2).map Prod.fst = some key := by
  have hfind := h.find? hlookup wanted
  have hfound : (entries.find? fun e => wanted e.2).isSome = true :=
    List.find?_isSome.2 ⟨entry, hmem, hwanted⟩
  obtain ⟨first, hfirst⟩ := Option.isSome_iff_exists.1 hfound
  rw [hfirst] at hfind ⊢
  generalize is.find? (fun i => q i && i.result.any fun id => (lookup id).any wanted) = d
    at hfind ⊢
  cases hfind with
  | some hd => exact ⟨_, _, rfl, hd, rfl⟩

end Lists

namespace Indexed

variable {p : Policy} {r r' : Registry}

/-- **An addition keeps the tables in order.** -/
theorem adds (h : Indexed r) (hadds : Adds p r r') : Indexed r' := by
  cases hadds with
  | log log => exact ⟨h.bound_pos, h.below, h.once, h.types, h.constants, h.types_self,
      h.constants_self, h.elements⟩
  | @type i type hi hself helement hp =>
    have hnot : i.isConstant = false := by
      rw [Bool.eq_false_iff]
      intro hconstant
      have hother := isType_of_mem_constants (List.contains_iff_mem.1 hconstant)
      exact Bool.false_ne_true (hother.symm.trans hi)
    exact
      { bound_pos := Nat.succ_pos _
        below := Mirrored.below_extended h.below h.bound_pos i
        once := Mirrored.once_extended h.below h.once i
        types := h.types.extended_of_pos hi type
        constants := h.constants.extended_of_neg hnot
        types_self := List.forall_mem_append.2
          ⟨h.types_self, List.forall_mem_singleton.2 hself⟩
        constants_self := h.constants_self
        elements := List.forall_mem_append.2
          ⟨fun _ hentry e n heq => isSome_id?_add (h.elements _ hentry e n heq) _ _,
            List.forall_mem_singleton.2 fun e n heq => isSome_id?_add (helement e n heq) _ _⟩ }
  | @constant i c hi hself hp =>
    have hnot : i.isType = false := isType_of_mem_constants (List.contains_iff_mem.1 hi)
    exact
      { bound_pos := Nat.succ_pos _
        below := Mirrored.below_extended h.below h.bound_pos i
        once := Mirrored.once_extended h.below h.once i
        types := h.types.extended_of_neg hnot
        constants := h.constants.extended_of_pos hi c
        types_self := h.types_self
        constants_self := List.forall_mem_append.2
          ⟨h.constants_self, List.forall_mem_singleton.2 hself⟩
        elements := h.elements }

theorem builds (h : Indexed r) (hbuilds : Builds p r r') : Indexed r' := by
  induction hbuilds with
  | refl => exact h
  | tail _ hadds ih => exact ih.adds hadds

/-- The tables of a module that is read are in order. -/
theorem start {settings : Settings} {source : String} {m : Module}
    (hparse : Assembly.parse settings source = .ok m) (honce : m.DefinedOnce)
    (hok : (TypeTable.analyze m).1 = .ok ())
    (hok' : (ConstantTable.analyze m.declaredTypes m).1 = .ok ()) (log : Log) :
    Indexed (Registry.start m log) := by
  have hm := Assembly.wellFormed_of_parse hparse
  obtain ⟨htypes, hconstants⟩ := Assembly.nanFree_of_parse hparse hok hok'
  exact
    { bound_pos := hm.bound_pos
      below := fun id hid => by
        obtain ⟨i, hi, hresult⟩ := List.mem_filterMap.1 hid
        have hmem : i ∈ m.instructions := List.mem_append_left _ (List.mem_append_right _ hi)
        exact hm.below i hmem id (List.mem_append_left _ (by simp [hresult]))
      once := honce.nodup_globals
      types := (Module.declaredTypes_spec hok).imp fun i entry h => h.1
      constants := (Module.declaredConstants_spec hok').imp fun i entry h => h.1
      types_self := fun entry hentry => (htypes entry hentry).same_refl
      constants_self := fun entry hentry => (hconstants entry hentry).same_refl
      elements := fun entry hentry e n heq => by
        have hformed := (TypeTable.readFrom_analyze m).formed entry hentry
        rw [heq] at hformed
        cases hformed with
        | vector hscalar hn hmem =>
          have hself := (Ty.nanFree_of_isScalar hscalar).same_refl
          exact Option.isSome_iff_exists.2 (TypeTable.exists_id?_of_mem hmem hself) }

/-! ### Looking up -/

theorem types_once (h : Indexed r) : (r.types.entries.map (·.1.number)).Nodup :=
  h.types.once h.once

theorem constants_once (h : Indexed r) : (r.constants.entries.map (·.1.number)).Nodup :=
  h.constants.once h.once

/-- The ids in the tables are below the bound. -/
theorem anchored (h : Indexed r) : Anchored r where
  types _ hentry := h.below _ (h.types.sublist.subset (List.mem_map_of_mem hentry))
  constants _ hentry := h.below _ (h.constants.sublist.subset (List.mem_map_of_mem hentry))

theorem isValid_of_below {id : Id} {bound : Nat} (h : id.Below bound) : id.isValid = true :=
  bne_iff_ne.2 (Nat.ne_of_gt h.1)

/-- The ids that the tables give are valid. -/
theorem isValid_of_type (h : Indexed r) {type : Ty} {id : Id} (hid : r.types.id? type = some id) :
    id.isValid = true := by
  obtain ⟨_, -, hmem⟩ := TypeTable.mem_of_id? hid
  exact isValid_of_below (h.anchored.types _ hmem)

theorem isValid_of_constant (h : Indexed r) {c : Constant} {id : Id}
    (hid : r.constants.id? c = some id) : id.isValid = true := by
  obtain ⟨_, -, hmem⟩ := ConstantTable.mem_of_id? hid
  exact isValid_of_below (h.anchored.constants _ hmem)

/-- **The id of a type stands for it.** -/
theorem type?_of_id? (h : Indexed r) {type : Ty} {id : Id} (hid : r.types.id? type = some id) :
    ∃ found, r.types.type? id = some found ∧ found.same type = true := by
  obtain ⟨found, hsame, hmem⟩ := TypeTable.mem_of_id? hid
  exact ⟨found, TypeTable.type?_of_mem h.types_once hmem, hsame⟩

/-- **The id of a constant stands for it.** -/
theorem constant?_of_id? (h : Indexed r) {c : Constant} {id : Id}
    (hid : r.constants.id? c = some id) :
    ∃ found, r.constants.constant? id = some found ∧ found.same c = true := by
  obtain ⟨found, hsame, hmem⟩ := ConstantTable.mem_of_id? hid
  exact ⟨found, ConstantTable.constant?_of_mem h.constants_once hmem, hsame⟩

/-- A declared type is found. -/
theorem isSome_id?_of_type? (h : Indexed r) {type : Ty} {id : Id}
    (htype : r.types.type? id = some type) : (r.types.id? type).isSome = true := by
  obtain ⟨key, -, hmem⟩ := TypeTable.mem_of_type? htype
  exact Option.isSome_iff_exists.2 (TypeTable.exists_id?_of_mem hmem (h.types_self _ hmem))

/-- So are the elements of a declared vector type. -/
theorem isSome_id?_of_element (h : Indexed r) {element : Ty} {n : Nat} {id : Id}
    (htype : r.types.type? id = some (.vector element n)) :
    (r.types.id? element).isSome = true := by
  obtain ⟨key, -, hmem⟩ := TypeTable.mem_of_type? htype
  exact h.elements _ hmem element n rfl

end Indexed

/-! ## What additions keep

Additions only append, and under ids that were not in use, so what was found before is found as
before. -/

/-- The registry `r'` has what `r` has, and behind it declarations under new ids. -/
structure Extends (r r' : Registry) : Prop where
  target : ∃ new, r'.target = { r.target with
      globals := r.target.globals ++ new
      bound := r.target.bound + new.length
      nextSerial := r.target.nextSerial + new.length } ∧
    ∀ i ∈ new, i.isType = true ∨ i.isConstant = true
  types : ∃ new, r'.types.entries = r.types.entries ++ new ∧
    ∀ entry ∈ new, r.target.bound ≤ entry.1.number
  constants : ∃ new, r'.constants.entries = r.constants.entries ++ new ∧
    ∀ entry ∈ new, r.target.bound ≤ entry.1.number

namespace Extends

variable {p : Policy} {r r' r'' : Registry}

theorem refl (r : Registry) : Extends r r where
  target := ⟨[], by simp, List.forall_mem_nil _⟩
  types := ⟨[], (List.append_nil _).symm, List.forall_mem_nil _⟩
  constants := ⟨[], (List.append_nil _).symm, List.forall_mem_nil _⟩

theorem bound_le (h : Extends r r') : r.target.bound ≤ r'.target.bound := by
  obtain ⟨new, htarget, -⟩ := h.target
  rw [htarget]
  exact Nat.le_add_right _ _

theorem append_new {α : Type} {old old' old'' : List (Id × α)} {bound bound' : Nat}
    (hle : bound ≤ bound')
    (h : ∃ new, old' = old ++ new ∧ ∀ entry ∈ new, bound ≤ entry.1.number)
    (h' : ∃ new, old'' = old' ++ new ∧ ∀ entry ∈ new, bound' ≤ entry.1.number) :
    ∃ new, old'' = old ++ new ∧ ∀ entry ∈ new, bound ≤ entry.1.number := by
  obtain ⟨new, rfl, hnew⟩ := h
  obtain ⟨new', rfl, hnew'⟩ := h'
  refine ⟨new ++ new', List.append_assoc _ _ _, List.forall_mem_append.2 ⟨hnew, ?_⟩⟩
  exact fun entry hentry => Nat.le_trans hle (hnew' entry hentry)

theorem trans (h : Extends r r') (h' : Extends r' r'') : Extends r r'' where
  target := by
    obtain ⟨new, htarget, hnew⟩ := h.target
    obtain ⟨new', htarget', hnew'⟩ := h'.target
    refine ⟨new ++ new', ?_, List.forall_mem_append.2 ⟨hnew, hnew'⟩⟩
    simp [htarget', htarget, Nat.add_assoc]
  types := append_new h.bound_le h.types h'.types
  constants := append_new h.bound_le h.constants h'.constants

theorem adds (h : Adds p r r') : Extends r r' := by
  cases h with
  | log log => exact ⟨(refl r).target, (refl r).types, (refl r).constants⟩
  | @type i type hi =>
    exact
      { target := ⟨[placed r.target i], rfl, List.forall_mem_singleton.2 (.inl hi)⟩
        types := ⟨[_], rfl, List.forall_mem_singleton.2 (Nat.le_refl _)⟩
        constants := (refl r).constants }
  | @constant i c hi =>
    exact
      { target := ⟨[placed r.target i], rfl, List.forall_mem_singleton.2 (.inr hi)⟩
        types := (refl r).types
        constants := ⟨[_], rfl, List.forall_mem_singleton.2 (Nat.le_refl _)⟩ }

theorem builds (h : Builds p r r') : Extends r r' := by
  induction h with
  | refl => exact refl _
  | tail _ hadds ih => exact ih.trans (adds hadds)

/-! ### Looking up -/

/-- The id of a type stays. -/
theorem types_id? (h : Extends r r') {type : Ty} {id : Id} (hid : r.types.id? type = some id) :
    r'.types.id? type = some id := by
  obtain ⟨new, hentries, -⟩ := h.types
  rw [TypeTable.id?] at hid ⊢
  rw [hentries, List.find?_append, Option.map_or, hid, Option.some_or]

/-- A declared type stays declared. -/
theorem isSome_types_id? (h : Extends r r') {type : Ty} (htype : (r.types.id? type).isSome = true) :
    (r'.types.id? type).isSome = true := by
  obtain ⟨id, hid⟩ := Option.isSome_iff_exists.1 htype
  rw [h.types_id? hid]
  rfl

/-- The id of a constant stays. -/
theorem constants_id? (h : Extends r r') {c : Constant} {id : Id}
    (hid : r.constants.id? c = some id) : r'.constants.id? c = some id := by
  obtain ⟨new, hentries, -⟩ := h.constants
  rw [ConstantTable.id?] at hid ⊢
  rw [hentries, List.find?_append, Option.map_or, hid, Option.some_or]

theorem isDeclared (h : Extends r r') {id : Id} (hid : r.constants.isDeclared id = true) :
    r'.constants.isDeclared id = true := by
  obtain ⟨new, hentries, -⟩ := h.constants
  rw [ConstantTable.isDeclared] at hid ⊢
  rw [hentries, List.any_append, hid, Bool.true_or]

theorem all_isDeclared (h : Extends r r') {ids : List Id}
    (hids : ids.all r.constants.isDeclared = true) : ids.all r'.constants.isDeclared = true :=
  List.all_eq_true.2 fun id hid => h.isDeclared (List.all_eq_true.1 hids id hid)

/-- An id goes on standing for its type. -/
theorem type? (h : Extends r r') (hr : Indexed r) {type : Ty} {id : Id}
    (htype : r.types.type? id = some type) : r'.types.type? id = some type := by
  obtain ⟨new, hentries, hnew⟩ := h.types
  obtain ⟨key, hkey, hmem⟩ := TypeTable.mem_of_type? htype
  have hbelow := hr.anchored.types _ hmem
  have hnone : new.reverse.find? (·.1.same id) = none := by
    rw [List.find?_eq_none]
    intro entry hentry hsame
    have hle := hnew entry (List.mem_reverse.1 hentry)
    rw [Id.same_iff.1 hsame, ← Id.same_iff.1 hkey] at hle
    exact Nat.not_lt.2 hle hbelow.2
  rw [TypeTable.type?, List.findRev?_eq_find?_reverse] at htype ⊢
  rw [hentries, List.reverse_append, List.find?_append, hnone, Option.none_or, htype]

end Extends
end Registry

/-! ## Types on demand

A type is found, or declared, or cannot be had for want of ids.  For a vector the induction is on
the type: its elements come first, and they may use up the last id. -/

/-- How deep the vectors of a type are nested. -/
def Ty.depth : Ty → Nat
  | .vector element _ => element.depth + 1
  | _ => 0

theorem Ty.depth_eq_of_same {type type' : Ty} (h : type.same type' = true) :
    type.depth = type'.depth := by
  induction type generalizing type' with
  | vector element n ih =>
    cases type' with
    | vector element' n' =>
      rw [same, Bool.and_eq_true] at h
      rw [depth, depth, ih h.1]
    | _ => cases h
  | _ =>
    cases type' with
    | vector => cases h
    | _ => rfl

namespace TypeRegistry

variable {p : Policy} {q q' : TypeRegistry} {type : Ty} {id : Id}

/-- What comes of asking for a type. -/
structure Obtains (p : Policy) (k : ConstantTable) (q : TypeRegistry) (type : Ty) (id : Id)
    (q' : TypeRegistry) : Prop where
  builds : Registry.Builds p ⟨q, k⟩ ⟨q', k⟩
  found : id.isValid = true → q'.types.id? type = some id
  /-- Nothing is declared but the type and what it consists of. -/
  deeper : ∀ other, type.depth < other.depth → q'.types.id? other = q.types.id? other

theorem Obtains.of_id? (p : Policy) (k : ConstantTable) (hid : q.types.id? type = some id) :
    Obtains p k q type id q :=
  ⟨.refl, fun _ => hid, fun _ _ => rfl⟩

/-- A type that is missing is declared by an instruction, unless the ids are used up. -/
theorem declare_obtains (k : ConstantTable) {opcode : String} {operands : List Operand}
    (hmissing : q.types.id? type = none) (hopcode : Opcode.isType opcode = true)
    (hself : type.same type = true)
    (helement : ∀ e n, type = .vector e n → (q.types.id? e).isSome = true) (hp : p.type type)
    (hrun : q.declare type opcode operands = (id, q')) : Obtains p k q type id q' := by
  rcases q.declare_cases type opcode operands with ⟨-, -, heq⟩ | heq
  · cases heq.symm.trans hrun
    refine ⟨.single (.type (r := ⟨q, k⟩) (i := { opcode, operands }) hopcode hself helement hp),
      fun _ => ?_, fun other hdeeper => ?_⟩
    · rw [extend, TypeTable.id?_add, hmissing, Option.none_or, if_pos hself]
    · have hdiffer : ¬ type.same other = true := fun hsame =>
        Nat.ne_of_lt hdeeper (Ty.depth_eq_of_same hsame)
      rw [extend, TypeTable.id?_add, if_neg hdiffer, Option.or_none]
  · cases heq.symm.trans hrun
    exact ⟨.single (.log (r := ⟨q, k⟩) _), Id.absurd_invalid, fun _ _ => rfl⟩

/-- A type that has an id is the same as itself. -/
theorem self_of_id? (hid : q.types.id? type = some id) : type.same type = true := by
  obtain ⟨found, hsame, -⟩ := TypeTable.mem_of_id? hid
  rw [← Ty.same_congr hsame]
  exact hsame

/-- **A type that is asked for has the id that comes of it.** -/
theorem typeId_obtains (k : ConstantTable)
    (hadmits : p.type type ∨ (q.types.id? type).isSome = true)
    (hrun : typeId type q = (id, q')) : Obtains p k q type id q' := by
  have houtcome := typeId_outcome hrun
  clear hrun
  have hallowed : ∀ {type}, q.types.id? type = none →
      p.type type ∨ (q.types.id? type).isSome = true → p.type type :=
    fun hmissing hadmits => hadmits.resolve_right (by simp [hmissing])
  have hdeeper : ∀ {e : Ty} {n : Nat} {other : Ty},
      (Ty.vector e n).depth < other.depth → e.depth < other.depth :=
    fun h => Nat.lt_trans (Nat.lt_succ_self _) h
  induction houtcome with
  | found hid => exact .of_id? p k hid
  | plain hmissing hplain hrun =>
    have hp := hallowed hmissing hadmits
    cases hplain <;>
      exact declare_obtains k hmissing rfl (Ty.NaNFree.same_refl trivial)
        (fun _ _ h => by cases h) hp hrun
  | @vector e n _ _ _ _ hid _ hvalid hrun ih =>
    have hp := hallowed hid hadmits
    have helement := ih (.inl (p.element hp))
    -- the element does not bring the vector with it
    have hmissing := (helement.deeper (.vector e n) (Nat.lt_succ_self _)).trans hid
    have hfound := helement.found hvalid
    have hself : (Ty.vector e n).same (.vector e n) = true := by
      rw [Ty.same, self_of_id? hfound, beq_self_eq_true]
      rfl
    have hvector := declare_obtains (p := p) k hmissing rfl hself
      (fun e' n' heq => by cases heq; rw [hfound]; rfl) hp hrun
    exact
      { builds := helement.builds.trans hvector.builds
        found := hvector.found
        deeper := fun other h =>
          (hvector.deeper other h).trans (helement.deeper other (hdeeper h)) }
  | noElement hid _ _ ih =>
    have helement := ih (.inl (p.element (hallowed hid hadmits)))
    exact ⟨helement.builds, Id.absurd_invalid, fun other h => helement.deeper other (hdeeper h)⟩
  | other => exact ⟨.refl, Id.absurd_invalid, fun _ _ => rfl⟩

theorem vectorId_obtains (k : ConstantTable) {element : Ty} {count : Int}
    (hp : element.isScalar = true → 2 ≤ count → p.type (.vector element count.toNat))
    (hrun : vectorId element count q = (id, q')) :
    Registry.Builds p ⟨q, k⟩ ⟨q', k⟩ ∧ (id.isValid = true → (element.isScalar = true ∧ 2 ≤ count) ∧
      q'.types.id? (.vector element count.toNat) = some id) := by
  rcases vectorId_cases hrun with ⟨hcount, hrun⟩ | ⟨-, rfl, rfl⟩
  · have hvector := typeId_obtains k (.inl (hp hcount.1 hcount.2)) hrun
    exact ⟨hvector.builds, fun hvalid => ⟨hcount, hvector.found hvalid⟩⟩
  · exact ⟨.refl, Id.absurd_invalid⟩

end TypeRegistry

/-! ## Constants on demand

A constant that is asked for is found again under the id that was given for it.  This takes that it
is the same as itself, which a NaN is not. -/

theorem Constant.same_composite_self {type : Ty} (h : type.same type = true) (ids : List Id) :
    (composite type ids).same (composite type ids) = true := by
  rw [same, h, Bool.true_and]
  exact isEqv_refl fun id _ => Id.same_refl id

theorem ConstantTable.isDeclared_of_id? {t : ConstantTable} {c : Constant} {id : Id}
    (h : t.id? c = some id) : t.isDeclared id = true := by
  obtain ⟨_, -, hmem⟩ := mem_of_id? h
  exact isDeclared_of_mem hmem

namespace Registry

variable {p : Policy} {r r' : Registry} {c : Constant} {id : Id}

/-- **A constant that is asked for has the id that comes of it.** -/
theorem constantId_obtains (hself : c.same c = true)
    (hadmits : p.type c.type ∨ (r.types.id? c.type).isSome = true)
    (hp : p.constant r.constants c) (hrun : constantId c r = (id, r')) :
    Builds p r r' ∧ (id.isValid = true → r'.constants.id? c = some id) := by
  cases constantId_outcome hrun with
  | found hid => exact ⟨.refl, fun _ => hid⟩
  | @declared typeId q hmissing htype _ hpos =>
    have htype := TypeRegistry.typeId_obtains r.constants hadmits htype
    refine ⟨htype.builds.tail (.constant (r := ⟨q, r.constants⟩)
      (i := { opcode := c.declaration.1, type := some typeId, operands := c.declaration.2 })
      (List.contains_iff_mem.2 (opcode_mem_constants c)) hself hp), fun _ => ?_⟩
    rw [extend, ConstantTable.id?_add, hmissing, Option.none_or, if_pos hself]
  | @full _ q _ htype =>
    have htype := TypeRegistry.typeId_obtains r.constants hadmits htype
    exact ⟨htype.builds.tail (.log (r := ⟨q, r.constants⟩) _), Id.absurd_invalid⟩
  | noType _ htype =>
    exact ⟨(TypeRegistry.typeId_obtains r.constants hadmits htype).builds, Id.absurd_invalid⟩

theorem zeroScalarId_obtains {w : Nat} {s : Bool}
    (hadmits : p.type (.int w s) ∨ (r.types.id? (.int w s)).isSome = true)
    (hrun : zeroScalarId w s r = (id, r')) :
    Builds p r r' ∧ (id.isValid = true → r'.constants.id? (.zero w s) = some id) :=
  constantId_obtains (Constant.NaNFree.same_refl ⟨trivial, trivial⟩) hadmits (p.zero _ w s) hrun

/-- What a composite is made of. -/
theorem compositeId_obtains (h : Indexed r) {typeId : Id} {ids : List Id}
    (hrun : compositeId typeId ids r = (id, r')) :
    Builds p r r' ∧ (id.isValid = true →
      ∃ element, r.types.type? typeId = some (.vector element ids.length) ∧
        ids.all r.constants.isDeclared = true ∧
        r'.constants.id? (.composite (.vector element ids.length) ids) = some id) := by
  rcases compositeId_cases hrun with ⟨element, htype, hdeclared, hrun⟩ | ⟨rfl, rfl⟩
  · have hfound := h.isSome_id?_of_type? htype
    obtain ⟨key, hkey⟩ := Option.isSome_iff_exists.1 hfound
    have hself := Constant.same_composite_self (TypeRegistry.self_of_id? hkey) ids
    obtain ⟨hbuilds, hid⟩ := constantId_obtains hself (.inr hfound)
      (p.composite _ (List.all_eq_true.1 hdeclared)) hrun
    exact ⟨hbuilds, fun hvalid => ⟨element, htype, hdeclared, hid hvalid⟩⟩
  · exact ⟨.refl, Id.absurd_invalid⟩

/-- The constant of a vector of zeros. -/
def zeros (w : Nat) (s : Bool) (n : Nat) (z : Id) : Constant :=
  .composite (.vector (.int w s) n) (List.replicate n z)

theorem zeros_same_self (w : Nat) (s : Bool) (n : Nat) (z : Id) :
    (zeros w s n z).same (zeros w s n z) = true :=
  Constant.same_composite_self (Ty.same_vector_int_iff.2 rfl) _

/-- **With its lanes at hand**, a vector of zeros is a constant like any other. -/
theorem zeroVectorId_eq {r₁ : Registry} (h : Indexed r₁) {w n : Nat} {s : Bool} {z : Id}
    (hn : 2 ≤ n) (hvector : (r₁.types.id? (.vector (.int w s) n)).isSome = true)
    (hzero : zeroScalarId w s r = (z, r₁)) (hz : r₁.constants.id? (.zero w s) = some z) :
    zeroVectorId w s n r = constantId (zeros w s n z) r₁ := by
  obtain ⟨typeId, htypeId⟩ := Option.isSome_iff_exists.1 hvector
  obtain ⟨found, htype, hsame⟩ := h.type?_of_id? htypeId
  rw [Ty.same_vector_int_iff.1 hsame] at htype
  have hdeclared : (List.replicate n z).all r₁.constants.isDeclared = true :=
    List.all_eq_true.2 fun id hid =>
      List.eq_of_mem_replicate hid ▸ ConstantTable.isDeclared_of_id? hz
  rw [zeroVectorId_of_isValid hzero (h.isValid_of_constant hz) hn htypeId
    (h.isValid_of_type htypeId)]
  exact compositeId_of_declared htype List.length_replicate.symm hdeclared

/-- **A vector of zeros** has one zero in all of its lanes. -/
theorem zeroVectorId_obtains (h : Indexed r) {w n : Nat} {s : Bool}
    (hscalar : (r.types.id? (.int w s)).isSome = true)
    (hvector : (r.types.id? (.vector (.int w s) n)).isSome = true)
    (hrun : zeroVectorId w s n r = (id, r')) :
    Builds p r r' ∧ (id.isValid = true → 2 ≤ n ∧ ∃ z, r'.constants.id? (.zero w s) = some z ∧
      r'.constants.id? (zeros w s n z) = some id) := by
  rcases hzero : zeroScalarId w s r with ⟨z, r₁⟩
  obtain ⟨hbuilds, hz⟩ := zeroScalarId_obtains (p := p) (.inr hscalar) hzero
  have hvector' := (Extends.builds hbuilds).isSome_types_id? hvector
  obtain ⟨key, hkey⟩ := Option.isSome_iff_exists.1 hvector'
  by_cases hmade : z.isValid = true ∧ 2 ≤ n
  · obtain ⟨hvalid, hn⟩ := hmade
    have hp : p.constant r₁.constants (zeros w s n z) := p.composite _ fun id hid =>
      List.eq_of_mem_replicate hid ▸ ConstantTable.isDeclared_of_id? (hz hvalid)
    rw [zeroVectorId_eq (h.builds hbuilds) hn hvector' hzero (hz hvalid)] at hrun
    obtain ⟨hbuilds', hid⟩ := constantId_obtains (zeros_same_self w s n z) (.inr hvector') hp hrun
    have hextends := Extends.builds hbuilds'
    exact ⟨hbuilds.trans hbuilds', fun hvalid' =>
      ⟨hn, z, hextends.constants_id? (hz hvalid), hid hvalid'⟩⟩
  · -- either there is no lane, or else no such vector
    cases zeroVectorId_outcome hrun with
    | composite hzero' hvalid htype htypeValid =>
      cases hzero.symm.trans hzero'
      obtain ⟨-, ⟨⟨-, hn⟩, -⟩ | ⟨-, rfl⟩⟩ := TypeRegistry.vectorId_of_id? hkey htype
      · exact absurd ⟨hvalid, hn⟩ hmade
      · exact Id.absurd_invalid htypeValid
    | noVector hzero' _ htype =>
      cases hzero.symm.trans hzero'
      obtain ⟨rfl, -⟩ := TypeRegistry.vectorId_of_id? hkey htype
      exact ⟨hbuilds, Id.absurd_invalid⟩
    | noLane hzero' =>
      cases hzero.symm.trans hzero'
      exact ⟨hbuilds, Id.absurd_invalid⟩

/-- Other types have no zeros. -/
theorem zeroId_of_not_isIntegral {typeId : Id}
    (h : ¬ (r.types.type? typeId).any Ty.isIntegral = true) :
    zeroId typeId r = (Id.invalid, r) := by
  rw [zeroId]
  split
  · next htype => simp [htype, Ty.isIntegral] at h
  · next htype => simp [htype, Ty.isIntegral] at h
  · rfl

/-! ### Asking again -/

theorem zeroVectorId_again (h : Indexed r) {w n : Nat} {s : Bool} {z : Id} (hn : 2 ≤ n)
    (hvector : (r.types.id? (.vector (.int w s) n)).isSome = true)
    (hz : r.constants.id? (.zero w s) = some z)
    (hid : r.constants.id? (zeros w s n z) = some id) : zeroVectorId w s n r = (id, r) :=
  (zeroVectorId_eq h hn hvector (constantId_of_id? hz) hz).trans (constantId_of_id? hid)

end Registry
end ShiftBarrier
