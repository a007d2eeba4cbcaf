import ShiftBarrier.Proofs.Equality
import ShiftBarrier.Proofs.Outcome
import ShiftBarrier.Proofs.Tables
import ShiftBarrier.Proofs.WellFormed

/-!
# Tables that keep up with their module

What is declared on demand is entered in the tables without reading the module again.  It comes to
the same: a fresh analysis of the module gives tables that answer alike.

* `ConstantTable.Matches` relates tables that answer alike.
* `Mirrored` is the invariant: the tables are those of the module, up to names and spellings.
* `TypeTable.Admits` and `Registry.Admits` are the types and the constants that may be asked for.
* `Mirrored.typeId`, `Mirrored.vectorId`, `Mirrored.constantId`, `Mirrored.zeroScalarId` and
  `Mirrored.compositeId` keep the invariant, whether or not the ids suffice.
-/

set_option autoImplicit false

namespace ShiftBarrier

/-! ## Tables that list the same constants

The tables of the module as it is read again may spell a constant differently, so tables are
compared up to `Constant.Agrees`. -/

/-- Related lists are searched in step. -/
theorem rel_find? {α β : Type} {R : α → β → Prop} {p : α → Bool} {q : β → Bool} {as : List α}
    {bs : List β} (h : List.Forall₂ R as bs) (hpq : ∀ a b, R a b → p a = q b) :
    Option.Rel R (as.find? p) (bs.find? q) := by
  induction h with
  | nil => exact .none
  | @cons a b as bs hab _ ih =>
    rw [List.find?_cons, List.find?_cons, hpq a b hab]
    cases q b with
    | true => exact .some hab
    | false => exact ih

/-- Equal, or the same up to names and spellings.  A constant may be equal to itself without being
the same: a NaN is the same as nothing. -/
def Constant.Agrees (c c' : Constant) : Prop := c = c' ∨ c.same c' = true

theorem Constant.Agrees.same_eq {c c' : Constant} (h : c.Agrees c') (u : Constant) :
    c.same u = c'.same u := by
  rcases h with rfl | h
  · rfl
  · exact Constant.same_congr h u

namespace ConstantTable

variable {t t' : ConstantTable}

/-- The tables list the same ids with constants that agree. -/
def Matches (t t' : ConstantTable) : Prop :=
  List.Forall₂ (fun e e' => e.1 = e'.1 ∧ e.2.Agrees e'.2) t.entries t'.entries

namespace Matches

theorem refl (t : ConstantTable) : Matches t t :=
  List.forall₂_same.2 fun _ _ => ⟨rfl, .inl rfl⟩

theorem add (h : Matches t t') (id : Id) {c c' : Constant} (hc : c.Agrees c') :
    Matches (t.add id c) (t'.add id c') :=
  List.rel_append h (.cons ⟨rfl, hc⟩ .nil)

/-- A constant has the same id in both. -/
theorem id?_eq (h : Matches t t') (c : Constant) : t.id? c = t'.id? c := by
  have hfound := rel_find? h fun e e' he => he.2.same_eq c
  rw [id?, id?]
  generalize t.entries.find? (·.2.same c) = e, t'.entries.find? (·.2.same c) = e' at hfound ⊢
  cases hfound with
  | none => rfl
  | some hentry => exact congrArg some hentry.1

/-- An id stands for constants that agree. -/
theorem constant? (h : Matches t t') (id : Id) :
    Option.Rel Constant.Agrees (t.constant? id) (t'.constant? id) := by
  have hfound := rel_find? (List.rel_reverse h) fun e e' he => congrArg (Id.same · id) he.1
  rw [ConstantTable.constant?, ConstantTable.constant?, List.findRev?_eq_find?_reverse,
    List.findRev?_eq_find?_reverse]
  generalize t.entries.reverse.find? (·.1.same id) = e,
    t'.entries.reverse.find? (·.1.same id) = e' at hfound ⊢
  cases hfound with
  | none => exact .none
  | some hentry => exact .some hentry.2

theorem isDeclared_eq (h : Matches t t') (id : Id) : t.isDeclared id = t'.isDeclared id := by
  have hfound := h.constant? id
  rw [← isSome_constant?, ← isSome_constant?]
  generalize t.constant? id = c, t'.constant? id = c' at hfound ⊢
  cases hfound <;> rfl

end Matches

/-- More types do no harm to the constants that could be read. -/
theorem readAll_mono {types types' : TypeTable} {is : List Instruction}
    (htypes : ∀ id type, types.type? id = some type → types'.type? id = some type)
    (h : t.readAll types is = (.ok (), t')) : t.readAll types' is = (.ok (), t') := by
  induction is generalizing t with
  | nil => exact h
  | cons i is ih =>
    obtain ⟨t₁, hread, hrest⟩ := readAll_cons_eq_ok_iff.1 h
    refine readAll_cons_eq_ok_iff.2 ⟨t₁, read_eq_ok_iff.2 ?_, ih hrest⟩
    refine (read_eq_ok_iff.1 hread).imp_right ?_
    rintro ⟨id, type, c, hconstant, hid, htype, hdeclared⟩
    obtain ⟨typeId, htypeId, hfound⟩ := Option.bind_eq_some_iff.1 htype
    exact ⟨id, type, c, hconstant, hid,
      Option.bind_eq_some_iff.2 ⟨typeId, htypeId, htypes typeId type hfound⟩, hdeclared⟩

end ConstantTable

/-! ## The invariant

Every operation on a registry adds a declaration and an entry.  The invariant says that reading the
declaration would have made that entry. -/

/-- The tables are those of the module.  Ids are defined once, so that what is found under an id is
what was declared under it. -/
structure Mirrored (r : TypeRegistry) (constants : ConstantTable) : Prop where
  bound_pos : 0 < r.target.bound
  below : ∀ id ∈ r.target.globals.filterMap Instruction.result, id.Below r.target.bound
  once : ((r.target.globals.filterMap Instruction.result).map Id.number).Nodup
  types : TypeTable.analyze r.target = (.ok (), r.types)
  constants : ∃ t, ConstantTable.analyze r.types r.target = (.ok (), t) ∧ t.Matches constants

namespace Mirrored

variable {r r' : TypeRegistry} {constants : ConstantTable} {id : Id} {type : Ty}

theorem readFrom (h : Mirrored r constants) : r.types.ReadFrom r.target.globals := by
  have hread := TypeTable.readFrom_analyze r.target
  rwa [h.types] at hread

theorem nodup_types (h : Mirrored r constants) : (r.types.entries.map (·.1.number)).Nodup := by
  have hsublist := h.readFrom.ids.map Id.number
  rw [List.map_map] at hsublist
  exact h.once.sublist hsublist

/-- The first id of a type stands for it. -/
theorem type?_of_id? (h : Mirrored r constants) (hid : r.types.id? type = some id) :
    ∃ found, r.types.type? id = some found ∧ found.same type = true := by
  obtain ⟨found, hsame, hmem⟩ := TypeTable.mem_of_id? hid
  exact ⟨found, TypeTable.type?_of_mem h.nodup_types hmem, hsame⟩

/-- A type that is added takes no id from another. -/
theorem type?_add (h : Mirrored r constants) (new : Ty) (htype : r.types.type? id = some type) :
    (r.types.add ⟨r.target.bound, none⟩ new).type? id = some type := by
  obtain ⟨key, hkey, hmem⟩ := TypeTable.mem_of_type? htype
  have hbelow := h.below key (h.readFrom.ids.subset (List.mem_map_of_mem hmem))
  have hne : Id.same ⟨r.target.bound, none⟩ id = false := by
    rw [Id.same_eq_false_iff, ← Id.same_iff.1 hkey]
    exact Nat.ne_of_gt hbelow.2
  rw [TypeTable.type?_add, hne, if_neg Bool.false_ne_true]
  exact htype

/-! ### Additions -/

theorem withLog (h : Mirrored r constants) (log : Log) : Mirrored { r with log } constants :=
  ⟨h.bound_pos, h.below, h.once, h.types, h.constants⟩

/-- An instruction as it is added: with a new result and the next serial number. -/
def placed (m : Module) (i : Instruction) : Instruction :=
  { i with result := some ⟨m.bound, none⟩, serial := m.nextSerial }

/-- The module after an instruction with a new result was added. -/
def extended (m : Module) (i : Instruction) : Module :=
  { m with
    globals := m.globals ++ [placed m i]
    bound := m.bound + 1
    nextSerial := m.nextSerial + 1 }

theorem results_extended (m : Module) (i : Instruction) :
    (extended m i).globals.filterMap Instruction.result
      = m.globals.filterMap Instruction.result ++ [⟨m.bound, none⟩] := by
  rw [extended, List.filterMap_append]
  rfl

section Extended

variable {m : Module}
  (hbelow : ∀ id ∈ m.globals.filterMap Instruction.result, id.Below m.bound)
include hbelow

theorem below_extended (hpos : 0 < m.bound) (i : Instruction) :
    ∀ id ∈ (extended m i).globals.filterMap Instruction.result,
      id.Below (extended m i).bound := by
  rw [results_extended]
  refine List.forall_mem_append.2 ⟨fun id hid => (hbelow id hid).mono (Nat.le_succ _), ?_⟩
  exact List.forall_mem_singleton.2 ⟨hpos, Nat.lt_succ_self _⟩

theorem once_extended
    (honce : ((m.globals.filterMap Instruction.result).map Id.number).Nodup) (i : Instruction) :
    (((extended m i).globals.filterMap Instruction.result).map Id.number).Nodup := by
  rw [results_extended, List.map_append, List.nodup_append]
  refine ⟨honce, List.nodup_singleton _, ?_⟩
  rintro number hnumber _ hlast
  obtain ⟨id, hid, rfl⟩ := List.mem_map.1 hnumber
  obtain rfl := List.mem_singleton.1 hlast
  exact Nat.ne_of_lt (hbelow id hid).2

end Extended

/-- A type declaration adds its type. -/
theorem extendType (h : Mirrored r constants) {i : Instruction} (hopcode : i.isType = true)
    (hdeclared : r.types.declared (placed r.target i) = .ok type) (log : Log) :
    Mirrored ⟨extended r.target i, r.types.add ⟨r.target.bound, none⟩ type, log⟩ constants := by
  obtain ⟨t, hanalyze, hmatches⟩ := h.constants
  refine ⟨Nat.succ_pos _, below_extended h.below h.bound_pos i, once_extended h.below h.once i, ?_,
    t, ?_, hmatches⟩
  · have hold : TypeTable.readAll {} r.target.globals = (.ok (), r.types) := h.types
    have hread : r.types.read (placed r.target i)
        = .ok (r.types.add ⟨r.target.bound, none⟩ type) :=
      TypeTable.read_eq_ok_iff.2 (.inr ⟨_, type, hopcode, rfl, hdeclared, rfl⟩)
    rw [TypeTable.analyze, extended, TypeTable.readAll_append_of_ok hold]
    exact TypeTable.readAll_cons_eq_ok_iff.2 ⟨_, hread, rfl⟩
  · have hold : ConstantTable.readAll (r.types.add ⟨r.target.bound, none⟩ type) {}
        r.target.globals = (.ok (), t) :=
      ConstantTable.readAll_mono (fun _ _ htype => h.type?_add type htype) hanalyze
    have hconstant : (placed r.target i).isConstant = false := by
      rw [Bool.eq_false_iff]
      intro hconstant
      have hnot := isType_of_mem_constants (List.contains_iff_mem.1 hconstant)
      exact Bool.false_ne_true (hnot.symm.trans hopcode)
    rw [ConstantTable.analyze, extended, ConstantTable.readAll_append_of_ok hold]
    exact ConstantTable.readAll_cons_eq_ok_iff.2
      ⟨t, ConstantTable.read_eq_ok_iff.2 (.inl ⟨hconstant, rfl⟩), rfl⟩

/-- A constant declaration is read behind all others. -/
theorem analyze_extended {m : Module} {types : TypeTable} {t : ConstantTable} {i : Instruction}
    {typeId : Id} {c : Constant} (hopcode : i.isConstant = true) (htypeId : i.type = some typeId)
    (htype : types.type? typeId = some type)
    (hold : ConstantTable.analyze types m = (.ok (), t))
    (hdeclared : t.declared (placed m i) type = .ok c) :
    ConstantTable.analyze types (extended m i) = (.ok (), t.add ⟨m.bound, none⟩ c) := by
  have hold : ConstantTable.readAll types {} m.globals = (.ok (), t) := hold
  have hbind : (placed m i).type.bind types.type? = some type := by
    rw [placed, htypeId]
    exact htype
  have hread : t.read types (placed m i) = .ok (t.add ⟨m.bound, none⟩ c) :=
    ConstantTable.read_eq_ok_iff.2 (.inr ⟨_, type, c, hopcode, rfl, hbind, hdeclared, rfl⟩)
  rw [ConstantTable.analyze, extended, ConstantTable.readAll_append_of_ok hold]
  exact ConstantTable.readAll_cons_eq_ok_iff.2 ⟨_, hread, rfl⟩

/-- A constant declaration adds its constant. -/
theorem extendConstant (h : Mirrored r constants) {i : Instruction} {typeId : Id}
    (hopcode : i.isConstant = true) (htypeId : i.type = some typeId)
    (htype : r.types.type? typeId = some type) {c : Constant}
    (hdeclared : ∀ t : ConstantTable, t.Matches constants →
      ∃ c', t.declared (placed r.target i) type = .ok c' ∧ c'.Agrees c) (log : Log) :
    Mirrored ⟨extended r.target i, r.types, log⟩ (constants.add ⟨r.target.bound, none⟩ c) := by
  obtain ⟨t, hanalyze, hmatches⟩ := h.constants
  obtain ⟨c', hc', hagrees⟩ := hdeclared t hmatches
  refine ⟨Nat.succ_pos _, below_extended h.below h.bound_pos i, once_extended h.below h.once i, ?_,
    t.add ⟨r.target.bound, none⟩ c', ?_, hmatches.add _ hagrees⟩
  · have hold : TypeTable.readAll {} r.target.globals = (.ok (), r.types) := h.types
    have hnot : (placed r.target i).isType = false :=
      isType_of_mem_constants (List.contains_iff_mem.1 hopcode)
    rw [TypeTable.analyze, extended, TypeTable.readAll_append_of_ok hold]
    exact TypeTable.readAll_of_not_isType (List.forall_mem_singleton.2 hnot)
  · exact analyze_extended hopcode htypeId htype hanalyze hc'

end Mirrored

/-! ## Types on demand

That a declaration is read as what it was made for is shown once for each kind of type; everything
else is about ids. -/

/-- The types that can be declared: they are interpreted, and sound. -/
inductive Ty.Declarable : Ty → Prop
  | int {w : Nat} {s : Bool} (hw : 0 < w) : Declarable (.int w s)
  | float {w : Int} : Declarable (.float w)
  | bool : Declarable .bool
  | void : Declarable .void
  | vector {element : Ty} {n : Nat} (hscalar : element.isScalar = true)
      (helement : Declarable element) (hn : 2 ≤ n) : Declarable (.vector element n)

theorem Ty.Declarable.same_refl {type : Ty} (h : type.Declarable) : type.same type = true := by
  cases h with
  | vector hscalar => simp [Ty.same, Ty.same_refl_of_isScalar hscalar]
  | void => rfl
  | _ => exact Ty.same_refl_of_isScalar rfl

/-- No two scalar types are the same. -/
theorem Ty.eq_of_same_of_isScalar {found type : Ty} (h : found.same type = true)
    (hscalar : type.isScalar = true) : found = type := by
  cases found <;> cases type <;> simp_all [Ty.same, Ty.isScalar]

/-- The types that can be had: those that can be declared, and those that are. -/
def TypeTable.Admits (t : TypeTable) (type : Ty) : Prop :=
  type.Declarable ∨ (t.id? type).isSome = true

namespace Mirrored

variable {r r' : TypeRegistry} {constants : ConstantTable} {id : Id} {type : Ty}

/-- What is known after a type was asked for: if there is an id, it stands for the type. -/
structure Typed (r' : TypeRegistry) (constants : ConstantTable) (id : Id) (type : Ty) : Prop where
  mirrored : Mirrored r' constants
  type? : id.isValid = true → ∃ found, r'.types.type? id = some found ∧ found.same type = true

theorem Typed.invalid (h : Mirrored r constants) (type : Ty) : Typed r constants Id.invalid type :=
  ⟨h, fun hvalid => absurd hvalid Bool.false_ne_true⟩

theorem Typed.found (h : Mirrored r constants) (hid : r.types.id? type = some id) :
    Typed r constants id type :=
  ⟨h, fun _ => h.type?_of_id? hid⟩

/-- Declaring a type by an instruction that is read as that type. -/
theorem declare (h : Mirrored r constants) {opcode : String} {operands : List Operand}
    (hsame : type.same type = true) (hopcode : Opcode.isType opcode = true)
    (hdeclared : r.types.declared (placed r.target { opcode, operands }) = .ok type)
    (hrun : r.declare type opcode operands = (id, r')) : Typed r' constants id type := by
  rcases r.declare_cases type opcode operands with ⟨-, -, heq⟩ | heq
  · cases heq.symm.trans hrun
    refine ⟨h.extendType (i := { opcode, operands }) hopcode hdeclared r.log, fun _ => ?_⟩
    refine ⟨type, ?_, hsame⟩
    rw [TypeRegistry.extend, TypeTable.type?_add, Id.same_refl, if_pos rfl]
  · cases heq.symm.trans hrun
    exact Typed.invalid (h.withLog _) type

/-- The declaration of an integer type is read as that type. -/
theorem declared_int {t : TypeTable} {m : Module} {w : Nat} {s : Bool} (hw : 0 < w) :
    t.declared (placed m
      { opcode := "OpTypeInt",
        operands := [TypeRegistry.number w, TypeRegistry.number (if s then 1 else 0)] })
        = .ok (.int w s) := by
  have hmake : Ty.makeInt w s = .ok (.int w s) := by
    rw [Ty.makeInt, if_pos (Int.natCast_pos.2 hw), Int.toNat_natCast]
  cases s <;> exact hmake

/-- The declaration of a vector is read as one of the element type that its id stands for. -/
theorem declared_vector {t : TypeTable} {m : Module} {element : Ty} {n : Nat}
    (hid : t.type? id = some element) (hscalar : element.isScalar = true) (hn : 2 ≤ n) :
    t.declared (placed m
      { opcode := "OpTypeVector", operands := [.id id, TypeRegistry.number n] })
        = .ok (.vector element n) := by
  let i := placed m { opcode := "OpTypeVector", operands := [.id id, TypeRegistry.number n] }
  have helement : t.element i = .ok element := by
    have hoperand : i.operands[0]? = some (.id id) := rfl
    rw [TypeTable.element, hoperand]
    dsimp only
    rw [Operand.id?, Option.bind_some, hid]
    dsimp only
    rw [if_pos hscalar]
    rfl
  show (t.element i >>= fun element => TypeTable.literal i 1 >>= Ty.makeVector element) = _
  rw [helement]
  show Ty.makeVector element n = _
  rw [Ty.makeVector, if_pos (by omega), Int.toNat_natCast]

/-- The declaration of a type that consists of no others is read as that type. -/
theorem declare_plain (h : Mirrored r constants) {opcode : String} {operands : List Operand}
    (hplain : TypeRegistry.Plain type opcode operands) (htype : type.Declarable)
    (hrun : r.declare type opcode operands = (id, r')) : Typed r' constants id type := by
  cases hplain with
  | int w s =>
    cases htype with
    | int hw => exact h.declare (Ty.Declarable.int hw).same_refl rfl (declared_int hw) hrun
  | float => exact h.declare htype.same_refl rfl rfl hrun
  | bool => exact h.declare rfl rfl rfl hrun
  | void => exact h.declare rfl rfl rfl hrun

/-- **A type that is asked for stands for its id**, also when the module is read again. -/
theorem typeId (h : Mirrored r constants) (hadmits : r.types.Admits type)
    (hrun : TypeRegistry.typeId type r = (id, r')) : Typed r' constants id type := by
  have houtcome := TypeRegistry.typeId_outcome hrun
  clear hrun
  -- what is missing is declared, so it can be, and so can the element of a vector
  have hdeclarable : ∀ {type}, r.types.id? type = none → r.types.Admits type → type.Declarable :=
    fun hmissing hadmits => hadmits.resolve_right (by simp [hmissing])
  induction houtcome with
  | found hid => exact Typed.found h hid
  | plain hmissing hplain hrun => exact h.declare_plain hplain (hdeclarable hmissing hadmits) hrun
  | vector hmissing _ hvalid hrun ih =>
    cases hdeclarable hmissing hadmits with
    | vector hscalar helement hn =>
      have htyped := ih (.inl helement)
      obtain ⟨found, hfound, hsame⟩ := htyped.type? hvalid
      rw [Ty.eq_of_same_of_isScalar hsame hscalar] at hfound
      exact htyped.mirrored.declare (Ty.Declarable.vector hscalar helement hn).same_refl rfl
        (declared_vector hfound hscalar hn) hrun
  | noElement hmissing _ _ ih =>
    cases hdeclarable hmissing hadmits with
    | vector _ helement => exact Typed.invalid (ih (.inl helement)).mirrored _
  | other => exact Typed.invalid h _

end Mirrored

/-! ## Constants on demand

The type of a constant is looked up again by its id, which may give a type that is only the same. -/

/-- The constants that can be had: numbers that fit their types, truth values, composites of
declared constants, and null constants. -/
inductive Registry.Admits (r : Registry) : Constant → Prop
  /-- A bit pattern.  Longer ones than `Integer.maxBits` cannot be read again. -/
  | integer {w : Nat} {s : Bool} {n : Int} (hpos : 0 < w) (hw : w ≤ Integer.maxBits) (h0 : 0 ≤ n)
      (hn : n < 2 ^ w) : Admits r (.scalar (.int w s) (.int n))
  | float {w : Int} {x : Binary64} (hx : x.isNaN = false) : Admits r (.scalar (.float w) (.float x))
  | bool {b : Bool} : Admits r (.bool .bool b)
  | composite {type : Ty} {ids : List Id} (htype : r.types.Admits type)
      (hids : ∀ id ∈ ids, r.constants.isDeclared id = true) : Admits r (.composite type ids)
  | null {type : Ty} (htype : r.types.Admits type) : Admits r (.null type)

theorem Registry.Admits.type {r : Registry} {c : Constant} (h : r.Admits c) :
    r.types.Admits c.type := by
  cases h with
  | integer hpos => exact .inl (.int hpos)
  | float => exact .inl .float
  | bool => exact .inl .bool
  | composite htype => exact htype
  | null htype => exact htype

/-- The constant, of another type. -/
def Constant.withType (type : Ty) : Constant → Constant
  | .scalar _ v => .scalar type v
  | .bool _ b => .bool type b
  | .composite _ ids => .composite type ids
  | .null _ => .null type

namespace Mirrored

variable {r r' : Registry} {c : Constant} {id : Id} {type : Ty}

/-- The declaration of a constant is read as that constant, of the type its id stands for. -/
theorem declared_declaration (hadmits : r.Admits c) (hsame : type.same c.type = true)
    {t : ConstantTable} (hmatches : t.Matches r.constants) (m : Module) (typeId : Id) :
    t.declared (placed m
        { opcode := c.declaration.1, type := some typeId, operands := c.declaration.2 }) type
      = .ok (c.withType type) := by
  cases hadmits with
  | @integer w s n hpos hw h0 hn =>
    have htype : type = .int w s := Ty.eq_of_same_of_isScalar hsame rfl
    subst htype
    show Constant.ofLiteral (.int w s) (.int n) = _
    rw [Constant.ofLiteral, Integer.checkBits, if_pos hw]
    show Except.ok (Constant.scalar (.int w s) (.int (Integer.low w n))) = _
    rw [Integer.low_of_lt h0 hn]
    rfl
  | @float w x hx =>
    have htype : type = .float w := Ty.eq_of_same_of_isScalar hsame rfl
    subst htype
    rfl
  | @bool b =>
    have htype : type = .bool := Ty.eq_of_same_of_isScalar hsame rfl
    subst htype
    cases b <;> rfl
  | @composite compositeType ids htype hids =>
    have hcomponents : ∀ opcode, t.components (placed m
        { opcode, type := some typeId, operands := ids.map .id }) = .ok ids := by
      intro opcode
      show (ids.map Operand.id).mapM _ = _
      rw [mapM_eq_ok_iff, List.forall₂_map_left_iff, List.forall₂_same]
      intro id hid
      rw [Operand.id?]
      dsimp only
      rw [if_pos ((hmatches.isDeclared_eq id).trans (hids id hid))]
      rfl
    show (t.components _ >>= fun cs => .ok (Constant.composite type cs)) = _
    dsimp only [Constant.declaration]
    rw [hcomponents]
    rfl
  | null htype => rfl

/-- A constant that can be had is the same as itself, also of a type that is only the same. -/
theorem same_withType (hadmits : r.Admits c) (hsame : type.same c.type = true) :
    (c.withType type).same c = true := by
  cases hadmits with
  | integer =>
    rw [Constant.withType, Constant.same, Bool.and_eq_true]
    exact ⟨hsame, beq_self_eq_true _⟩
  | @float w x hx =>
    rw [Constant.withType, Constant.same, Bool.and_eq_true]
    exact ⟨hsame, by simp [Number.same, Binary64.equal, hx]⟩
  | bool =>
    rw [Constant.withType, Constant.same, Bool.and_eq_true]
    exact ⟨hsame, beq_self_eq_true _⟩
  | composite =>
    rw [Constant.withType, Constant.same, Bool.and_eq_true]
    exact ⟨hsame, isEqv_refl fun id _ => Id.same_refl id⟩
  | null => exact hsame

/-- **A constant that is asked for is entered as it will be read.** -/
theorem constantId (h : Mirrored r.toTypeRegistry r.constants) (hadmits : r.Admits c)
    (hrun : Registry.constantId c r = (id, r')) : Mirrored r'.toTypeRegistry r'.constants := by
  cases Registry.constantId_outcome hrun with
  | found => exact h
  | @declared typeId _ _ htype hvalid =>
    have htyped := h.typeId hadmits.type htype
    obtain ⟨found, hfound, hsame⟩ := htyped.type? hvalid
    refine htyped.mirrored.extendConstant (i :=
      { opcode := c.declaration.1, type := some typeId, operands := c.declaration.2 })
      (List.contains_iff_mem.2 (opcode_mem_constants c)) rfl hfound (fun t hmatches => ?_) _
    exact ⟨_, declared_declaration hadmits hsame hmatches _ typeId,
      .inr (same_withType hadmits hsame)⟩
  | full _ htype => exact (h.typeId hadmits.type htype).mirrored.withLog _
  | noType _ htype => exact (h.typeId hadmits.type htype).mirrored

theorem zeroScalarId (h : Mirrored r.toTypeRegistry r.constants) {w : Nat} {s : Bool}
    (hpos : 0 < w) (hw : w ≤ Integer.maxBits) (hrun : Registry.zeroScalarId w s r = (id, r')) :
    Mirrored r'.toTypeRegistry r'.constants :=
  h.constantId (.integer hpos hw (Int.le_refl 0) (Int.pow_pos (by decide))) hrun

/-- A scalar type that can be had can be declared. -/
theorem declarable_of_admits {q : TypeRegistry} {constants : ConstantTable}
    (h : Mirrored q constants) (hadmits : q.types.Admits type) (hscalar : type.isScalar = true) :
    type.Declarable := by
  rcases hadmits with hdeclarable | hdeclared
  · exact hdeclarable
  · obtain ⟨id, hid⟩ := Option.isSome_iff_exists.1 hdeclared
    obtain ⟨found, hsame, hmem⟩ := TypeTable.mem_of_id? hid
    rw [Ty.eq_of_same_of_isScalar hsame hscalar] at hmem
    cases h.readFrom.formed _ hmem with
    | int hw => exact .int hw
    | float => exact .float
    | bool => exact .bool
    | _ => cases hscalar

theorem vectorId {q q' : TypeRegistry} {constants : ConstantTable} (h : Mirrored q constants)
    (hadmits : q.types.Admits type) {count : Int}
    (hrun : TypeRegistry.vectorId type count q = (id, q')) : Mirrored q' constants := by
  rcases TypeRegistry.vectorId_cases hrun with ⟨hcount, hrun⟩ | ⟨-, -, rfl⟩
  · have hdeclarable : (Ty.vector type count.toNat).Declarable :=
      .vector hcount.1 (h.declarable_of_admits hadmits hcount.1) (by omega)
    exact (h.typeId (.inl hdeclarable) hrun).mirrored
  · exact h

/-- A composite is of a declared type, or none. -/
theorem compositeId (h : Mirrored r.toTypeRegistry r.constants) {typeId : Id} {ids : List Id}
    (hrun : Registry.compositeId typeId ids r = (id, r')) :
    Mirrored r'.toTypeRegistry r'.constants := by
  rcases Registry.compositeId_cases hrun with ⟨element, htype, hdeclared, hrun⟩ | ⟨-, rfl⟩
  · refine h.constantId (.composite (.inr ?_) (List.all_eq_true.1 hdeclared)) hrun
    obtain ⟨key, -, hmem⟩ := TypeTable.mem_of_type? htype
    have hformed := h.readFrom.formed _ hmem
    have hsame : (Ty.vector element ids.length).same (.vector element ids.length) = true := by
      cases hformed with
      | vector hscalar => simp [Ty.same, Ty.same_refl_of_isScalar hscalar]
    obtain ⟨found, hfound⟩ := TypeTable.exists_id?_of_mem hmem hsame
    rw [hfound]
    rfl
  · exact h

end Mirrored

end ShiftBarrier
