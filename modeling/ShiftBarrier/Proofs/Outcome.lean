import ShiftBarrier.Registry

/-!
# What comes of asking for an id

An operation on a registry answers with the id of what is there, or of what it declares, or else
with the invalid id.  What can come of each operation is said here once; whatever the operations
keep is proved case by case from it.

* `TypeRegistry.takeId_cases` and `TypeRegistry.declare_cases` are about a single id and a single
  declaration.
* `TypeRegistry.TypeOutcome` is what comes of `TypeRegistry.typeId`.
* `Registry.ConstantOutcome`, `Registry.ZeroVectorOutcome` and `Registry.ZeroOutcome` are what comes
  of `Registry.constantId`, `Registry.zeroVectorId` and `Registry.zeroId`.
-/

set_option autoImplicit false

namespace ShiftBarrier

/-- Nothing has the invalid id. -/
theorem Id.absurd_invalid {p : Prop} (h : Id.invalid.isValid = true) : p :=
  absurd h Bool.false_ne_true

/-- The next id is valid in a module that has a bound. -/
theorem Id.isValid_of_pos {n : Nat} (h : 0 < n) : Id.isValid ⟨n, none⟩ = true :=
  bne_iff_ne.2 (Nat.ne_of_gt h)

theorem Ty.cases_of_isIntegral {type : Ty} (h : type.isIntegral = true) :
    (∃ w s, type = .int w s) ∨ ∃ w s n, type = .vector (.int w s) n := by
  cases type with
  | int w s => exact .inl ⟨w, s, rfl⟩
  | vector e n =>
    cases e with
    | int w s => exact .inr ⟨w, s, n, rfl⟩
    | _ => cases h
  | _ => cases h

/-! ## Types

What comes of asking is listed once, case by case, with the registry of each case.  Later proofs
split on the outcome and never unfold the operation. -/

namespace TypeRegistry

variable {q q' : TypeRegistry} {type : Ty} {id : Id}

/-- Either the next id is handed out, or nothing but a log record comes of it. -/
theorem takeId_cases (q : TypeRegistry) :
    (0 < q.target.bound ∧ q.target.bound < q.target.maxIdBound ∧
      q.takeId = (⟨q.target.bound, none⟩,
        { q with target := { q.target with bound := q.target.bound + 1 } })) ∨
    ((0 < q.target.bound → q.target.maxIdBound ≤ q.target.bound) ∧
      q.takeId = (Id.invalid, { q with log := q.log ++ [.idOverflow] })) := by
  rw [takeId]
  rcases Nat.lt_or_ge q.target.bound q.target.maxIdBound with hlt | hge
  · rw [Module.takeId_of_lt hlt]
    rcases Nat.eq_zero_or_pos q.target.bound with hzero | hpos
    · -- a module without a bound hands out the invalid id
      rw [hzero]
      exact .inr ⟨fun hpos => absurd hpos (Nat.lt_irrefl 0), rfl⟩
    · exact .inl ⟨hpos, hlt, if_pos (Id.isValid_of_pos hpos)⟩
  · rw [Module.takeId_of_le hge]
    exact .inr ⟨fun _ => hge, rfl⟩

/-- The registry after a type was declared under the next id. -/
def extend (q : TypeRegistry) (type : Ty) (opcode : String) (operands : List Operand) :
    TypeRegistry :=
  { q with
    target := ({ q.target with bound := q.target.bound + 1 } : Module).addGlobal
      { opcode, result := some ⟨q.target.bound, none⟩, operands }
    types := q.types.add ⟨q.target.bound, none⟩ type }

theorem declare_cases (q : TypeRegistry) (type : Ty) (opcode : String) (operands : List Operand) :
    (0 < q.target.bound ∧ q.target.bound < q.target.maxIdBound ∧
      q.declare type opcode operands
        = (⟨q.target.bound, none⟩, q.extend type opcode operands)) ∨
    q.declare type opcode operands = (Id.invalid, { q with log := q.log ++ [.idOverflow] }) := by
  rw [declare]
  rcases q.takeId_cases with ⟨hpos, hlt, htake⟩ | ⟨-, htake⟩
  · rw [htake]
    exact .inl ⟨hpos, hlt, if_pos (Id.isValid_of_pos hpos)⟩
  · rw [htake]
    exact .inr rfl

/-- How a type that consists of no others is declared. -/
inductive Plain : Ty → String → List Operand → Prop
  | int (w : Nat) (s : Bool) :
      Plain (.int w s) "OpTypeInt" [number w, number (if s then 1 else 0)]
  | float (w : Int) : Plain (.float w) "OpTypeFloat" [number w]
  | bool : Plain .bool "OpTypeBool" []
  | void : Plain .void "OpTypeVoid" []

/-- What comes of asking for a type.  The element of a vector is asked for first, and stays declared
if the vector cannot be. -/
inductive TypeOutcome (q : TypeRegistry) : Ty → Id → TypeRegistry → Prop
  | found {type : Ty} {id : Id} (hid : q.types.id? type = some id) : TypeOutcome q type id q
  | plain {type : Ty} {opcode : String} {operands : List Operand} {id : Id} {q' : TypeRegistry}
      (hmissing : q.types.id? type = none) (hplain : Plain type opcode operands)
      (hrun : q.declare type opcode operands = (id, q')) : TypeOutcome q type id q'
  | vector {element : Ty} {count : Nat} {elementId id : Id} {q₁ q' : TypeRegistry}
      (hmissing : q.types.id? (.vector element count) = none)
      (helement : TypeOutcome q element elementId q₁) (hvalid : elementId.isValid = true)
      (hrun : q₁.declare (.vector element count) "OpTypeVector" [.id elementId, number count]
        = (id, q')) : TypeOutcome q (.vector element count) id q'
  | noElement {element : Ty} {count : Nat} {elementId : Id} {q₁ : TypeRegistry}
      (hmissing : q.types.id? (.vector element count) = none)
      (helement : TypeOutcome q element elementId q₁) (hinvalid : ¬ elementId.isValid = true) :
      TypeOutcome q (.vector element count) Id.invalid q₁
  | other {opcode : String} {operands : List Operand}
      (hmissing : q.types.id? (.other opcode operands) = none) :
      TypeOutcome q (.other opcode operands) Id.invalid q

theorem typeId_of_id? (hid : q.types.id? type = some id) : typeId type q = (id, q) := by
  rw [typeId.eq_def]
  dsimp only
  rw [hid]

theorem typeId_of_plain {opcode : String} {operands : List Operand}
    (hplain : Plain type opcode operands) (hmissing : q.types.id? type = none) :
    typeId type q = q.declare type opcode operands := by
  rw [typeId.eq_def]
  dsimp only
  rw [hmissing]
  cases hplain <;> rfl

theorem TypeOutcome.of_plain {opcode : String} {operands : List Operand}
    (hplain : Plain type opcode operands) (h : typeId type q = (id, q')) :
    TypeOutcome q type id q' := by
  cases hid : q.types.id? type with
  | some key =>
    rw [typeId_of_id? hid] at h
    cases h
    exact .found hid
  | none =>
    rw [typeId_of_plain hplain hid] at h
    exact .plain hid hplain h

/-- **Asking for a type** has one of these outcomes. -/
theorem typeId_outcome (h : typeId type q = (id, q')) : TypeOutcome q type id q' := by
  induction type generalizing id q' with
  | int w s => exact .of_plain (.int w s) h
  | float w => exact .of_plain (.float w) h
  | bool => exact .of_plain .bool h
  | void => exact .of_plain .void h
  | vector element count ih =>
    rw [typeId.eq_def] at h
    dsimp only at h
    split at h
    · cases h
      exact .found ‹_›
    · rcases helement : typeId element q with ⟨elementId, q₁⟩
      rw [helement] at h
      dsimp only at h
      split at h
      · exact .vector ‹_› (ih helement) ‹_› h
      · cases h
        exact .noElement ‹_› (ih helement) ‹_›
  | other opcode operands =>
    rw [typeId.eq_def] at h
    dsimp only at h
    split at h
    · cases h
      exact .found ‹_›
    · cases h
      exact .other ‹_›

/-- A vector type is asked for if there can be one, and nothing happens otherwise. -/
theorem vectorId_cases {element : Ty} {count : Int} (h : vectorId element count q = (id, q')) :
    ((element.isScalar = true ∧ 2 ≤ count) ∧ typeId (.vector element count.toNat) q = (id, q')) ∨
      (¬ (element.isScalar = true ∧ 2 ≤ count) ∧ id = Id.invalid ∧ q' = q) := by
  rw [vectorId] at h
  split at h
  · next hcount => exact .inl ⟨hcount, h⟩
  · next hcount =>
    cases h
    exact .inr ⟨hcount, rfl, rfl⟩

/-- Asking for a vector type that is declared changes nothing. -/
theorem vectorId_of_id? {element : Ty} {n : Nat} {key : Id}
    (hid : q.types.id? (.vector element n) = some key) (h : vectorId element n q = (id, q')) :
    q' = q ∧ (((element.isScalar = true ∧ 2 ≤ n) ∧ id = key) ∨
      (¬ (element.isScalar = true ∧ 2 ≤ n) ∧ id = Id.invalid)) := by
  rcases vectorId_cases h with ⟨hcount, h⟩ | ⟨hcount, rfl, rfl⟩
  · rw [Int.toNat_natCast, typeId_of_id? hid] at h
    cases h
    exact ⟨rfl, .inl ⟨⟨hcount.1, Int.ofNat_le.1 hcount.2⟩, rfl⟩⟩
  · exact ⟨rfl, .inr ⟨fun hn => hcount ⟨hn.1, Int.ofNat_le.2 hn.2⟩, rfl⟩⟩

end TypeRegistry

/-! ## Constants

As for types, all cases are listed.  The type is asked for before the constant, and the lanes of a
vector before its type. -/

namespace Registry

variable {r r' : Registry} {c : Constant} {id : Id}

theorem takeId_cases (r : Registry) :
    (0 < r.target.bound ∧ r.target.bound < r.target.maxIdBound ∧
      r.takeId = (⟨r.target.bound, none⟩,
        { r with target := { r.target with bound := r.target.bound + 1 } })) ∨
    ((0 < r.target.bound → r.target.maxIdBound ≤ r.target.bound) ∧
      r.takeId = (Id.invalid, { r with log := r.log ++ [.idOverflow] })) := by
  rw [takeId, onTypes]
  rcases r.toTypeRegistry.takeId_cases with ⟨hpos, hlt, htake⟩ | ⟨hfull, htake⟩
  · exact .inl ⟨hpos, hlt, by rw [htake]⟩
  · exact .inr ⟨hfull, by rw [htake]⟩

/-- The registry after a constant was declared under the next id. -/
def extend (r : Registry) (c : Constant) (type : Id) : Registry :=
  { r with
    target := ({ r.target with bound := r.target.bound + 1 } : Module).addGlobal
      { opcode := c.declaration.1, type := some type, result := some ⟨r.target.bound, none⟩,
        operands := c.declaration.2 }
    constants := r.constants.add ⟨r.target.bound, none⟩ c }

/-- What comes of asking for a constant.  Its type is asked for first, and stays declared if the
constant cannot be. -/
inductive ConstantOutcome (r : Registry) (c : Constant) : Id → Registry → Prop
  | found {id : Id} (hid : r.constants.id? c = some id) : ConstantOutcome r c id r
  | declared {type : Id} {q : TypeRegistry} (hmissing : r.constants.id? c = none)
      (htype : TypeRegistry.typeId c.type r.toTypeRegistry = (type, q))
      (hvalid : type.isValid = true) (hpos : 0 < q.target.bound)
      (hlt : q.target.bound < q.target.maxIdBound) :
      ConstantOutcome r c ⟨q.target.bound, none⟩ (extend ⟨q, r.constants⟩ c type)
  | full {type : Id} {q : TypeRegistry} (hmissing : r.constants.id? c = none)
      (htype : TypeRegistry.typeId c.type r.toTypeRegistry = (type, q))
      (hfull : 0 < q.target.bound → q.target.maxIdBound ≤ q.target.bound) :
      ConstantOutcome r c Id.invalid ⟨{ q with log := q.log ++ [.idOverflow] }, r.constants⟩
  | noType {type : Id} {q : TypeRegistry} (hmissing : r.constants.id? c = none)
      (htype : TypeRegistry.typeId c.type r.toTypeRegistry = (type, q))
      (hinvalid : ¬ type.isValid = true) : ConstantOutcome r c Id.invalid ⟨q, r.constants⟩

/-- **Asking for a constant** has one of these outcomes. -/
theorem constantId_outcome (h : constantId c r = (id, r')) : ConstantOutcome r c id r' := by
  rw [constantId] at h
  split at h
  · cases h
    exact .found ‹_›
  · rw [onTypes] at h
    rcases htype : TypeRegistry.typeId c.type r.toTypeRegistry with ⟨type, q⟩
    rw [htype] at h
    dsimp only at h
    split at h
    · rcases takeId_cases ⟨q, r.constants⟩ with ⟨hpos, hlt, htake⟩ | ⟨hfull, htake⟩
      · rw [htake] at h
        dsimp only at h
        rw [if_pos (Id.isValid_of_pos hpos)] at h
        cases h
        exact .declared ‹_› htype ‹_› hpos hlt
      · rw [htake] at h
        cases h
        exact .full ‹_› htype hfull
    · cases h
      exact .noType ‹_› htype ‹_›

theorem constantId_of_id? (hid : r.constants.id? c = some id) : constantId c r = (id, r) := by
  rw [constantId, hid]

/-- A composite of declared constants is a constant like any other. -/
theorem compositeId_of_declared {type : Id} {element : Ty} {count : Nat} {components : List Id}
    (htype : r.types.type? type = some (.vector element count)) (hcount : count = components.length)
    (hdeclared : components.all r.constants.isDeclared = true) :
    compositeId type components r
      = constantId (.composite (.vector element count) components) r := by
  rw [compositeId, htype]
  exact if_pos ⟨hcount, hdeclared⟩

/-- Nothing comes of asking for any other composite. -/
theorem compositeId_cases {type : Id} {components : List Id}
    (h : compositeId type components r = (id, r')) :
    (∃ element, r.types.type? type = some (.vector element components.length) ∧
      components.all r.constants.isDeclared = true ∧
      constantId (.composite (.vector element components.length) components) r = (id, r')) ∨
    (id = Id.invalid ∧ r' = r) := by
  rw [compositeId] at h
  split at h
  · next element count htype =>
    split at h
    · next hcomponents =>
      obtain ⟨rfl, hdeclared⟩ := hcomponents
      exact .inl ⟨element, htype, hdeclared, h⟩
    · cases h
      exact .inr ⟨rfl, rfl⟩
  · cases h
    exact .inr ⟨rfl, rfl⟩

/-- What comes of asking for a vector of zeros: its lanes are asked for first, and its type next. -/
inductive ZeroVectorOutcome (r : Registry) (w : Nat) (s : Bool) (n : Nat) : Id → Registry → Prop
  | composite {zero type id : Id} {r₁ r' : Registry} {q : TypeRegistry}
      (hzero : zeroScalarId w s r = (zero, r₁)) (hvalid : zero.isValid = true)
      (htype : TypeRegistry.vectorId (.int w s) n r₁.toTypeRegistry = (type, q))
      (htypeValid : type.isValid = true)
      (hrun : compositeId type (List.replicate n zero) ⟨q, r₁.constants⟩ = (id, r')) :
      ZeroVectorOutcome r w s n id r'
  | noVector {zero type : Id} {r₁ : Registry} {q : TypeRegistry}
      (hzero : zeroScalarId w s r = (zero, r₁)) (hvalid : zero.isValid = true)
      (htype : TypeRegistry.vectorId (.int w s) n r₁.toTypeRegistry = (type, q))
      (hinvalid : ¬ type.isValid = true) : ZeroVectorOutcome r w s n Id.invalid ⟨q, r₁.constants⟩
  | noLane {zero : Id} {r₁ : Registry} (hzero : zeroScalarId w s r = (zero, r₁))
      (hinvalid : ¬ zero.isValid = true) : ZeroVectorOutcome r w s n Id.invalid r₁

theorem zeroVectorId_outcome {w n : Nat} {s : Bool} (h : zeroVectorId w s n r = (id, r')) :
    ZeroVectorOutcome r w s n id r' := by
  rw [zeroVectorId] at h
  rcases hzero : zeroScalarId w s r with ⟨zero, r₁⟩
  rw [hzero] at h
  dsimp only at h
  split at h
  · rw [onTypes] at h
    rcases htype : TypeRegistry.vectorId (.int w s) n r₁.toTypeRegistry with ⟨type, q⟩
    rw [htype] at h
    dsimp only at h
    split at h
    · exact .composite hzero ‹_› htype ‹_› h
    · cases h
      exact .noVector hzero ‹_› htype ‹_›
  · cases h
    exact .noLane hzero ‹_›

/-- With its lanes and its type at hand, a vector of zeros is a composite. -/
theorem zeroVectorId_of_isValid {w n : Nat} {s : Bool} {zero type : Id} {r₁ : Registry}
    (hzero : zeroScalarId w s r = (zero, r₁)) (hvalid : zero.isValid = true) (hn : 2 ≤ n)
    (htype : r₁.types.id? (.vector (.int w s) n) = some type) (htypeValid : type.isValid = true) :
    zeroVectorId w s n r = compositeId type (List.replicate n zero) r₁ := by
  have hvector : TypeRegistry.vectorId (.int w s) n r₁.toTypeRegistry
      = (type, r₁.toTypeRegistry) := by
    rw [TypeRegistry.vectorId, if_pos ⟨rfl, Int.ofNat_le.2 hn⟩, Int.toNat_natCast,
      TypeRegistry.typeId_of_id? htype]
  rw [zeroVectorId, hzero]
  dsimp only
  rw [if_pos hvalid, onTypes, hvector]
  exact if_pos htypeValid

theorem zeroVectorId_of_not_isValid {w : Nat} {s : Bool} {zero : Id} {r₁ : Registry}
    (hzero : zeroScalarId w s r = (zero, r₁)) (hinvalid : ¬ zero.isValid = true) (n : Nat) :
    zeroVectorId w s n r = (Id.invalid, r₁) := by
  rw [zeroVectorId, hzero]
  exact if_neg hinvalid

/-- What comes of asking for the zero of a type: only integers and vectors of integers have one. -/
inductive ZeroOutcome (r : Registry) (type id : Id) (r' : Registry) : Prop
  | scalar {w : Nat} {s : Bool} (htype : r.types.type? type = some (.int w s))
      (hrun : zeroScalarId w s r = (id, r'))
  | vector {w n : Nat} {s : Bool} (htype : r.types.type? type = some (.vector (.int w s) n))
      (hrun : zeroVectorId w s n r = (id, r'))
  | other (htype : ¬ (r.types.type? type).any Ty.isIntegral = true) (hid : id = Id.invalid)
      (hr : r' = r)

theorem zeroId_outcome {type : Id} (h : zeroId type r = (id, r')) : ZeroOutcome r type id r' := by
  rw [zeroId] at h
  split at h
  · exact .scalar ‹_› h
  · exact .vector ‹_› h
  · next hint hvector =>
    cases h
    refine .other (fun hintegral => ?_) rfl rfl
    obtain ⟨found, htype, hintegral⟩ := (Option.any_eq_true _ _).1 hintegral
    rcases Ty.cases_of_isIntegral hintegral with ⟨w, s, rfl⟩ | ⟨w, s, n, rfl⟩
    · exact hint w s htype
    · exact hvector w s n htype

end Registry
end ShiftBarrier
