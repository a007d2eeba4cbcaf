import ShiftBarrier.Barrier
import ShiftBarrier.Proofs.Tables
import ShiftBarrier.Proofs.WellFormed

/-!
# What a run of the barrier adds

A run changes the registry in two ways only: it declares a zero constant that was missing, or it
takes an id and a serial number for a guard.  Each takes one fresh id.

* `Declaration` and `Guard` are the two kinds of addition, `Event` is either of them.
* `Step` says when an addition is made and what becomes of the registry; `Steps` is a run of them
  with its list of events.
* The lemmas in `Steps` are what is known of the registry after a run: `Steps.target_eq`,
  `Steps.types_eq`, `Steps.constants_eq` give it in closed form, `Steps.ids_eq` and
  `Steps.serials_eq` the ids and serial numbers that were taken, and `Steps.declared` and
  `Steps.guarded` the conditions under which that was done.
-/

set_option autoImplicit false

namespace ShiftBarrier
namespace Barrier

/-! ## Additions

Two kinds of things are added by a run, and each of them takes one id and one serial number. -/

/-- A left shift by a declared constant of integer or integer vector type. -/
def isCandidate (constants : ConstantTable) (i : Instruction) : Bool :=
  i.opcode == "OpShiftLeftLogical"
    && ((i.operands[1]?.bind Operand.id?).bind constants.constant?).any (·.type.isIntegral)

/-- Only the constants that an instruction uses matter. -/
theorem isCandidate_congr {constants constants' : ConstantTable} {i : Instruction}
    (h : ∀ id ∈ i.uses, constants'.constant? id = constants.constant? id) :
    isCandidate constants' i = isCandidate constants i := by
  rw [isCandidate, isCandidate]
  cases hamount : i.operands[1]?.bind Operand.id? with
  | none => rfl
  | some amount =>
    obtain ⟨operand, hoperand, hid⟩ := Option.bind_eq_some_iff.1 hamount
    have hmem : amount ∈ i.uses :=
      List.mem_append_right _ (List.mem_filterMap.2 ⟨operand, List.mem_of_getElem? hoperand, hid⟩)
    rw [Option.bind_some, Option.bind_some, h amount hmem]

/-- A constant that was declared on demand, with the id of its type. -/
structure Declaration where
  id : Id
  constant : Constant
  type : Id
  serial : Nat

/-- The instruction of the global section. -/
def Declaration.instruction (d : Declaration) : Instruction :=
  { opcode := d.constant.declaration.1
    type := some d.type
    result := some d.id
    operands := d.constant.declaration.2
    serial := d.serial }

theorem results_instruction (ds : List Declaration) :
    (ds.map Declaration.instruction).filterMap Instruction.result = ds.map Declaration.id := by
  rw [List.filterMap_map]
  exact congrFun List.filterMap_eq_map _

/-- The barrier behind a shift: the new result of the shift, the zero, and the serial number of the
bit field insert. -/
structure Guard where
  shift : Instruction
  temporary : Id
  zero : Id
  serial : Nat

namespace Guard

/-- The shift with its new result. -/
def renamed (g : Guard) : Instruction := { g.shift with result := some g.temporary }

/-- The bit field insert of no bits that defines the old result. -/
def insertion (g : Guard) : Instruction :=
  { opcode := "OpBitFieldInsert"
    type := g.shift.type
    result := g.shift.result
    operands := [.id g.temporary, .id g.zero, .id g.zero, .id g.zero]
    serial := g.serial }

end Guard

/-- What a run adds to a module. -/
inductive Event
  | declared (d : Declaration)
  | guarded (g : Guard)

namespace Event

/-- The id that was taken. -/
def id : Event → Id
  | .declared d => d.id
  | .guarded g => g.temporary

/-- The serial number that was taken. -/
def serial : Event → Nat
  | .declared d => d.serial
  | .guarded g => g.serial

/-- The declaration, if the event is one. -/
def declaration? : Event → Option Declaration
  | .declared d => some d
  | .guarded _ => none

/-- The guard, if the event is one. -/
def guard? : Event → Option Guard
  | .declared _ => none
  | .guarded g => some g

/-- The instruction that an event adds to a module. -/
def inserted : Event → Instruction
  | .declared d => d.instruction
  | .guarded g => g.insertion

@[simp] theorem serial_inserted (e : Event) : e.inserted.serial = e.serial := by
  cases e <;> rfl

end Event

/-- The declarations among events, in order. -/
def declarations (es : List Event) : List Declaration := es.filterMap Event.declaration?

/-- The guards among events, in order. -/
def guards (es : List Event) : List Guard := es.filterMap Event.guard?

@[simp] theorem guards_nil : guards [] = [] := rfl

@[simp] theorem guards_append (es es' : List Event) :
    guards (es ++ es') = guards es ++ guards es' := List.filterMap_append

@[simp] theorem declarations_append (es es' : List Event) :
    declarations (es ++ es') = declarations es ++ declarations es' := List.filterMap_append

theorem mem_guards {es : List Event} {g : Guard} : g ∈ guards es ↔ .guarded g ∈ es := by
  rw [guards, List.mem_filterMap]
  constructor
  · rintro ⟨e, he, heq⟩
    cases e with
    | declared d => cases heq
    | guarded g' => cases heq; exact he
  · exact fun h => ⟨_, h, rfl⟩

theorem mem_declarations {es : List Event} {d : Declaration} :
    d ∈ declarations es ↔ .declared d ∈ es := by
  rw [declarations, List.mem_filterMap]
  constructor
  · rintro ⟨e, he, heq⟩
    cases e with
    | declared d' => cases heq; exact he
    | guarded g => cases heq
  · exact fun h => ⟨_, h, rfl⟩

/-- Events are declarations and guards. -/
theorem perm_events {β : Type} (f : Event → β) (es : List Event) :
    ((declarations es).map (fun d => f (.declared d))
      ++ (guards es).map (fun g => f (.guarded g))).Perm (es.map f) := by
  induction es with
  | nil => exact .nil
  | cons e es ih =>
    cases e with
    | declared d => exact ih.cons _
    | guarded g => exact List.perm_middle.trans (ih.cons _)

/-! ## Zeros

The tables grow while a run goes on, but a zero stays a zero. -/

/-- The zero constants of a type.  All lanes of a vector are one and the same scalar zero.  The type
of a vector is looked up again by the id it was declared under. -/
inductive IsZeroOf (types : TypeTable) (constants : ConstantTable) : Ty → Constant → Prop
  | scalar {w : Nat} {s : Bool} : IsZeroOf types constants (.int w s) (.zero w s)
  | vector {w n : Nat} {s : Bool} {z type : Id} {element : Ty}
      (hz : constants.id? (.zero w s) = some z)
      (hid : types.id? (.vector (.int w s) n) = some type)
      (htype : types.type? type = some (.vector element n)) :
      IsZeroOf types constants (.vector (.int w s) n)
        (.composite (.vector element n) (List.replicate n z))

/-- A table that finds whatever another one finds. -/
def Finds (constants constants' : ConstantTable) : Prop :=
  ∀ c id, constants.id? c = some id → constants'.id? c = some id

theorem finds_append (t : ConstantTable) (new : List (Id × Constant)) :
    Finds t ⟨t.entries ++ new⟩ := by
  intro c id h
  rw [ConstantTable.id?] at h ⊢
  rw [List.find?_append, Option.map_or, h, Option.some_or]

theorem IsZeroOf.mono {types : TypeTable} {t t' : ConstantTable} {type : Ty} {c : Constant}
    (h : IsZeroOf types t type c) (hfinds : Finds t t') : IsZeroOf types t' type c := by
  cases h with
  | scalar => exact .scalar
  | vector hz hid htype => exact .vector (hfinds _ _ hz) hid htype

theorem IsZeroOf.same_refl {types : TypeTable} {t : ConstantTable} {type : Ty} {c : Constant}
    (h : IsZeroOf types t type c) (hc : c.type.same c.type = true) : c.same c = true := by
  cases h with
  | scalar => simp [Constant.same, Constant.zero, Ty.same, Number.same]
  | vector hz hid htype =>
    rw [Constant.same, Bool.and_eq_true, isEqv_replicate_iff]
    refine ⟨hc, List.length_replicate, fun id hid => ?_⟩
    rw [List.eq_of_mem_replicate hid]
    exact Id.same_refl _

/-- The lanes of a zero are declared constants. -/
theorem IsZeroOf.exists_of_mem_inputs {types : TypeTable} {t : ConstantTable} {type : Ty}
    {c : Constant} (h : IsZeroOf types t type c) {id : Id}
    (hid : id ∈ c.declaration.2.filterMap Operand.id?) : ∃ c', t.id? c' = some id := by
  cases h with
  | scalar => simp [Constant.zero, Constant.declaration, Operand.id?] at hid
  | vector hz =>
    simp only [Constant.declaration, List.filterMap_map, List.mem_filterMap, List.mem_replicate,
      Function.comp_apply, Operand.id?, Option.some.injEq] at hid
    obtain ⟨z, ⟨-, rfl⟩, rfl⟩ := hid
    exact ⟨_, hz⟩

/-! ## Steps

A run is a list of events.  What comes after in the proofs is said of events, and the operations of
the pass are not unfolded again. -/

/-- A zero that is missing. -/
structure Declaration.Due (r : Registry) (d : Declaration) : Prop where
  zero : ∃ type, IsZeroOf r.types r.constants type d.constant
  missing : r.constants.id? d.constant = none
  type : r.types.id? d.constant.type = some d.type
  id : d.id = ⟨r.target.bound, none⟩
  serial : d.serial = r.target.nextSerial
  bound : r.target.bound < r.target.maxIdBound

/-- A shift that needs a guard, and the zero of its type. -/
structure Guard.Due (r : Registry) (g : Guard) : Prop where
  candidate : isCandidate r.constants g.shift = true
  result : g.shift.result.isSome = true
  zero : ∃ id type c, g.shift.type = some id ∧ r.types.type? id = some type ∧
    IsZeroOf r.types r.constants type c ∧ r.constants.id? c = some g.zero
  temporary : g.temporary = ⟨r.target.bound, none⟩
  serial : g.serial = r.target.nextSerial
  bound : r.target.bound < r.target.maxIdBound

/-- A module in which one more id and one more serial number are taken. -/
def taken (m : Module) : Module := { m with bound := m.bound + 1, nextSerial := m.nextSerial + 1 }

/-- One event.  A declaration also enters its constant in the table; a guard changes nothing but
what is taken, as the functions are put together at the end. -/
inductive Step : Registry → Event → Registry → Prop
  | declared {r : Registry} {d : Declaration} (log : Log) (hdue : d.Due r) :
      Step r (.declared d)
        { r with
          target := { taken r.target with globals := r.target.globals ++ [d.instruction] }
          constants := r.constants.add d.id d.constant
          log }
  | guarded {r : Registry} {g : Guard} (log : Log) (hdue : g.Due r) :
      Step r (.guarded g) { r with target := taken r.target, log }

/-- A run of steps with what was added, whatever is logged. -/
inductive Steps : Registry → List Event → Registry → Prop
  | refl (r : Registry) (log : Log) : Steps r [] { r with log }
  | tail {r r' r'' : Registry} {es : List Event} {e : Event} (h : Steps r es r')
      (hstep : Step r' e r'') : Steps r (es ++ [e]) r''

theorem Step.withLog {r r' : Registry} {e : Event} (h : Step r e r') (log : Log) :
    Step r e { r' with log } := by
  cases h with
  | declared _ hdue => exact .declared log hdue
  | guarded _ hdue => exact .guarded log hdue

namespace Steps

variable {r r' r'' : Registry} {es es' : List Event}

theorem withLog (h : Steps r es r') (log : Log) : Steps r es { r' with log } := by
  cases h with
  | refl => exact .refl r log
  | tail h hstep => exact .tail h (hstep.withLog log)

theorem append (h : Steps r es r') (h' : Steps r' es' r'') : Steps r (es ++ es') r'' := by
  induction h' with
  | refl log =>
    rw [List.append_nil]
    exact h.withLog log
  | tail _ hstep ih =>
    rw [← List.append_assoc]
    exact .tail ih hstep

theorem single {e : Event} (h : Step r e r') : Steps r [e] r' := by
  have hnone : Steps r [] r := .refl r r.log
  exact hnone.tail h

/-! ### The registry after a run -/

theorem types_eq (h : Steps r es r') : r'.types = r.types := by
  induction h with
  | refl => rfl
  | tail _ hstep ih => cases hstep <;> exact ih

theorem target_eq (h : Steps r es r') :
    r'.target = { r.target with
      globals := r.target.globals ++ (declarations es).map Declaration.instruction
      bound := r.target.bound + es.length
      nextSerial := r.target.nextSerial + es.length } := by
  induction h with
  | refl => simp [declarations]
  | tail _ hstep ih =>
    cases hstep with
    | declared log hdue =>
      simp [taken, ih, declarations, Event.declaration?, Nat.add_assoc]
    | guarded log hdue =>
      simp [taken, ih, declarations, Event.declaration?, Nat.add_assoc]

theorem constants_eq (h : Steps r es r') :
    r'.constants = ⟨r.constants.entries ++ (declarations es).map fun d => (d.id, d.constant)⟩ := by
  induction h with
  | refl => simp [declarations]
  | tail _ hstep ih =>
    cases hstep with
    | declared log hdue =>
      simp [ConstantTable.add, ih, declarations, Event.declaration?]
    | guarded log hdue =>
      simp [ih, declarations, Event.declaration?]

theorem bound_eq (h : Steps r es r') : r'.target.bound = r.target.bound + es.length := by
  rw [h.target_eq]

theorem finds (h : Steps r es r') : Finds r.constants r'.constants := by
  rw [h.constants_eq]
  exact finds_append _ _

/-- The ids are taken one after the other. -/
theorem ids_eq (h : Steps r es r') :
    es.map Event.id = (List.range' r.target.bound es.length).map (⟨·, none⟩) := by
  induction h with
  | refl => rfl
  | @tail r' r'' es e hsteps hstep ih =>
    have hid : e.id = ⟨r'.target.bound, none⟩ := by
      cases hstep with
      | declared log hdue => exact hdue.id
      | guarded log hdue => exact hdue.temporary
    rw [List.map_append, ih, List.map_singleton, hid, hsteps.bound_eq, List.length_append,
      List.length_singleton, List.range'_1_concat, List.map_append, List.map_singleton]

theorem serials_eq (h : Steps r es r') :
    es.map Event.serial = List.range' r.target.nextSerial es.length := by
  induction h with
  | refl => rfl
  | @tail r' r'' es e hsteps hstep ih =>
    have hserial : e.serial = r'.target.nextSerial := by
      cases hstep with
      | declared log hdue => exact hdue.serial
      | guarded log hdue => exact hdue.serial
    rw [List.map_append, ih, List.map_singleton, hserial, hsteps.target_eq, List.length_append,
      List.length_singleton, List.range'_1_concat]

theorem id_mem_range (h : Steps r es r') {e : Event} (he : e ∈ es) :
    r.target.bound ≤ e.id.number ∧ e.id.number < r'.target.bound := by
  have hmem := List.mem_map_of_mem (f := Event.id) he
  rw [h.ids_eq] at hmem
  obtain ⟨n, hn, heq⟩ := List.mem_map.1 hmem
  rw [List.mem_range'_1] at hn
  rw [← heq, h.bound_eq]
  exact hn

theorem nodup_ids (h : Steps r es r') : (es.map (·.id.number)).Nodup := by
  have heq : es.map (·.id.number) = List.range' r.target.bound es.length := by
    have hids := congrArg (List.map Id.number) h.ids_eq
    simpa [Function.comp_def] using hids
  rw [heq]
  exact List.nodup_range' 1

theorem serial_mem_range (h : Steps r es r') {e : Event} (he : e ∈ es) :
    r.target.nextSerial ≤ e.serial ∧ e.serial < r'.target.nextSerial := by
  have hmem := List.mem_map_of_mem (f := Event.serial) he
  rw [h.serials_eq, List.mem_range'_1] at hmem
  rw [h.target_eq]
  exact hmem

theorem nodup_serials (h : Steps r es r') : (es.map Event.serial).Nodup := by
  rw [h.serials_eq]
  exact List.nodup_range' 1

/-! ### What stays as it was -/

/-- New constants have new ids. -/
theorem constant?_eq (h : Steps r es r') {id : Id} (hid : id.number < r.target.bound) :
    r'.constants.constant? id = r.constants.constant? id := by
  rw [h.constants_eq]
  refine ConstantTable.constant?_append fun entry hentry => ?_
  obtain ⟨d, hd, rfl⟩ := List.mem_map.1 hentry
  have hrange := h.id_mem_range (mem_declarations.1 hd)
  rw [Id.same_eq_false_iff]
  exact Nat.ne_of_gt (Nat.lt_of_lt_of_le hid hrange.1)

/-- Whether an old instruction is a candidate does not change. -/
theorem isCandidate_eq (h : Steps r es r') {i : Instruction}
    (hi : ∀ id ∈ i.mentions, id.Below r.target.bound) :
    isCandidate r'.constants i = isCandidate r.constants i :=
  isCandidate_congr fun id hid => h.constant?_eq (hi id (List.mem_append_right _ hid)).2

/-! ### Why something was added -/

/-- Every declared constant is a zero of a declared type. -/
theorem declared (h : Steps r es r') {d : Declaration} (hd : .declared d ∈ es) :
    (∃ type, IsZeroOf r'.types r'.constants type d.constant) ∧
      r'.types.id? d.constant.type = some d.type := by
  induction h with
  | refl => exact absurd hd List.not_mem_nil
  | @tail r' r'' es e hsteps hstep ih =>
    have htypes : r''.types = r'.types := (single hstep).types_eq
    have hfinds := (single hstep).finds
    rw [htypes]
    rcases List.mem_append.1 hd with hd | hd
    · obtain ⟨⟨type, hzero⟩, hid⟩ := ih hd
      exact ⟨⟨type, hzero.mono hfinds⟩, hid⟩
    · obtain rfl := List.mem_singleton.1 hd
      cases hstep with
      | declared log hdue =>
        obtain ⟨type, hzero⟩ := hdue.zero
        exact ⟨⟨type, hzero.mono hfinds⟩, hdue.type⟩

/-- Every guarded instruction is a shift of a declared type, guarded with a zero of that type. -/
theorem guarded (h : Steps r es r') {g : Guard} (hg : .guarded g ∈ es) :
    g.shift.result.isSome = true ∧ ∃ id type c, g.shift.type = some id ∧
      r'.types.type? id = some type ∧ IsZeroOf r'.types r'.constants type c ∧
      r'.constants.id? c = some g.zero := by
  induction h with
  | refl => exact absurd hg List.not_mem_nil
  | @tail r' r'' es e hsteps hstep ih =>
    have htypes : r''.types = r'.types := (single hstep).types_eq
    have hfinds := (single hstep).finds
    rw [htypes]
    rcases List.mem_append.1 hg with hg | hg
    · obtain ⟨hresult, id, type, c, hid, htype, hzero, hc⟩ := ih hg
      exact ⟨hresult, id, type, c, hid, htype, hzero.mono hfinds, hfinds _ _ hc⟩
    · obtain rfl := List.mem_singleton.1 hg
      cases hstep with
      | guarded log hdue =>
        obtain ⟨id, type, c, hid, htype, hzero, hc⟩ := hdue.zero
        exact ⟨hdue.result, id, type, c, hid, htype, hzero.mono hfinds, hfinds _ _ hc⟩

end Steps
end Barrier
end ShiftBarrier
