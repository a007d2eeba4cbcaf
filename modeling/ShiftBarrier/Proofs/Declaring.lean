import ShiftBarrier.Proofs.Outcome
import ShiftBarrier.Proofs.Taking

/-!
# What is declared on demand

An operation that finds or declares a type or a constant takes one id for each declaration that it
adds.  When the ids are used up in the middle of it, the declarations added by then stay.

* `Module.Declares` says that declarations were added, `Module.Declares.exists_eq` that nothing else
  was done to the module and that the bound is raised by their number.
* `TypeRegistry.Grows` and `Registry.Grows` are what is known of an operation that returns an id;
  the operations follow, down to `Registry.zeroId_grows`.
-/

set_option autoImplicit false

namespace ShiftBarrier

/-! ## Declarations

An operation on a registry adds globals and takes ids, and that is all it does to the module. -/

namespace Module

/-- Declarations are added one after the other, each under an id that is taken for it. -/
inductive Declares : Module → Module → Prop
  | refl (m : Module) : Declares m m
  | tail {m m' : Module} {i : Instruction} (h : Declares m m')
      (hvalid : m'.takeId.1.isValid = true) (hresult : i.result = some m'.takeId.1)
      (huses : ∀ id ∈ i.uses, id.Below m'.bound) : Declares m (m'.takeId.2.addGlobal i)

/-- A module with other functions. -/
def withFunctions (m : Module) (functions : List Function) : Module := { m with functions }

theorem takeId_withFunctions (m : Module) (functions : List Function) :
    (m.withFunctions functions).takeId = (m.takeId.1, m.takeId.2.withFunctions functions) := by
  rcases Nat.lt_or_ge m.bound m.maxIdBound with hlt | hge
  · rw [takeId_of_lt hlt]
    exact takeId_of_lt (m := m.withFunctions functions) hlt
  · rw [takeId_of_le hge]
    exact takeId_of_le (m := m.withFunctions functions) hge

namespace Declares

variable {m m' m'' : Module}

theorem trans (h : Declares m m') (h' : Declares m' m'') : Declares m m'' := by
  induction h' with
  | refl => exact h
  | tail _ hvalid hresult huses ih => exact .tail ih hvalid hresult huses

/-- A declaration under the next id. -/
theorem add (h : Declares m m') (hpos : 0 < m'.bound) (hlt : m'.bound < m'.maxIdBound)
    {i : Instruction} (hresult : i.result = some ⟨m'.bound, none⟩)
    (huses : ∀ id ∈ i.uses, id.Below m'.bound) :
    Declares m (({ m' with bound := m'.bound + 1 } : Module).addGlobal i) := by
  have htake := takeId_of_lt hlt
  have hnext : Declares m (m'.takeId.2.addGlobal i) :=
    h.tail (by rw [htake]; exact Id.isValid_of_pos hpos) (by rw [htake]; exact hresult) huses
  rwa [htake] at hnext

theorem exists_acts (h : Declares m m') : ∃ marks, Acts m marks m' := by
  induction h with
  | refl => exact ⟨[], .refl m⟩
  | tail _ hvalid hresult huses ih =>
    obtain ⟨marks, hacts⟩ := ih
    exact ⟨_, hacts.tail (.declare hvalid hresult huses)⟩

/-- **Declarations stand behind the others**, and the bound is raised by their number.  The rest of
the module stays as it is. -/
theorem exists_eq (h : Declares m m') :
    ∃ new, m' = { m with
      globals := m.globals ++ new
      bound := m.bound + new.length
      nextSerial := m.nextSerial + new.length } := by
  induction h with
  | refl => exact ⟨[], by simp⟩
  | @tail m' i _ hvalid hresult huses ih =>
    obtain ⟨new, rfl⟩ := ih
    rw [(takeId_of_isValid hvalid).2]
    exact ⟨new ++ [{ i with serial := m.nextSerial + new.length }],
      by simp [addGlobal, adopt, Nat.add_assoc]⟩

theorem bound_le (h : Declares m m') : m.bound ≤ m'.bound := by
  obtain ⟨new, rfl⟩ := h.exists_eq
  exact Nat.le_add_right _ _

/-- The functions do not matter. -/
theorem withFunctions (h : Declares m m') (functions : List Function) :
    Declares (m.withFunctions functions) (m'.withFunctions functions) := by
  induction h with
  | refl => exact .refl _
  | @tail m' i _ hvalid hresult huses ih =>
    have htake := m'.takeId_withFunctions functions
    have hnext : Declares (m.withFunctions functions)
        ((m'.withFunctions functions).takeId.2.addGlobal i) :=
      ih.tail (by rw [htake]; exact hvalid) (by rw [htake]; exact hresult) huses
    rwa [htake] at hnext

end Declares
end Module

theorem Id.Below.of_same {bound : Nat} {id key : Id} (h : key.Below bound)
    (hsame : key.same id = true) : id.Below bound := by
  rw [Id.Below, ← Id.same_iff.1 hsame]
  exact h

/-- An id is below the bound once it is taken. -/
theorem Id.below_succ {n : Nat} (h : 0 < n) : Id.Below (n + 1) ⟨n, none⟩ := ⟨h, Nat.lt_succ_self n⟩

/-- The ids of a table are below a bound. -/
def EntriesBelow {α : Type} (bound : Nat) (entries : List (Id × α)) : Prop :=
  ∀ entry ∈ entries, entry.1.Below bound

theorem EntriesBelow.mono {α : Type} {bound bound' : Nat} {entries : List (Id × α)}
    (h : EntriesBelow bound entries) (hle : bound ≤ bound') : EntriesBelow bound' entries :=
  fun entry hentry => (h entry hentry).mono hle

theorem EntriesBelow.add {α : Type} {bound : Nat} {entries : List (Id × α)}
    (h : EntriesBelow bound entries) {id : Id} (hid : id.Below bound) (a : α) :
    EntriesBelow bound (entries ++ [(id, a)]) :=
  List.forall_mem_append.2 ⟨h, List.forall_mem_singleton.2 hid⟩

/-! ## Types

Whether or not it is given an id in the end, a type that is asked for may leave declarations
behind. -/

namespace TypeRegistry

/-- What comes of an operation on types that returns an id. -/
structure Grows (q : TypeRegistry) (id : Id) (q' : TypeRegistry) : Prop where
  declares : q.target.Declares q'.target
  types : EntriesBelow q'.target.bound q'.types.entries
  id : id.isValid = true → id.Below q'.target.bound

variable {q : TypeRegistry}

theorem Grows.invalid (h : EntriesBelow q.target.bound q.types.entries) : Grows q Id.invalid q :=
  ⟨.refl _, h, nofun⟩

theorem Grows.found (h : EntriesBelow q.target.bound q.types.entries) {type : Ty} {id : Id}
    (hid : q.types.id? type = some id) : Grows q id q := by
  obtain ⟨found, -, hmem⟩ := TypeTable.mem_of_id? hid
  exact ⟨.refl _, h, fun _ => h _ hmem⟩

theorem Grows.after {q₁ q' : TypeRegistry} {id : Id} (hdeclares : q.target.Declares q₁.target)
    (h : Grows q₁ id q') : Grows q id q' :=
  ⟨hdeclares.trans h.declares, h.types, h.id⟩

theorem declare_grows (h : EntriesBelow q.target.bound q.types.entries) {type : Ty}
    {opcode : String} {operands : List Operand}
    (hoperands : ∀ id ∈ operands.filterMap Operand.id?, id.Below q.target.bound) {id : Id}
    {q' : TypeRegistry} (hrun : q.declare type opcode operands = (id, q')) : Grows q id q' := by
  rcases q.declare_cases type opcode operands with ⟨hpos, hlt, heq⟩ | heq
  · cases heq.symm.trans hrun
    have hbelow := Id.below_succ hpos
    exact ⟨.add (.refl _) hpos hlt rfl hoperands, (h.mono (Nat.le_succ _)).add hbelow _,
      fun _ => hbelow⟩
  · cases heq.symm.trans hrun
    exact ⟨.refl _, h, nofun⟩

theorem typeId_grows (h : EntriesBelow q.target.bound q.types.entries) {type : Ty} {id : Id}
    {q' : TypeRegistry} (hrun : typeId type q = (id, q')) : Grows q id q' := by
  have houtcome := typeId_outcome hrun
  clear hrun
  induction houtcome with
  | found hid => exact .found h hid
  | plain _ hplain hrun =>
    refine declare_grows h ?_ hrun
    cases hplain <;> simp [number, Operand.id?]
  | @vector element count elementId _ _ _ _ _ hvalid hrun ih =>
    -- the vector is declared after its element
    refine .after ih.declares (declare_grows ih.types ?_ hrun)
    have hoperands : ([.id elementId, number count] : List Operand).filterMap Operand.id?
        = [elementId] := rfl
    rw [hoperands]
    exact List.forall_mem_singleton.2 (ih.id hvalid)
  | noElement _ _ _ ih => exact .after ih.declares (.invalid ih.types)
  | other => exact .invalid h

theorem vectorId_grows (h : EntriesBelow q.target.bound q.types.entries) {element : Ty}
    {count : Int} {id : Id} {q' : TypeRegistry} (hrun : vectorId element count q = (id, q')) :
    Grows q id q' := by
  rcases vectorId_cases hrun with ⟨-, hrun⟩ | ⟨-, rfl, rfl⟩
  · exact typeId_grows h hrun
  · exact .invalid h

end TypeRegistry

/-! ## Constants -/

namespace Registry

/-- The ids of both tables are below the bound. -/
structure Anchored (r : Registry) : Prop where
  types : EntriesBelow r.target.bound r.types.entries
  constants : EntriesBelow r.target.bound r.constants.entries

/-- What comes of an operation on constants that returns an id. -/
structure Grows (r : Registry) (id : Id) (r' : Registry) : Prop where
  declares : r.target.Declares r'.target
  anchored : Anchored r'
  id : id.isValid = true → id.Below r'.target.bound

namespace Grows

variable {r r' r'' : Registry} {id : Id}

theorem invalid (h : Anchored r) : Grows r Id.invalid r := ⟨.refl _, h, nofun⟩

theorem after (hdeclares : r.target.Declares r'.target) (h : Grows r' id r'') : Grows r id r'' :=
  ⟨hdeclares.trans h.declares, h.anchored, h.id⟩

theorem found (h : Anchored r) {c : Constant} (hid : r.constants.id? c = some id) :
    Grows r id r := by
  obtain ⟨found, -, hmem⟩ := ConstantTable.mem_of_id? hid
  exact ⟨.refl _, h, fun _ => h.constants _ hmem⟩

end Grows

variable {r r' : Registry} {id : Id}

theorem Anchored.after_types (h : Anchored r) {q : TypeRegistry} {type : Id}
    (htype : TypeRegistry.Grows r.toTypeRegistry type q) : Anchored ⟨q, r.constants⟩ :=
  ⟨htype.types, h.constants.mono htype.declares.bound_le⟩

theorem constantId_grows (h : Anchored r) {c : Constant}
    (hc : ∀ id ∈ c.declaration.2.filterMap Operand.id?, id.Below r.target.bound)
    (hrun : constantId c r = (id, r')) : Grows r id r' := by
  cases constantId_outcome hrun with
  | found hid => exact .found h hid
  | @declared type q _ htype hvalid hpos hlt =>
    have htype := TypeRegistry.typeId_grows h.types htype
    have huses : ∀ id ∈ type :: c.declaration.2.filterMap Operand.id?, id.Below q.target.bound :=
      List.forall_mem_cons.2 ⟨htype.id hvalid,
        fun id hid => (hc id hid).mono htype.declares.bound_le⟩
    have hbelow := Id.below_succ hpos
    have hanchored := h.after_types htype
    exact ⟨htype.declares.add hpos hlt rfl huses, ⟨hanchored.types.mono (Nat.le_succ _),
      (hanchored.constants.mono (Nat.le_succ _)).add hbelow c⟩, fun _ => hbelow⟩
  | full _ htype =>
    have htype := TypeRegistry.typeId_grows h.types htype
    have hanchored := h.after_types htype
    exact ⟨htype.declares, ⟨hanchored.types, hanchored.constants⟩, nofun⟩
  | noType _ htype =>
    have htype := TypeRegistry.typeId_grows h.types htype
    exact .after htype.declares (.invalid (h.after_types htype))

theorem zeroScalarId_grows (h : Anchored r) {width : Nat} {signed : Bool}
    (hrun : zeroScalarId width signed r = (id, r')) : Grows r id r' :=
  constantId_grows h (by simp [Constant.zero, Constant.declaration, Operand.id?]) hrun

theorem compositeId_grows (h : Anchored r) {type : Id} {components : List Id}
    (hrun : compositeId type components r = (id, r')) : Grows r id r' := by
  rcases compositeId_cases hrun with ⟨element, -, hdeclared, hrun⟩ | ⟨rfl, rfl⟩
  · refine constantId_grows h (fun id hid => ?_) hrun
    obtain ⟨operand, hoperand, hid⟩ := List.mem_filterMap.1 hid
    obtain ⟨component, hcomponent, rfl⟩ := List.mem_map.1 hoperand
    obtain rfl : component = id := Option.some.inj hid
    -- a component is declared under its number, whatever its name is
    obtain ⟨entry, hentry, hsame⟩ := ConstantTable.isDeclared_iff.1
      (List.all_eq_true.1 hdeclared component hcomponent)
    exact (h.constants entry hentry).of_same hsame
  · exact .invalid h

theorem zeroVectorId_grows (h : Anchored r) {width : Nat} {signed : Bool} {count : Nat}
    (hrun : zeroVectorId width signed count r = (id, r')) : Grows r id r' := by
  cases zeroVectorId_outcome hrun with
  | composite hzero _ htype _ hrun =>
    have hzero := zeroScalarId_grows h hzero
    have htype := TypeRegistry.vectorId_grows hzero.anchored.types htype
    exact .after (hzero.declares.trans htype.declares)
      (compositeId_grows (hzero.anchored.after_types htype) hrun)
  | noVector hzero _ htype =>
    have hzero := zeroScalarId_grows h hzero
    have htype := TypeRegistry.vectorId_grows hzero.anchored.types htype
    exact .after (hzero.declares.trans htype.declares)
      (.invalid (hzero.anchored.after_types htype))
  | noLane hzero =>
    have hzero := zeroScalarId_grows h hzero
    exact .after hzero.declares (.invalid hzero.anchored)

theorem zeroId_grows (h : Anchored r) {type : Id} (hrun : zeroId type r = (id, r')) :
    Grows r id r' := by
  cases zeroId_outcome hrun with
  | scalar _ hrun => exact zeroScalarId_grows h hrun
  | vector _ hrun => exact zeroVectorId_grows h hrun
  | other _ hid hr =>
    rw [hid, hr]
    exact .invalid h

end Registry
end ShiftBarrier
