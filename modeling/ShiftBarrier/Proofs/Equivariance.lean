import ShiftBarrier.Proofs.Cache
import ShiftBarrier.Proofs.Renumbering

/-!
# Tables under renumbering

The tables of types and constants depend on which ids are the same, and not on their numbers.

* `Ty.renumber`, `Constant.renumber`, `TypeTable.renumber` and `ConstantTable.renumber` give every
  id another number.
* `Instruction.Mirrors` says of an instruction that it is another one under other numbers.
* `declaredTypes_mirror` and `declaredConstants_mirror` say that the tables of a module under other
  numbers are its tables under other numbers, also if they are only half-read.
-/

set_option autoImplicit false

namespace ShiftBarrier

section

variable (ρ : Equiv.Perm Nat)

/-- Only types that are not interpreted mention ids. -/
def Ty.renumber : Ty → Ty
  | .vector element count => .vector element.renumber count
  | .other opcode operands => .other opcode (operands.map (Operand.renumber ρ))
  | type => type

/-- Only composites mention ids, their types aside. -/
def Constant.renumber : Constant → Constant
  | .scalar type value => .scalar (type.renumber ρ) value
  | .bool type value => .bool (type.renumber ρ) value
  | .composite type components => .composite (type.renumber ρ) (components.map (Id.renumber ρ))
  | .null type => .null (type.renumber ρ)

/-- Keys are renumbered with what they stand for. -/
def TypeTable.renumber (t : TypeTable) : TypeTable :=
  ⟨t.entries.map fun (id, type) => (id.renumber ρ, type.renumber ρ)⟩

/-- Keys are renumbered with what they stand for. -/
def ConstantTable.renumber (t : ConstantTable) : ConstantTable :=
  ⟨t.entries.map fun (id, c) => (id.renumber ρ, c.renumber ρ)⟩

end

/-! ## What is the same stays the same -/

variable {ρ : Equiv.Perm Nat}

theorem Operand.same_renumber (x y : Operand) :
    (x.renumber ρ).same (y.renumber ρ) = x.same y := by
  cases x with
  | id i => cases y with
    | id j => exact Id.same_renumber ρ i j
    | _ => rfl
  | _ => cases y <;> rfl

theorem isEqv_map_map {α β : Type} {f : α → β} {r : β → β → Bool} {s : α → α → Bool}
    (h : ∀ a b, r (f a) (f b) = s a b) (as bs : List α) :
    (as.map f).isEqv (bs.map f) r = as.isEqv bs s := by
  induction as generalizing bs with
  | nil => cases bs <;> rfl
  | cons a as ih => cases bs with
    | nil => rfl
    | cons b bs => rw [List.map_cons, List.map_cons, List.isEqv, List.isEqv, h, ih]

namespace Ty

@[simp] theorem isIntegral_renumber (t : Ty) : (t.renumber ρ).isIntegral = t.isIntegral := by
  cases t with
  | vector element count => cases element <;> rfl
  | _ => rfl

@[simp] theorem isScalar_renumber (t : Ty) : (t.renumber ρ).isScalar = t.isScalar := by
  cases t <;> rfl

@[simp] theorem isVector_renumber (t : Ty) : (t.renumber ρ).isVector = t.isVector := by
  cases t <;> rfl

theorem same_renumber (t u : Ty) : (t.renumber ρ).same (u.renumber ρ) = t.same u := by
  induction t generalizing u with
  | vector element count ih => cases u with
    | vector element' count' => rw [renumber, renumber, same, same, ih]
    | _ => rfl
  | other op xs => cases u with
    | other op' xs' =>
      rw [renumber, renumber, same, same, isEqv_map_map Operand.same_renumber]
    | _ => rfl
  | _ => cases u <;> rfl

end Ty

namespace Constant

@[simp] theorem type_renumber (c : Constant) : (c.renumber ρ).type = c.type.renumber ρ := by
  cases c <;> rfl

theorem declaration_renumber (c : Constant) : (c.renumber ρ).declaration
    = (c.declaration.1, c.declaration.2.map (Operand.renumber ρ)) := by
  cases c with
  | composite type components =>
    simp only [renumber, declaration, List.map_map]
    rfl
  | _ => rfl

theorem same_renumber (c d : Constant) : (c.renumber ρ).same (d.renumber ρ) = c.same d := by
  cases c <;> cases d <;>
    simp only [renumber, same, Ty.same_renumber, isEqv_map_map (Id.same_renumber ρ)]

end Constant

/-! ## Looking up

A table under other numbers finds the same, since numbers are told apart as before. -/

namespace TypeTable

variable (t : TypeTable)

theorem type?_renumber (id : Id) :
    (t.renumber ρ).type? (id.renumber ρ) = (t.type? id).map (Ty.renumber ρ) := by
  simp only [type?, renumber, List.findRev?_eq_find?_reverse, ← List.map_reverse, List.find?_map,
    Option.map_map, Function.comp_def, Id.same_renumber]

theorem id?_renumber (type : Ty) :
    (t.renumber ρ).id? (type.renumber ρ) = (t.id? type).map (Id.renumber ρ) := by
  simp only [id?, renumber, List.find?_map, Option.map_map, Function.comp_def, Ty.same_renumber]

theorem add_renumber (id : Id) (type : Ty) :
    (t.add id type).renumber ρ = (t.renumber ρ).add (id.renumber ρ) (type.renumber ρ) := by
  rw [add, renumber, List.map_append]
  rfl

end TypeTable

namespace ConstantTable

variable (t : ConstantTable)

theorem constant?_renumber (id : Id) :
    (t.renumber ρ).constant? (id.renumber ρ) = (t.constant? id).map (Constant.renumber ρ) := by
  simp only [constant?, renumber, List.findRev?_eq_find?_reverse, ← List.map_reverse,
    List.find?_map, Option.map_map, Function.comp_def, Id.same_renumber]

theorem id?_renumber (c : Constant) :
    (t.renumber ρ).id? (c.renumber ρ) = (t.id? c).map (Id.renumber ρ) := by
  simp only [id?, renumber, List.find?_map, Option.map_map, Function.comp_def,
    Constant.same_renumber]

theorem isDeclared_renumber (id : Id) :
    (t.renumber ρ).isDeclared (id.renumber ρ) = t.isDeclared id := by
  rw [← isSome_constant?, ← isSome_constant?, constant?_renumber, Option.isSome_map]

theorem add_renumber (id : Id) (c : Constant) :
    (t.add id c).renumber ρ = (t.renumber ρ).add (id.renumber ρ) (c.renumber ρ) := by
  rw [add, renumber, List.map_append]
  rfl

end ConstantTable

/-! ## Instructions

Two modules are compared by their contents.  From here on it is enough to know that instructions
correspond one by one. -/

/-- The instruction `i'` is `i` under other numbers. -/
def Instruction.Mirrors (ρ : Equiv.Perm Nat) (i i' : Instruction) : Prop :=
  i'.content = (i.renumber ρ).content

namespace Instruction.Mirrors

variable {i i' : Instruction}

theorem opcode (h : Mirrors ρ i i') : i'.opcode = i.opcode :=
  show i'.content.opcode = (i.renumber ρ).content.opcode from h ▸ rfl

theorem type (h : Mirrors ρ i i') : i'.type = i.type.map (Id.renumber ρ) :=
  show i'.content.type = (i.renumber ρ).content.type from h ▸ rfl

theorem result (h : Mirrors ρ i i') : i'.result = i.result.map (Id.renumber ρ) :=
  show i'.content.result = (i.renumber ρ).content.result from h ▸ rfl

theorem operands (h : Mirrors ρ i i') : i'.operands = i.operands.map (Operand.renumber ρ) :=
  show i'.content.operands = (i.renumber ρ).content.operands from h ▸ rfl

theorem isType (h : Mirrors ρ i i') : i'.isType = i.isType := congrArg Opcode.isType h.opcode

theorem isConstant (h : Mirrors ρ i i') : i'.isConstant = i.isConstant :=
  congrArg Opcode.isConstant h.opcode

end Instruction.Mirrors

theorem forall₂_iff_map_eq {α β γ : Type} {f : α → γ} {g : β → γ} {as : List α} {bs : List β} :
    List.Forall₂ (fun a b => g b = f a) as bs ↔ bs.map g = as.map f := by
  rw [eq_comm, ← List.forall₂_eq_eq_eq, List.forall₂_map_left_iff, List.forall₂_map_right_iff]
  exact ⟨fun h => h.imp fun _ _ => Eq.symm, fun h => h.imp fun _ _ => Eq.symm⟩

/-! ### Blocks and functions -/

/-- The block `b'` is `b` under other numbers. -/
def Block.Mirrors (ρ : Equiv.Perm Nat) (b b' : Block) : Prop :=
  b'.content = (b.renumber ρ).content

theorem Block.mirrors_iff {b b' : Block} : Mirrors ρ b b' ↔ b'.label = b.label.renumber ρ ∧
    List.Forall₂ (Instruction.Mirrors ρ) b.instructions b'.instructions := by
  rw [Mirrors, content, content, Block.mk.injEq, renumber, List.map_map]
  exact and_congr_right fun _ => forall₂_iff_map_eq.symm

/-- The function `f'` is `f` under other numbers. -/
def Function.Mirrors (ρ : Equiv.Perm Nat) (f f' : Function) : Prop :=
  f'.content = (f.renumber ρ).content

theorem Function.mirrors_iff {f f' : Function} : Mirrors ρ f f' ↔ f'.id = f.id.renumber ρ ∧
    f.definition.Mirrors ρ f'.definition ∧
    List.Forall₂ (Instruction.Mirrors ρ) f.params f'.params ∧
    List.Forall₂ (Block.Mirrors ρ) f.blocks f'.blocks := by
  rw [Mirrors, content, content, Function.mk.injEq, renumber, List.map_map, List.map_map]
  exact and_congr_right fun _ => and_congr_right fun _ =>
    and_congr forall₂_iff_map_eq.symm forall₂_iff_map_eq.symm

/-- What it means that a module is another one under other numbers. -/
theorem Module.content_eq_iff {m m' : Module} : m'.content = (m.renumber ρ).content ↔
    List.Forall₂ (Instruction.Mirrors ρ) m.preamble m'.preamble ∧
    List.Forall₂ (Instruction.Mirrors ρ) m.globals m'.globals ∧
    List.Forall₂ (Function.Mirrors ρ) m.functions m'.functions ∧ m'.settings = m.settings := by
  rw [content, content, Module.mk.injEq, renumber, List.map_map, List.map_map, List.map_map]
  simp only [and_true, true_and]
  exact and_congr forall₂_iff_map_eq.symm (and_congr forall₂_iff_map_eq.symm
    (and_congr forall₂_iff_map_eq.symm Iff.rfl))

/-! ## Reading

Declarations are read alike, and where one of two readings fails the other fails too, if not with
the same message. -/

namespace TypeTable

variable {i i' : Instruction}

theorem literal_mirror (h : Instruction.Mirrors ρ i i') (index : Nat) :
    Alike Eq (literal i index) (literal i' index) := by
  rw [literal, literal, h.operands, List.getElem?_map]
  cases i.operands[index]? with
  | none => trivial
  | some operand => cases operand with
    | literal value spelling => cases value with
      | int n => rfl
      | float x => exact Fails.alike (.bind fun _ => fails_throw _) (.bind fun _ => fails_throw _)
    | _ => exact Fails.alike (.bind fun _ => fails_throw _) (.bind fun _ => fails_throw _)

variable (t : TypeTable)

theorem element_mirror (h : Instruction.Mirrors ρ i i') :
    Alike (fun type type' => type' = type.renumber ρ) (t.element i)
      ((t.renumber ρ).element i') := by
  rw [element, element, h.operands, List.getElem?_map]
  cases i.operands[0]? with
  | none => trivial
  | some operand =>
    have htype : (operand.renumber ρ).id?.bind (t.renumber ρ).type?
        = (operand.id?.bind t.type?).map (Ty.renumber ρ) := by
      rw [Operand.id?_renumber]
      cases operand.id? with
      | none => rfl
      | some id => exact t.type?_renumber id
    have hfailed : ∀ (operand operand' : Operand) (x : Except Error PUnit),
        Alike (fun type type' : Ty => type' = type.renumber ρ)
          (do x; throw (.moduleFault (.nonScalarElement (← operand.text) (← i.text))))
          (do x; throw (.moduleFault (.nonScalarElement (← operand'.text) (← i'.text)))) := by
      intro operand operand' x
      exact Fails.alike (.bind fun _ => .bind fun _ => .bind fun _ => fails_throw _)
        (.bind fun _ => .bind fun _ => .bind fun _ => fails_throw _)
    dsimp only [Option.map_some]
    rw [htype]
    cases operand.id?.bind t.type? with
    | none => exact hfailed operand _ (pure ⟨⟩)
    | some type =>
      dsimp only [Option.map_some]
      rw [Ty.isScalar_renumber]
      cases type.isScalar with
      | true => rfl
      | false => exact hfailed operand _ (pure ⟨⟩)

theorem declared_mirror (h : Instruction.Mirrors ρ i i') :
    Alike (fun type type' => type' = type.renumber ρ) (t.declared i)
      ((t.renumber ρ).declared i') := by
  rw [declared.eq_def, declared.eq_def, h.opcode]
  split
  · refine (literal_mirror h 0).bind fun width width' hwidth => ?_
    refine (literal_mirror h 1).bind fun signed signed' hsigned => ?_
    rw [← hwidth, ← hsigned, Ty.makeInt]
    split
    · rfl
    · trivial
  · refine (literal_mirror h 0).bind fun width width' hwidth => ?_
    rw [← hwidth]
    rfl
  · rfl
  · rfl
  · refine (t.element_mirror h).bind fun element element' helement => ?_
    refine (literal_mirror h 1).bind fun count count' hcount => ?_
    rw [helement, ← hcount, Ty.makeVector, Ty.makeVector]
    split
    · rfl
    · trivial
  · rw [h.operands]
    rfl

theorem read_mirror (h : Instruction.Mirrors ρ i i') :
    Alike (fun t t' => t' = t.renumber ρ) (t.read i) ((t.renumber ρ).read i') := by
  rw [read, read, h.isType, h.result]
  cases i.isType with
  | false => rfl
  | true => cases i.result with
    | none => trivial
    | some id =>
      refine (t.declared_mirror h).bind fun type type' htype => ?_
      rw [htype, ← add_renumber]
      rfl

/-- Reading stops at the same place. -/
theorem readAll_mirror {is is' : List Instruction}
    (h : List.Forall₂ (Instruction.Mirrors ρ) is is') :
    Alike Eq (t.readAll is).1 ((t.renumber ρ).readAll is').1 ∧
      ((t.renumber ρ).readAll is').2 = (t.readAll is).2.renumber ρ := by
  induction h generalizing t with
  | nil => exact ⟨rfl, rfl⟩
  | @cons i i' is is' hi _ ih =>
    have hread := t.read_mirror hi
    rw [readAll, readAll]
    cases ht : t.read i with
    | error e => cases ht' : (t.renumber ρ).read i' with
      | error e' => exact ⟨trivial, rfl⟩
      | ok t'' => rw [ht, ht'] at hread; cases hread
    | ok t' => cases ht' : (t.renumber ρ).read i' with
      | error e' => rw [ht, ht'] at hread; cases hread
      | ok t'' =>
        rw [hread.of_ok ht ht']
        exact ih t'

end TypeTable

namespace ConstantTable

variable {i i' : Instruction} (t : ConstantTable)

theorem components_mirror (h : Instruction.Mirrors ρ i i') :
    Alike (fun cs cs' => cs' = cs.map (Id.renumber ρ)) (t.components i)
      ((t.renumber ρ).components i') := by
  rw [components, components, h.operands, List.mapM_map]
  refine Alike.mapM fun operand _ => ?_
  rw [Function.comp_apply, Operand.id?_renumber]
  cases operand.id? with
  | none =>
    exact Fails.alike (.bind fun _ => .bind fun _ => fails_throw _)
      (.bind fun _ => .bind fun _ => fails_throw _)
  | some id =>
    dsimp only [Option.map_some]
    rw [isDeclared_renumber]
    cases t.isDeclared id with
    | true => rfl
    | false =>
      exact Fails.alike (.bind fun _ => .bind fun _ => fails_throw _)
        (.bind fun _ => .bind fun _ => fails_throw _)

theorem ofLiteral_mirror (type : Ty) (value : Number) :
    Alike (fun c c' => c' = c.renumber ρ) (Constant.ofLiteral type value)
      (Constant.ofLiteral (type.renumber ρ) value) := by
  cases type with
  | int w s => cases value with
    | int n =>
      refine (alike_refl _).bind fun bits bits' hbits => ?_
      rw [← hbits]
      rfl
    | float x =>
      exact Fails.alike (.bind fun _ => .bind fun _ => fails_throw _)
        (.bind fun _ => .bind fun _ => fails_throw _)
  | _ => cases value <;> rfl

theorem declared_mirror (h : Instruction.Mirrors ρ i i') (type : Ty) :
    Alike (fun c c' => c' = c.renumber ρ) (t.declared i type)
      ((t.renumber ρ).declared i' (type.renumber ρ)) := by
  rw [declared.eq_def, declared.eq_def, h.opcode]
  split
  · rw [h.operands, List.getElem?_map]
    cases i.operands[0]? with
    | none => trivial
    | some operand => cases operand with
      | literal value spelling => exact ofLiteral_mirror type value
      | _ => exact Fails.alike (.bind fun _ => fails_throw _) (.bind fun _ => fails_throw _)
  · cases type with
    | bool => rfl
    | _ =>
      exact Fails.alike (.bind fun _ => .bind fun _ => fails_throw _)
        (.bind fun _ => .bind fun _ => fails_throw _)
  · cases type with
    | bool => rfl
    | _ =>
      exact Fails.alike (.bind fun _ => .bind fun _ => fails_throw _)
        (.bind fun _ => .bind fun _ => fails_throw _)
  · refine (t.components_mirror h).bind fun cs cs' hcs => ?_
    rw [hcs]
    rfl
  · rfl

theorem read_mirror (types : TypeTable) (h : Instruction.Mirrors ρ i i') :
    Alike (fun t t' => t' = t.renumber ρ) (t.read types i)
      ((t.renumber ρ).read (types.renumber ρ) i') := by
  rw [read, read, h.isConstant, h.result, h.type]
  cases i.isConstant with
  | false => rfl
  | true => cases i.result with
    | none => trivial
    | some id =>
      have htype : (i.type.map (Id.renumber ρ)).bind (types.renumber ρ).type?
          = (i.type.bind types.type?).map (Ty.renumber ρ) := by
        cases i.type with
        | none => rfl
        | some type => exact types.type?_renumber type
      dsimp only [Option.map_some]
      rw [htype]
      cases i.type.bind types.type? with
      | none => exact Fails.alike (.bind fun _ => fails_throw _) (.bind fun _ => fails_throw _)
      | some type =>
        refine (t.declared_mirror h type).bind fun c c' hc => ?_
        rw [hc, ← add_renumber]
        rfl

/-- Reading stops at the same place. -/
theorem readAll_mirror (types : TypeTable) {is is' : List Instruction}
    (h : List.Forall₂ (Instruction.Mirrors ρ) is is') :
    Alike Eq (t.readAll types is).1 ((t.renumber ρ).readAll (types.renumber ρ) is').1 ∧
      ((t.renumber ρ).readAll (types.renumber ρ) is').2 = (t.readAll types is).2.renumber ρ := by
  induction h generalizing t with
  | nil => exact ⟨rfl, rfl⟩
  | @cons i i' is is' hi _ ih =>
    have hread := t.read_mirror types hi
    rw [readAll, readAll]
    cases ht : t.read types i with
    | error e => cases ht' : (t.renumber ρ).read (types.renumber ρ) i' with
      | error e' => exact ⟨trivial, rfl⟩
      | ok t'' => rw [ht, ht'] at hread; cases hread
    | ok t' => cases ht' : (t.renumber ρ).read (types.renumber ρ) i' with
      | error e' => rw [ht, ht'] at hread; cases hread
      | ok t'' =>
        rw [hread.of_ok ht ht']
        exact ih t'

end ConstantTable

/-! ## The tables of a module -/

section Tables

variable {m m' : Module} (h : List.Forall₂ (Instruction.Mirrors ρ) m.globals m'.globals)
include h

theorem declaredTypes_mirror : m'.declaredTypes = m.declaredTypes.renumber ρ :=
  (TypeTable.readAll_mirror {} h).2

theorem declaredConstants_mirror : m'.declaredConstants = m.declaredConstants.renumber ρ := by
  rw [Module.declaredConstants, declaredTypes_mirror h]
  exact (ConstantTable.readAll_mirror {} m.declaredTypes h).2

/-- A module under other numbers can be analysed, and what stands for an id does so under its new
number. -/
theorem ofModule_mirror {r : Registry} (hr : Registry.ofModule m = .ok r) :
    ∃ r', Registry.ofModule m' = .ok r' ∧ r'.constants = r.constants.renumber ρ := by
  obtain ⟨htypes, hconstants, rfl⟩ := Registry.ofModule_eq_ok_iff.1 hr
  refine ⟨_, Registry.ofModule_eq_ok_iff.2 ⟨?_, ?_, rfl⟩, declaredConstants_mirror h⟩
  · exact (TypeTable.readAll_mirror {} h).1.eq_ok_iff.1 htypes
  · rw [declaredTypes_mirror h]
    exact (ConstantTable.readAll_mirror {} m.declaredTypes h).1.eq_ok_iff.1 hconstants

end Tables

end ShiftBarrier
