import ShiftBarrier.Proofs.Barrier.Reanalysis
import ShiftBarrier.Proofs.Reflexivity

/-!
# Constants as they are spelled

The table of constants holds what the declarations of a module mean, and a run of the barrier is
told by the constants that it declares.  Here both are tied to the instructions themselves.

* `Constant.Spelled` says how an instruction spells a constant, by its opcode and its operands.
* `Module.spelled_of_mem` says that every constant of the table is spelled by a global.
* `Barrier.isCandidate_iff` tells which shifts need a barrier by the instructions alone.
* `Barrier.Outcome.globals_spelled` spells out the zeros that a run declares.
-/

set_option autoImplicit false

namespace ShiftBarrier

/-! ## Declarations -/

/-- An instruction spells a constant.  An integer is what its literal is cut to. -/
inductive Constant.Spelled (i : Instruction) : Constant → Prop
  | scalar {type : Ty} {v value : Number} {spelling : Option String}
      (hopcode : i.opcode = "OpConstant")
      (hvalue : i.operands[0]? = some (.literal value spelling))
      (hread : Constant.ofLiteral type value = .ok (.scalar type v)) : Spelled i (.scalar type v)
  | bool {b : Bool} (hopcode : i.opcode = if b then "OpConstantTrue" else "OpConstantFalse") :
      Spelled i (.bool .bool b)
  | composite {type : Ty} {ids : List Id} (hopcode : i.opcode = "OpConstantComposite")
      (hoperands : i.operands = ids.map .id) : Spelled i (.composite type ids)
  | null {type : Ty} (hopcode : i.opcode = "OpConstantNull") : Spelled i (.null type)

theorem Constant.Spelled.opcode_mem {i : Instruction} {c : Constant} (h : c.Spelled i) :
    i.opcode ∈ Opcode.constants := by
  cases h with
  | scalar hopcode => simp [Opcode.constants, hopcode]
  | @bool b hopcode => cases b <;> simp [Opcode.constants, hopcode]
  | composite hopcode => simp [Opcode.constants, hopcode]
  | null hopcode => simp [Opcode.constants, hopcode]

/-- The components of a composite are its operands. -/
theorem ConstantTable.operands_of_components {t : ConstantTable} {i : Instruction} {ids : List Id}
    (h : t.components i = .ok ids) : i.operands = ids.map .id := by
  have hoperands : List.Forall₂ (fun operand id => operand = Operand.id id) i.operands ids :=
    (components_spec h).imp fun operand id hread => by
      cases operand <;> simp_all [Operand.id?]
  rw [← List.forall₂_eq_eq_eq, List.forall₂_map_right_iff]
  exact hoperands

/-- What an instruction is read as is what it spells. -/
theorem ConstantTable.spelled_of_declared {t : ConstantTable} {i : Instruction} {type : Ty}
    {c : Constant} (hconstant : i.isConstant = true) (h : t.declared i type = .ok c) :
    c.type = type ∧ c.Spelled i := by
  rcases declared_cases h with ⟨hopcode, value, spelling, hvalue, hliteral⟩ |
    ⟨hopcode, rfl, rfl⟩ | ⟨hopcode, ids, hids, rfl⟩ | ⟨hscalar, htrue, hfalse, hcomposite, rfl⟩
  · obtain ⟨v, rfl⟩ := exists_scalar_of_ofLiteral hliteral
    exact ⟨rfl, .scalar hopcode hvalue hliteral⟩
  · refine ⟨rfl, .bool ?_⟩
    rcases hopcode with hopcode | hopcode <;> rw [hopcode] <;> rfl
  · exact ⟨rfl, .composite hopcode (operands_of_components hids)⟩
  · have hmem : i.opcode ∈ Opcode.constants := List.contains_iff_mem.1 hconstant
    simp only [Opcode.constants, List.mem_cons, List.not_mem_nil, or_false, hscalar, htrue, hfalse,
      hcomposite, false_or] at hmem
    exact ⟨rfl, .null hmem⟩

namespace Module

variable {m : Module}

/-- **Every declared constant is spelled by a global**, of which its id is the result, and has the
type that is named there. -/
theorem spelled_of_mem (hok : (ConstantTable.analyze m.declaredTypes m).1 = .ok ()) {id : Id}
    {c : Constant} (h : (id, c) ∈ m.declaredConstants.entries) :
    ∃ i ∈ m.globals, i.result = some id ∧ i.type.bind m.declaredTypes.type? = some c.type ∧
      c.Spelled i := by
  obtain ⟨i, hi, hid, t, type, htype, hdeclared⟩ :=
    exists_left_of_mem (declaredConstants_spec hok) h
  obtain ⟨hmem, hconstant⟩ := List.mem_filter.1 hi
  obtain ⟨rfl, hspelled⟩ := ConstantTable.spelled_of_declared hconstant hdeclared
  exact ⟨i, hmem, hid, htype, hspelled⟩

/-- A global that declares a constant has an entry in the table. -/
theorem exists_mem_of_isConstant (hok : (ConstantTable.analyze m.declaredTypes m).1 = .ok ())
    {i : Instruction} (hi : i ∈ m.globals) (hconstant : i.isConstant = true) :
    ∃ id c, i.result = some id ∧ (id, c) ∈ m.declaredConstants.entries ∧
      i.type.bind m.declaredTypes.type? = some c.type := by
  obtain ⟨⟨id, c⟩, hmem, hid, t, type, htype, hdeclared⟩ :=
    exists_right_of_mem (declaredConstants_spec hok) (List.mem_filter.2 ⟨hi, hconstant⟩)
  obtain ⟨rfl, -⟩ := ConstantTable.spelled_of_declared hconstant hdeclared
  exact ⟨id, c, hid, hmem, htype⟩

end Module

namespace Barrier

variable {m m' : Module} {es : List Event} {status : PassStatus} {count : GuardCount}

/-! ## Candidates

With the table traced back to instructions, it can be told from the text which shifts are
guarded. -/

/-- **A shift needs a barrier** if its amount is the result of a global that declares a constant of
an integer type, or of a vector of integers. -/
theorem isCandidate_iff (honce : m.DefinedOnce)
    (hok : (ConstantTable.analyze m.declaredTypes m).1 = .ok ()) {i : Instruction} :
    isCandidate m.declaredConstants i = true ↔
      i.opcode = "OpShiftLeftLogical" ∧ ∃ amount, i.operands[1]? = some (.id amount) ∧
        ∃ j ∈ m.globals, j.opcode ∈ Opcode.constants ∧
          (∃ id, j.result = some id ∧ id.same amount = true) ∧
          ∃ type, j.type.bind m.declaredTypes.type? = some type ∧ type.isIntegral = true := by
  rw [isCandidate, Bool.and_eq_true, beq_iff_eq, Option.any_eq_true]
  refine and_congr_right fun _ => ?_
  constructor
  · rintro ⟨c, hc, hintegral⟩
    obtain ⟨amount, hamount, hconstant⟩ := Option.bind_eq_some_iff.1 hc
    obtain ⟨operand, hoperand, hid⟩ := Option.bind_eq_some_iff.1 hamount
    have hamount : operand = .id amount := by
      cases operand <;> simp_all [Operand.id?]
    obtain ⟨key, hsame, hmem⟩ := ConstantTable.mem_of_constant? hconstant
    obtain ⟨j, hj, hresult, htype, hspelled⟩ := Module.spelled_of_mem hok hmem
    exact ⟨amount, hamount ▸ hoperand, j, hj, hspelled.opcode_mem, ⟨key, hresult, hsame⟩, c.type,
      htype, hintegral⟩
  · rintro ⟨amount, hamount, j, hj, hopcode, ⟨id, hid, hsame⟩, type, htype, hintegral⟩
    obtain ⟨id', c, hid', hmem, htype'⟩ :=
      Module.exists_mem_of_isConstant hok hj (List.contains_iff_mem.2 hopcode)
    cases hid.symm.trans hid'
    cases htype.symm.trans htype'
    refine ⟨c, ?_, hintegral⟩
    rw [hamount, Option.bind_some, Operand.id?, Option.bind_some,
      ← ConstantTable.constant?_congr hsame]
    exact ConstantTable.constant?_of_mem (nodup_declaredConstants honce) hmem

/-! ## Zeros -/

/-- An instruction declares a zero: that of an integer type, or a vector of which every lane is one
and the same zero of its integer type. -/
inductive DeclaresZero (types : TypeTable) (t : ConstantTable) (i : Instruction) : Prop
  | scalar {w : Nat} {s : Bool} (hopcode : i.opcode = "OpConstant")
      (htype : i.type = types.id? (.int w s)) (hoperands : i.operands = [.literal (.int 0) none])
  | vector {w n : Nat} {s : Bool} {z : Id} (hopcode : i.opcode = "OpConstantComposite")
      (htype : i.type = types.id? (.vector (.int w s) n)) (hz : t.id? (.zero w s) = some z)
      (hoperands : i.operands = List.replicate n (.id z))

/-- **What a run declares are zeros**, each under an id of its own at the end of the globals. -/
theorem Outcome.globals_spelled (honce : m.DefinedOnce) (h : Outcome m es status count m') :
    ∃ new, m'.globals = m.globals ++ new ∧
      new.map Instruction.result = (declarations es).map (some ·.id) ∧
      ∀ i ∈ new, DeclaresZero m.declaredTypes (constantsWith m (declarations es)) i := by
  refine ⟨(declarations es).map Declaration.instruction, by rw [h.target]; rfl, ?_, ?_⟩
  · rw [List.map_map]
    rfl
  · intro i hi
    obtain ⟨d, hd, rfl⟩ := List.mem_map.1 hi
    obtain ⟨⟨type, hzero⟩, hid⟩ := h.zero_of_mem hd
    obtain ⟨w, s, rfl, hconstant⟩ | ⟨w, s, n, z, rfl, hconstant, hz⟩ := hzero.cases_of_once honce
    · rw [hconstant] at hid
      refine .scalar (w := w) (s := s) ?_ hid.symm ?_ <;>
        rw [Declaration.instruction, hconstant] <;> rfl
    · rw [hconstant] at hid
      refine .vector (w := w) (s := s) (n := n) ?_ hid.symm hz ?_
      · rw [Declaration.instruction, hconstant]
        rfl
      · rw [Declaration.instruction, hconstant]
        exact List.map_replicate ..

end Barrier
end ShiftBarrier
