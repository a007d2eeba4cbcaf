import ShiftBarrier.Proofs.Binary64.Text
import ShiftBarrier.Proofs.Listing.Diagnosis
import ShiftBarrier.Proofs.Listing.RoundTrip
import ShiftBarrier.Proofs.Registry

/-!
# Listings of modules with one declaration more

A declaration that is added to the global section takes a new id and refers to old ones.  If its
operands can be written and read again, so can the listing of the module.

* `Operand.Plain` says so of the operands that declarations are given.
* `Module.Printable.extended` and `Module.Listable.extended` carry it over to the module.
-/

set_option autoImplicit false

namespace ShiftBarrier

open Mirrored (extended placed)

/-! ## Operands of declarations -/

/-- Operands that are written and read as what they are: ids in use, integers that are not too long,
and finite numbers in the spelling that is made up for them. -/
inductive Operand.Plain (ids : List Id) : Operand → Prop
  | id {id : Id} (h : id ∈ ids) : Plain ids (.id id)
  | int {n : Int} (h : n.natAbs < 10 ^ Decimal.maxDigits) : Plain ids (.literal (.int n) none)
  | float {x : Binary64} (h : x.exponentField ≠ 2047) :
      Plain ids (.literal (.float x) (some x.text))

/-- The text of a finite number denotes that number. -/
theorem Binary64.denotes_text {x : Binary64} (h : x.exponentField ≠ 2047) :
    SourceOperand.Denotes x.text (.value (.literal (.float x) (some x.text))) := by
  refine ⟨.float, reads_text h, nofun, fun position => ?_⟩
  rw [SourceOperand.ofToken]
  dsimp only
  rw [float_text h]

namespace Operand.Plain

variable {ids : List Id} {operand : Operand}

theorem mono {ids' : List Id} (h : operand.Plain ids) (hids : ids ⊆ ids') : operand.Plain ids' := by
  cases h with
  | id h => exact .id (hids h)
  | int h => exact .int h
  | float h => exact .float h

theorem printable (h : operand.Plain ids) (hspelled : ∀ id ∈ ids, id.Spelled) :
    operand.Printable := by
  cases h with
  | id h => exact .id (hspelled _ h)
  | int => exact .int _
  | float h => exact .spelled (Binary64.denotes_text h)

theorem writable (h : operand.Plain ids) : operand.Writable := by
  cases h with
  | id => trivial
  | int h => exact h
  | float => trivial

theorem mem (h : operand.Plain ids) {id : Id} (hid : operand.id? = some id) : id ∈ ids := by
  cases h with
  | id h => exact Option.some.inj hid ▸ h
  | int => cases hid
  | float => cases hid

end Operand.Plain

/-! ## Opcodes of declarations -/

namespace Opcode

/-- The opcodes under which types and constants are declared on demand. -/
def declaring : List String :=
  ["OpTypeInt", "OpTypeFloat", "OpTypeBool", "OpTypeVoid", "OpTypeVector"] ++ constants

variable {opcode : String} (h : opcode ∈ declaring)
include h

theorem isMnemonic_of_declaring : Instruction.IsMnemonic opcode := by
  have hall : ∀ opcode ∈ declaring, opcode.toList = 'O' :: 'p' :: opcode.toList.drop 2 ∧
      opcode.toList.drop 2 ≠ [] ∧
      (opcode.toList.drop 2).all Scanner.isNameChar = true := by decide
  obtain ⟨hlist, hne, hname⟩ := hall opcode h
  exact ⟨_, hlist, hne, List.all_eq_true.1 hname⟩

/-- Declarations stand outside of functions and not in the header. -/
theorem isGlobal_of_declaring :
    isPreamble opcode = false ∧ opcode ≠ "OpFunction" ∧ opcode ≠ "OpFunctionEnd" := by
  have hall : ∀ opcode ∈ declaring,
      isPreamble opcode = false ∧ opcode ≠ "OpFunction" ∧ opcode ≠ "OpFunctionEnd" := by decide
  exact hall opcode h

/-- Constants have types, and types have none. -/
theorem hasResultType_of_declaring : hasResultType opcode = isConstant opcode := by
  have hall : ∀ opcode ∈ declaring, hasResultType opcode = isConstant opcode := by decide
  exact hall opcode h

end Opcode

/-! ## Modules -/

namespace Module

variable {m : Module} {ids : List Id} {i j : Instruction}

theorem mem_instructions_extended :
    j ∈ (extended m i).instructions ↔ j ∈ m.instructions ∨ j = placed m i := by
  simp only [instructions, extended, List.mem_append, List.mem_singleton]
  tauto

theorem mem_listed_extended : j ∈ (extended m i).listed ↔ j ∈ m.listed ∨ j = placed m i := by
  simp only [listed, extended, List.mem_append, List.mem_singleton]
  tauto

theorem Listable.extended (h : m.Listable) (hi : ∀ operand ∈ i.operands, operand.Writable) :
    (extended m i).Listable := by
  intro j hj
  rcases mem_instructions_extended.1 hj with hj | rfl
  · exact h j hj
  · exact hi

/-- **A plain declaration keeps a module printable**; its id is a new word. -/
theorem Printable.extended (h : m.Printable ids) (hpos : 0 < m.bound)
    (hle : m.bound ≤ Settings.maxIdWord) (hopcode : i.opcode ∈ Opcode.declaring)
    (htyped : i.type.isSome = i.isConstant) (htype : ∀ id ∈ i.type, id ∈ ids)
    (hoperands : ∀ operand ∈ i.operands, operand.Plain ids) :
    (extended m i).Printable (⟨m.bound, none⟩ :: ids) := by
  have hvocabulary := h.vocabulary.take hpos hle
  have hspelled := hvocabulary.spelled
  have hold : ids ⊆ ⟨m.bound, none⟩ :: ids := List.subset_cons_self _ _
  have hnew : (placed m i).Within (⟨m.bound, none⟩ :: ids) := by
    refine ⟨⟨Opcode.isMnemonic_of_declaring hopcode, fun id hid => ?_, fun id hid => ?_,
      fun operand hoperand => ?_, ?_⟩, fun id hid => ?_⟩
    · exact hspelled id (hold (htype id hid))
    · obtain rfl : _ = id := Option.some.inj hid
      exact hspelled _ List.mem_cons_self
    · exact ((hoperands operand hoperand).mono hold).printable hspelled
    · exact htyped.trans (Opcode.hasResultType_of_declaring hopcode).symm
    · rcases List.mem_append.1 hid with hid | hid
      · obtain rfl := List.mem_singleton.1 hid
        exact List.mem_cons_self
      rcases List.mem_append.1 hid with hid | hid
      · exact hold (htype id (Option.mem_toList.1 hid))
      · obtain ⟨operand, hoperand, hid⟩ := List.mem_filterMap.1 hid
        exact hold ((hoperands operand hoperand).mem hid)
  refine ⟨hvocabulary, ⟨h.arranged.preamble, ?_, h.arranged.functions, h.arranged.ids⟩,
    fun j hj => ?_⟩
  · exact List.forall_mem_append.2 ⟨h.arranged.globals,
      List.forall_mem_singleton.2 (Opcode.isGlobal_of_declaring hopcode)⟩
  · rcases mem_listed_extended.1 hj with hj | rfl
    · exact ⟨(h.within j hj).printable, fun id hid => hold ((h.within j hj).mentions id hid)⟩
    · exact hnew

section Respelled

variable {j : Instruction} (htype : j.type = i.type)

include htype in
/-- Declarations with the same line give modules with the same listing. -/
theorem text_extended (hopcode : j.opcode = i.opcode)
    (hoperands : j.operands.mapM Operand.text = i.operands.mapM Operand.text) :
    (extended m j).text = (extended m i).text := by
  have hline : (placed m j).text = (placed m i).text := by
    simp only [Instruction.text, placed, hopcode, htype, hoperands]
  refine text_eq_of_listed ?_
  simp only [listed, Mirrored.extended, List.mapM_append, List.mapM_cons, List.mapM_nil, hline]

include htype in
/-- Declarations that refer to the same ids give modules with the same ids. -/
theorem mentions_extended (hinputs : j.inputs = i.inputs) :
    (extended m j).mentions = (extended m i).mentions := by
  have hmentions : (placed m j).mentions = (placed m i).mentions := by
    rw [Instruction.inputs, Instruction.inputs] at hinputs
    simp only [Instruction.mentions, Instruction.uses, Instruction.inputs, placed, htype, hinputs]
  have hsections : ∀ i, (extended m i).mentions
      = m.preamble.flatMap Instruction.mentions ++ m.globals.flatMap Instruction.mentions ++
        (placed m i).mentions ++
        (m.functions.flatMap Function.instructions).flatMap Instruction.mentions ++ m.labels := by
    intro i
    simp only [mentions_eq, instructions, Mirrored.extended, List.flatMap_append,
      List.flatMap_singleton]
    simp only [List.append_assoc]
    rfl
  rw [hsections, hsections, hmentions]

end Respelled

/-- The id of an added declaration is in use. -/
theorem bound_mem_mentions_extended : ⟨m.bound, none⟩ ∈ (extended m i).mentions :=
  mem_mentions_iff.2 ⟨placed m i, mem_listed_extended.2 (.inr rfl), List.mem_cons_self⟩

end Module
end ShiftBarrier
