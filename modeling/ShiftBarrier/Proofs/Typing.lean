import ShiftBarrier.Assembly
import ShiftBarrier.Proofs.Evaluation

/-!
# Values and their types

Every operation cuts its result to the type of the instruction.  A copy does not: it passes on the
value of an id, whatever that is, and so the value may be longer than its type, or have another
number of lanes.

* `Evaluator.Copies` are the instructions that pass a value on.
* `Evaluator.instruction_cases` tells them from all others, which give values of their types.
* `Evaluator.Faithful` says that copies are of one type with what they copy, and `Evaluator.Typed`
  is what a run keeps then.
* `Evaluator.values_fit` puts this together for instructions and blocks; by
  `Evaluator.copy_too_long` a copy may leave its type.
-/

set_option autoImplicit false

namespace ShiftBarrier
namespace Evaluator

variable {ev : Evaluator} {env env' inputs : Environment} {i : Instruction} {v : Value} {type : Ty}
  {is : List Instruction} {source : Id}

/-! ## Instructions

All results are cut to the width of their type, except those of copies. -/

/-- The type of the result of an instruction. -/
def resultType? (ev : Evaluator) (i : Instruction) : Option Ty := i.type.bind ev.types.type?

/-- An instruction that passes on the value of an id. -/
structure Copies (i : Instruction) (source : Id) : Prop where
  opcode : i.opcode = "OpCopyObject"
  operand : i.operands.head? = some (.id source)

/-- **What an instruction gives is of its type, or copied.** -/
theorem instruction_cases (h : ev.instruction env i = .ok v) :
    ∃ type, ev.resultType? i = some type ∧ type.isIntegral = true ∧
      (i.opcode ≠ "OpCopyObject" ∧ HasType type v ∨
        ∃ source, Copies i source ∧ ev.operandValue env (.id source) = .ok v) := by
  obtain ⟨w, hwidth, args, hargs, hcomputes⟩ := instruction_eq_ok_iff.1 h
  obtain ⟨type, htype, hintegral⟩ : ∃ type, ev.resultType? i = some type ∧
      type.isIntegral = true := by
    rcases laneWidth_cases hwidth with ⟨s, htype⟩ | ⟨s, n, htype⟩
    · exact ⟨_, htype, rfl⟩
    · exact ⟨_, htype, rfl⟩
  refine ⟨type, htype, hintegral, ?_⟩
  by_cases hcopy : i.opcode = "OpCopyObject"
  · rw [Computes, if_pos hcopy] at hcomputes
    have hvalues := mapM_eq_ok_iff.1 hargs
    cases hoperands : i.operands with
    | nil =>
      rw [hoperands] at hvalues
      cases hvalues
      cases hcomputes
    | cons operand operands =>
      rw [hoperands] at hvalues
      obtain _ | ⟨hvalue, -⟩ := hvalues
      cases hcomputes
      obtain ⟨source, rfl⟩ := exists_id_of_operandValue hvalue
      exact .inr ⟨source, ⟨hcopy, by rw [hoperands]; rfl⟩, hvalue⟩
  · obtain ⟨type', htype', hv⟩ := hasType_of_computes hwidth hcopy hcomputes
    cases htype.symm.trans htype'
    exact .inl ⟨hcopy, hv⟩

/-! ## Blocks

A value stays in its type along a block if copies are faithful; the induction carries where each
value came from. -/

/-- Copies are of one type with what they copy: a value from outside fits the type, and what is
computed in the block is of that type. -/
structure Faithful (ev : Evaluator) (inputs : Environment) (is : List Instruction) : Prop where
  outside : ∀ i ∈ is, ∀ source type v, Copies i source → ev.resultType? i = some type →
    ev.operandValue inputs (.id source) = .ok v → HasType type v
  inside : ∀ i ∈ is, ∀ source type, Copies i source → ev.resultType? i = some type →
    ∀ j ∈ is, ∀ id, j.result = some id → id.same source = true → ev.resultType? j = some type

/-- Some instruction has the id for its result and the value in its type. -/
def Result (ev : Evaluator) (is : List Instruction) (id : Id) (v : Value) : Prop :=
  ∃ i ∈ is, ∃ result type, i.result = some result ∧ result.same id = true ∧
    ev.resultType? i = some type ∧ HasType type v

/-- Inputs keep their values, and all other values are results. -/
structure Typed (ev : Evaluator) (inputs : Environment) (is : List Instruction)
    (env : Environment) : Prop where
  given : inputs.Within env
  computed : ∀ id v, env.value? id = some v → inputs.value? id = none → ev.Result is id v

theorem typed_inputs : Typed ev inputs is inputs where
  given := .refl inputs
  computed _ _ hv hnone := absurd (hv.symm.trans hnone) nofun

/-- A value that is copied faithfully is of the type of the copy. -/
theorem Typed.hasType_of_copies (h : Typed ev inputs is env) (hfaithful : Faithful ev inputs is)
    (hi : i ∈ is) (hcopies : Copies i source) (htype : ev.resultType? i = some type)
    (hv : ev.operandValue env (.id source) = .ok v) : HasType type v := by
  cases hinput : inputs.value? source with
  | some w =>
    rw [operandValue_of_value? (h.given source w hinput)] at hv
    cases hv
    exact hfaithful.outside i hi source type _ hcopies htype (operandValue_of_value? hinput)
  | none =>
    cases henv : env.value? source with
    | some w =>
      rw [operandValue_of_value? henv] at hv
      cases hv
      obtain ⟨j, hj, id, type', hid, hsame, htype', hhas⟩ := h.computed source _ henv hinput
      rw [hfaithful.inside i hi source type hcopies htype j hj id hid hsame] at htype'
      cases htype'
      exact hhas
    | none =>
      -- neither environment binds the source, so that both read the same constant
      have hsame : ev.operandValue env (.id source) = ev.operandValue inputs (.id source) := by
        rw [operandValue, operandValue, Operand.id?, Option.bind_some, Option.bind_some, henv,
          hinput]
      exact hfaithful.outside i hi source type v hcopies htype (hsame ▸ hv)

theorem Typed.step (h : Typed ev inputs is env) (hfaithful : Faithful ev inputs is) (hi : i ∈ is)
    (hstep : ev.step inputs env i = .ok env') : Typed ev inputs is env' := by
  obtain ⟨rfl, -⟩ | ⟨id, v, hid, hnone, hv, rfl⟩ := step_cases hstep
  · exact h
  · obtain ⟨type, htype, -, hcases⟩ := instruction_cases hv
    have hresult : ∀ key, id.same key = true → ev.Result is key v := by
      intro key hsame
      refine ⟨i, hi, id, type, hid, hsame, htype, ?_⟩
      obtain ⟨-, hhas⟩ | ⟨source, hcopies, hvalue⟩ := hcases
      · exact hhas
      · exact h.hasType_of_copies hfaithful hi hcopies htype hvalue
    refine ⟨h.given.bind_right hnone v, fun key w hw hkey => ?_⟩
    rw [Environment.value?_bind] at hw
    split at hw
    · next hsame =>
      cases hw
      exact hresult key hsame
    · exact h.computed key w hw hkey

/-- **Values fit their types, copies apart.**  Whatever the environment, an instruction that is no
copy gives a value of its type, and a copy gives the value of the id it copies.  So every value that
a block computes is of the type of its instruction if the copies are faithful. -/
theorem values_fit (ev : Evaluator) (b : Block) :
    (∀ i ∈ b.instructions, ∀ env v, ev.instruction env i = .ok v →
      ∃ type, ev.resultType? i = some type ∧ type.isIntegral = true ∧
        (i.opcode ≠ "OpCopyObject" ∧ HasType type v ∨
          ∃ source, Copies i source ∧ ev.operandValue env (.id source) = .ok v)) ∧
    ∀ inputs env, Faithful ev inputs b.instructions → ev.block inputs b = .ok env →
      ∀ id v, env.value? id = some v → inputs.value? id = none →
        ev.Result b.instructions id v := by
  refine ⟨fun i _ env v h => instruction_cases h, fun inputs env hfaithful hblock => ?_⟩
  have htyped : Typed ev inputs b.instructions env :=
    run_invariant (fun i hi _ _ h hstep => h.step hfaithful hi hstep) typed_inputs hblock
  exact htyped.computed

/-! ### An example -/

/-- A block that adds 300 to itself in eight bits, and then copies the given id to eight bits. -/
def copyingText (source : String) : String :=
  "%1 = OpTypeInt 8 0\n%2 = OpTypeInt 16 0\n%3 = OpConstant %2 300\n" ++
  "%4 = OpFunction %1 None %1\n%5 = OpLabel\n%6 = OpIAdd %1 %3 %3\n" ++
  "%7 = OpCopyObject %1 " ++ source ++ "\nOpReturn\nOpFunctionEnd\n"

/-- The addition, whose result has to be cut to eight bits. -/
def sum : Instruction :=
  { opcode := "OpIAdd", type := some ⟨1, none⟩, result := some ⟨6, none⟩,
    operands := [.id ⟨3, none⟩, .id ⟨3, none⟩], serial := 4 }

/-- The copy, whose type has eight bits too. -/
def copy (source : Id) : Instruction :=
  { opcode := "OpCopyObject", type := some ⟨1, none⟩, result := some ⟨7, none⟩,
    operands := [.id source], serial := 5 }

/-- The block of that text. -/
def copyingBlock (source : Id) : Block :=
  { label := ⟨5, none⟩
    instructions := [sum, copy source, { opcode := "OpReturn", serial := 6 }] }

/-- The module of that text. -/
def copying (source : Id) : Module :=
  { globals :=
      [{ opcode := "OpTypeInt", result := some ⟨1, none⟩,
         operands := [.literal (.int 8) none, .literal (.int 0) none], serial := 0 },
       { opcode := "OpTypeInt", result := some ⟨2, none⟩,
         operands := [.literal (.int 16) none, .literal (.int 0) none], serial := 1 },
       { opcode := "OpConstant", type := some ⟨2, none⟩, result := some ⟨3, none⟩,
         operands := [.literal (.int 300) none], serial := 2 }]
    functions :=
      [{ id := ⟨4, none⟩
         definition :=
           { opcode := "OpFunction", type := some ⟨1, none⟩, result := some ⟨4, none⟩,
             operands := [.enumerant "None", .id ⟨1, none⟩], serial := 3 }
         blocks := [copyingBlock source] }]
    bound := 8
    nextSerial := 7 }

/-- The declarations of the example. -/
def copyingEvaluator : Evaluator :=
  ⟨⟨[(⟨1, none⟩, .int 8 false), (⟨2, none⟩, .int 16 false)]⟩,
    some ⟨[(⟨3, none⟩, .scalar (.int 16 false) (.int 300))]⟩⟩

/-- Only the copy copies. -/
theorem eq_of_copies {key : Id} (hi : i ∈ (copyingBlock key).instructions)
    (h : Copies i source) : i = copy key ∧ source = key := by
  obtain ⟨hopcode, hoperand⟩ := h
  simp only [copyingBlock, List.mem_cons, List.not_mem_nil, or_false] at hi
  obtain rfl | rfl | rfl := hi
  · exact absurd hopcode (by decide)
  · cases hoperand
    exact ⟨rfl, rfl⟩
  · exact absurd hopcode (by decide)

theorem faithful_copying : Faithful copyingEvaluator [] (copyingBlock ⟨6, none⟩).instructions where
  outside i hi source type v hcopies htype hv := by
    obtain ⟨-, rfl⟩ := eq_of_copies hi hcopies
    cases hv
  inside i hi source type hcopies htype j hj id hid hsame := by
    obtain ⟨rfl, rfl⟩ := eq_of_copies hi hcopies
    simp only [copyingBlock, List.mem_cons, List.not_mem_nil, or_false] at hj
    obtain rfl | rfl | rfl := hj
    · exact htype
    · exact htype
    · cases hid

/-- The sum is cut to eight bits, and so is what is copied from it. -/
theorem values_fit_sample :
    Assembly.parse {} (copyingText "%6") = .ok (copying ⟨6, none⟩) ∧
      ofModule (copying ⟨6, none⟩) = .ok copyingEvaluator ∧
      (∃ type, HasType type (.scalar 88) ∧ copyingEvaluator.resultType? sum = some type) ∧
      Result copyingEvaluator (copyingBlock ⟨6, none⟩).instructions ⟨7, none⟩ (.scalar 88) := by
  obtain ⟨hinstructions, hblocks⟩ := values_fit copyingEvaluator (copyingBlock ⟨6, none⟩)
  have hsum : copyingEvaluator.instruction [] sum = .ok (.scalar 88) := rfl
  have hblock : copyingEvaluator.block [] (copyingBlock ⟨6, none⟩)
      = .ok [(⟨6, none⟩, .scalar 88), (⟨7, none⟩, .scalar 88)] := rfl
  obtain ⟨type, htype, -, hcases⟩ := hinstructions sum List.mem_cons_self [] _ hsum
  obtain ⟨-, hhas⟩ | ⟨source, hcopies, -⟩ := hcases
  · exact ⟨toOption_eq_some_iff.1 (by decide +kernel), rfl, ⟨type, hhas, htype⟩,
      hblocks [] _ faithful_copying hblock ⟨7, none⟩ _ rfl rfl⟩
  · exact absurd hcopies.opcode (by decide)

/-- **A copy of 300 to eight bits is 300.** -/
theorem copy_too_long :
    Assembly.parse {} (copyingText "%3") = .ok (copying ⟨3, none⟩) ∧
      ofModule (copying ⟨3, none⟩) = .ok copyingEvaluator ∧
      copyingEvaluator.resultType? (copy ⟨3, none⟩) = some (.int 8 false) ∧
      copyingEvaluator.instruction [] (copy ⟨3, none⟩) = .ok (.scalar 300) ∧
      copyingEvaluator.block [] (copyingBlock ⟨3, none⟩)
        = .ok [(⟨6, none⟩, .scalar 88), (⟨7, none⟩, .scalar 300)] ∧
      ¬ HasType (.int 8 false) (.scalar 300) := by
  refine ⟨toOption_eq_some_iff.1 (by decide +kernel), rfl, rfl, rfl, rfl, ?_⟩
  intro h
  cases h with
  | scalar h0 hn => exact absurd hn (by decide)

end Evaluator
end ShiftBarrier
