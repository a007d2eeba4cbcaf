import ShiftBarrier.Assembly
import ShiftBarrier.Proofs.Cache
import ShiftBarrier.Proofs.Evaluation
import ShiftBarrier.Proofs.Tables

/-!
# Supplying results

A block may be run again with some of its results supplied.  What is supplied is not computed, but
what reads it cannot tell: the two runs go side by side, and at every instruction the second one
binds what the first one does, and nothing that the first one will not.

* `Evaluator.Apart` says that the declared constants have no values.
* `Evaluator.operandValue_mono` is what single assignment is for: an id that the first run reads as
  a constant is not supplied, as it is never bound.
* `Evaluator.run_supplied` is the induction over the two runs.
* `Evaluator.block_supplied` says that supplying results changes nothing.
-/

set_option autoImplicit false

namespace ShiftBarrier

/-! ## Results of a block -/

theorem Module.globals_append_sublist {m : Module} {f : Function} {b : Block}
    (hf : f ∈ m.functions) (hb : b ∈ f.blocks) :
    (m.globals ++ b.instructions).Sublist m.instructions := by
  have hblock : b.instructions.Sublist (f.blocks.flatMap Block.instructions) :=
    List.sublist_flatten_of_mem (List.mem_map_of_mem hb)
  have hfunction : f.instructions.Sublist (m.functions.flatMap Function.instructions) :=
    List.sublist_flatten_of_mem (List.mem_map_of_mem hf)
  rw [instructions]
  refine (List.sublist_append_right _ _).append ?_
  exact (hblock.trans (List.sublist_append_right _ _)).trans hfunction

/-- The results of instructions, by number. -/
def resultNumbers (is : List Instruction) : List Nat :=
  (is.filterMap Instruction.result).map Id.number

theorem mem_resultNumbers {is : List Instruction} {i : Instruction} (hi : i ∈ is) {id : Id}
    (hid : i.result = some id) : id.number ∈ resultNumbers is :=
  List.mem_map_of_mem (List.mem_filterMap.2 ⟨i, hi, hid⟩)

theorem resultNumbers_append (is js : List Instruction) :
    resultNumbers (is ++ js) = resultNumbers is ++ resultNumbers js := by
  rw [resultNumbers, List.filterMap_append, List.map_append, resultNumbers, resultNumbers]

theorem resultNumbers_sublist {is js : List Instruction} (h : is.Sublist js) :
    (resultNumbers is).Sublist (resultNumbers js) :=
  (h.filterMap _).map _

theorem resultNumbers_cons {i : Instruction} {id : Id} (hid : i.result = some id)
    (is : List Instruction) : resultNumbers (i :: is) = id.number :: resultNumbers is := by
  rw [resultNumbers, List.filterMap_cons_some hid, List.map_cons, resultNumbers]

namespace Evaluator

variable {ev : Evaluator} {inputs given env env' final : Environment} {i : Instruction} {v : Value}
  {is : List Instruction} {types : TypeTable} {t : ConstantTable} {id : Id}

/-! ## Runs -/

/-- A run keeps the value of an id that is no result. -/
theorem value?_of_run (h : ev.run inputs env is = .ok env') (hid : id.number ∉ resultNumbers is) :
    env'.value? id = env.value? id := by
  refine run_invariant (P := fun env₁ => env₁.value? id = env.value? id) ?_ rfl h
  intro i hi env₁ env₂ henv hstep
  obtain ⟨rfl, -⟩ | ⟨result, v, hresult, -, -, rfl⟩ := step_cases hstep
  · exact henv
  · rw [Environment.value?_bind, if_neg, henv]
    intro hsame
    exact hid (Id.same_iff.1 hsame ▸ mem_resultNumbers hi hresult)

theorem within_of_run (h : ev.run inputs inputs is = .ok env) : inputs.Within env :=
  run_invariant (fun _ _ _ _ hwithin hstep => within_step hwithin hstep) (.refl inputs) h

/-! ## Reading more

More values do no harm: an instruction that could be evaluated before gives the same. -/

/-- Declared constants have no values. -/
def Apart (t : ConstantTable) (env : Environment) : Prop :=
  ∀ id, t.isDeclared id = true → env.value? id = none

theorem Apart.of_within (h : Apart t env') (hwithin : env.Within env') : Apart t env :=
  fun id hid => hwithin.value?_eq_none (h id hid)

/-- **What has a value keeps it when more ids have values**, constants apart. -/
theorem operandValue_mono {operand : Operand} (h : env.Within env') (hapart : Apart t env')
    (hv : operandValue ⟨types, some t⟩ env operand = .ok v) :
    operandValue ⟨types, some t⟩ env' operand = .ok v := by
  obtain ⟨id, rfl⟩ := exists_id_of_operandValue hv
  cases henv : env.value? id with
  | some w =>
    rw [operandValue_of_value? henv] at hv
    cases hv
    exact operandValue_of_value? (h id _ henv)
  | none =>
    have hdeclared : t.isDeclared id = true := by
      rw [← ConstantTable.isSome_constant?]
      rw [operandValue, Operand.id?, Option.bind_some, henv] at hv
      obtain ⟨c, hc, hv⟩ := bind_eq_ok_iff.1 hv
      obtain rfl : t.constant? id = c := Except.ok.inj hc
      cases hconstant : t.constant? id with
      | some c => rfl
      | none =>
        rw [hconstant] at hv
        obtain ⟨-, -, ⟨⟩⟩ := bind_eq_ok_iff.1 hv
    rw [operandValue, Operand.id?, Option.bind_some, henv] at hv
    rw [operandValue, Operand.id?, Option.bind_some, hapart id hdeclared]
    exact hv

theorem instruction_mono (h : env.Within env') (hapart : Apart t env')
    (hv : instruction ⟨types, some t⟩ env i = .ok v) :
    instruction ⟨types, some t⟩ env' i = .ok v := by
  obtain ⟨w, hwidth, args, hargs, hcomputes⟩ := instruction_eq_ok_iff.1 hv
  refine instruction_eq_ok_iff.2 ⟨w, hwidth, args, ?_, hcomputes⟩
  exact mapM_eq_ok_iff.2 ((mapM_eq_ok_iff.1 hargs).imp fun _ _ => operandValue_mono h hapart)

/-! ## Two runs

The run with supplied values is compared with the one without, step by step.  In between it knows
more; at the end both know the same. -/

/-- The second run is ahead of the first: it binds what the first one does and what was supplied,
but nothing that the first one will not bind in the end. -/
structure Ahead (given final env env' : Environment) : Prop where
  within : env.Within env'
  supplied : given.Within env'
  bounded : env'.Within final

/-- When the first run has come to its end, the second is not ahead of it any more. -/
theorem Ahead.value?_eq (h : Ahead given final final env') (id : Id) :
    env'.value? id = final.value? id := by
  cases hv : env'.value? id with
  | some v => exact (h.bounded id v hv).symm
  | none => exact (h.within.value?_eq_none hv).symm

theorem Ahead.step (h : Ahead given final env env') (hgiven : inputs.Within given)
    (hapart : Apart t final) {env₁ : Environment}
    (hstep : step ⟨types, some t⟩ inputs env i = .ok env₁)
    (hkeeps : ∀ id, i.result = some id → final.value? id = env₁.value? id) :
    ∃ env₁', step ⟨types, some t⟩ given env' i = .ok env₁' ∧ Ahead given final env₁ env₁' := by
  obtain ⟨rfl, hskipped⟩ | ⟨id, v, hresult, -, hv, rfl⟩ := step_cases hstep
  · refine ⟨env', step_of_given fun id hid => ?_, h⟩
    obtain ⟨v, hv⟩ := hskipped id hid
    exact ⟨v, hgiven id v hv⟩
  · have hfinal : final.value? id = some v := by
      rw [hkeeps id hresult, Environment.value?_bind, if_pos (Id.same_refl id)]
    cases hsupplied : given.value? id with
    | some w =>
      -- what was supplied is the value in the end, which is the one that was computed
      have hvalue : env'.value? id = some w := h.supplied id w hsupplied
      cases (h.bounded id w hvalue).symm.trans hfinal
      refine ⟨env', step_of_given fun key hkey => ?_, h.within.bind_left hvalue, h.supplied,
        h.bounded⟩
      cases hresult.symm.trans hkey
      exact ⟨v, hsupplied⟩
    | none =>
      have hvalue := instruction_mono h.within (hapart.of_within h.bounded) hv
      rw [step_of_result hresult hsupplied, hvalue]
      exact ⟨_, rfl, h.within.bind id v, h.supplied.bind_right hsupplied v,
        h.bounded.bind_left hfinal⟩

/-- **The second run comes to the same end.** -/
theorem run_supplied (h : Ahead given final env env') (hgiven : inputs.Within given)
    (hapart : Apart t final) (hnodup : (resultNumbers is).Nodup)
    (hrun : run ⟨types, some t⟩ inputs env is = .ok final) :
    ∃ final', run ⟨types, some t⟩ given env' is = .ok final' ∧
      ∀ id, final'.value? id = final.value? id := by
  induction is generalizing env env' with
  | nil =>
    cases hrun
    exact ⟨env', rfl, h.value?_eq⟩
  | cons i is ih =>
    cases hterminator : i.isTerminator with
    | true =>
      rw [run_of_isTerminator hterminator] at hrun ⊢
      cases hrun
      exact ⟨env', rfl, h.value?_eq⟩
    | false =>
      rw [run_cons hterminator] at hrun ⊢
      obtain ⟨env₁, hstep, hrest⟩ := bind_eq_ok_iff.1 hrun
      have hkeeps : ∀ id, i.result = some id → final.value? id = env₁.value? id := by
        intro id hid
        rw [resultNumbers_cons hid, List.nodup_cons] at hnodup
        exact value?_of_run hrest hnodup.1
      obtain ⟨env₁', hstep', hahead⟩ := h.step hgiven hapart hstep hkeeps
      rw [hstep']
      exact ih hahead (hnodup.sublist (resultNumbers_sublist (List.sublist_cons_self i is))) hrest

/-! ## Blocks -/

theorem ofModule_eq_ok {m : Module} (h : ofModule m = .ok ev) :
    ev = ⟨m.declaredTypes, some m.declaredConstants⟩ := by
  obtain ⟨r, hr, heq⟩ := bind_eq_ok_iff.1 h
  obtain ⟨-, -, rfl⟩ := Registry.ofModule_eq_ok_iff.1 hr
  cases heq
  rfl

/-- The constants of a module have no values after a block has been run, if they had none. -/
theorem apart_of_run {m : Module} (hapart : Apart m.declaredConstants inputs)
    (hnodup : (resultNumbers (m.globals ++ is)).Nodup)
    (h : ev.run inputs inputs is = .ok env) : Apart m.declaredConstants env := by
  intro id hid
  obtain ⟨entry, hentry, hsame⟩ := ConstantTable.isDeclared_iff.1 hid
  have hglobal : id.number ∈ resultNumbers m.globals := by
    rw [← Id.same_iff.1 hsame]
    exact List.mem_map_of_mem ((ConstantTable.readFrom_analyze m.declaredTypes m).ids.subset
      (List.mem_map_of_mem hentry))
  rw [resultNumbers_append] at hnodup
  rw [value?_of_run h fun hmem => List.disjoint_of_nodup_append hnodup hglobal hmem]
  exact hapart id hid

/-- **Supplying computed results changes nothing.**  Inputs keep their values; and when a block is
run again with any of its values supplied, it comes to the same values.  It takes that no result is
defined twice, and no declared constant is an input. -/
theorem block_supplied {m : Module} {f : Function} {b : Block}
    (honce : ((m.instructions.filterMap Instruction.result).map Id.number).Nodup)
    (hev : ofModule m = .ok ev) (hf : f ∈ m.functions) (hb : b ∈ f.blocks)
    (hinputs : Apart m.declaredConstants inputs) (hblock : ev.block inputs b = .ok env) :
    inputs.Within env ∧ ∀ supplied : Environment, supplied.Within env →
      ∃ env', ev.block (inputs ++ supplied) b = .ok env' ∧
        ∀ id, env'.value? id = env.value? id := by
  obtain rfl := ofModule_eq_ok hev
  have hnodup : (resultNumbers (m.globals ++ b.instructions)).Nodup :=
    honce.sublist (resultNumbers_sublist (Module.globals_append_sublist hf hb))
  have hwithin : inputs.Within env := within_of_run hblock
  refine ⟨hwithin, fun supplied hsupplied => ?_⟩
  refine run_supplied ⟨.append_left inputs supplied, .refl _, hwithin.append hsupplied⟩
    (.append_left inputs supplied) (apart_of_run hinputs hnodup hblock) ?_ hblock
  exact hnodup.sublist (resultNumbers_sublist (List.sublist_append_right _ _))

/-! ### An example -/

/-- A function that squares the sum of 7 and its parameter, and adds 7 to it. -/
def squaringText : String :=
  "%1 = OpTypeInt 32 0\n%2 = OpConstant %1 7\n%3 = OpFunction %1 None %1\n" ++
  "%4 = OpFunctionParameter %1\n%5 = OpLabel\n%6 = OpIAdd %1 %2 %4\n" ++
  "%7 = OpIMul %1 %6 %6\n%8 = OpIAdd %1 %7 %2\nOpReturn\nOpFunctionEnd\n"

/-- The block of that text. -/
def squaringBlock : Block :=
  { label := ⟨5, none⟩
    instructions :=
      [{ opcode := "OpIAdd", type := some ⟨1, none⟩, result := some ⟨6, none⟩,
         operands := [.id ⟨2, none⟩, .id ⟨4, none⟩], serial := 4 },
       { opcode := "OpIMul", type := some ⟨1, none⟩, result := some ⟨7, none⟩,
         operands := [.id ⟨6, none⟩, .id ⟨6, none⟩], serial := 5 },
       { opcode := "OpIAdd", type := some ⟨1, none⟩, result := some ⟨8, none⟩,
         operands := [.id ⟨7, none⟩, .id ⟨2, none⟩], serial := 6 },
       { opcode := "OpReturn", serial := 7 }] }

/-- The function of that text. -/
def squaringFunction : Function :=
  { id := ⟨3, none⟩
    definition :=
      { opcode := "OpFunction", type := some ⟨1, none⟩, result := some ⟨3, none⟩,
        operands := [.enumerant "None", .id ⟨1, none⟩], serial := 2 }
    params :=
      [{ opcode := "OpFunctionParameter", type := some ⟨1, none⟩, result := some ⟨4, none⟩,
         serial := 3 }]
    blocks := [squaringBlock] }

/-- The module of that text. -/
def squaring : Module :=
  { globals :=
      [{ opcode := "OpTypeInt", result := some ⟨1, none⟩,
         operands := [.literal (.int 32) none, .literal (.int 0) none], serial := 0 },
       { opcode := "OpConstant", type := some ⟨1, none⟩, result := some ⟨2, none⟩,
         operands := [.literal (.int 7) none], serial := 1 }]
    functions := [squaringFunction]
    bound := 9
    nextSerial := 8 }

/-- The evaluator of that module. -/
def squaringEvaluator : Evaluator :=
  ⟨⟨[(⟨1, none⟩, .int 32 false)]⟩, some ⟨[(⟨2, none⟩, .scalar (.int 32 false) (.int 7))]⟩⟩

/-- With 3 for the parameter, and then also with 100 for the square. -/
theorem block_supplied_squaring :
    Assembly.parse {} squaringText = .ok squaring ∧ ofModule squaring = .ok squaringEvaluator ∧
      squaringEvaluator.block [(⟨4, none⟩, .scalar 3)] squaringBlock
        = .ok [(⟨4, none⟩, .scalar 3), (⟨6, none⟩, .scalar 10), (⟨7, none⟩, .scalar 100),
          (⟨8, none⟩, .scalar 107)] ∧
      ∃ env', squaringEvaluator.block [(⟨4, none⟩, .scalar 3), (⟨7, none⟩, .scalar 100)]
        squaringBlock = .ok env' ∧ env'.value? ⟨8, none⟩ = some (.scalar 107) := by
  have hapart : Apart squaring.declaredConstants [(⟨4, none⟩, .scalar 3)] := by
    intro id hid
    obtain ⟨entry, hentry, hsame⟩ := ConstantTable.isDeclared_iff.1 hid
    obtain rfl := List.mem_singleton.1 hentry
    rw [← Environment.value?_congr hsame]
    rfl
  have hblock : squaringEvaluator.block [(⟨4, none⟩, .scalar 3)] squaringBlock
      = .ok [(⟨4, none⟩, .scalar 3), (⟨6, none⟩, .scalar 10), (⟨7, none⟩, .scalar 100),
        (⟨8, none⟩, .scalar 107)] := rfl
  have hsupplied : Environment.Within [(⟨7, none⟩, .scalar 100)]
      [(⟨4, none⟩, .scalar 3), (⟨6, none⟩, .scalar 10), (⟨7, none⟩, .scalar 100),
        (⟨8, none⟩, .scalar 107)] := by
    intro id v hv
    by_cases hsame : (Id.mk 7 none).same id = true
    · rw [← Environment.value?_congr hsame] at hv ⊢
      cases hv
      rfl
    · simp [Environment.value?, hsame] at hv
  have hev : ofModule squaring = .ok squaringEvaluator := rfl
  have hf : squaringFunction ∈ squaring.functions := List.mem_cons_self
  obtain ⟨-, hall⟩ := block_supplied (by decide +kernel) hev hf List.mem_cons_self hapart hblock
  obtain ⟨env', hblock', hvalues⟩ := hall _ hsupplied
  exact ⟨toOption_eq_some_iff.1 (by decide +kernel), hev, hblock, env', hblock', hvalues _⟩

end Evaluator
end ShiftBarrier
