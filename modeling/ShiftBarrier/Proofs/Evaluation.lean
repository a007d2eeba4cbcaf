import ShiftBarrier.Evaluator
import ShiftBarrier.Proofs.Failure
import ShiftBarrier.Proofs.Integer

/-!
# Evaluation

* `Evaluator.Computes` is what an instruction does once its arguments are known; its result has no
  part in it.
* `Evaluator.HasType` are the values of a type.  By `hasType_of_computes` every operation gives one.
* `Evaluator.computes_insert` says that inserting no bits leaves such a value as it is.
* `Evaluator.step` is one step of a run, and `run_invariant` the induction over a run.
* `Environment.Within` says that an environment binds what another does; by `within_step` inputs
  keep their values.
-/

set_option autoImplicit false

namespace ShiftBarrier

/-! ## Inserting no bits

The mask of no bits is zero, so an insertion of no bits gives back its base. -/

namespace Arithmetic

theorem and_complement_zero (n : Nat) : and n (complement 0) = n := by
  show and (.ofNat n) (.negSucc 0) = _
  simp [and, clear]

theorem bitFieldInsert_none (width n : Nat) : bitFieldInsert width n 0 0 0 = .ok n := by
  have hmask : and 0 0 = 0 := rfl
  have hor : or n 0 = n := by
    show or (.ofNat n) (.ofNat 0) = _
    simp [or]
  rw [bitFieldInsert, if_neg (by omega)]
  simp [Integer.shiftLeft, Integer.powerOfTwo, bind, Except.bind, pure,
    Except.pure, and_complement_zero, hmask, hor]

end Arithmetic

/-! ## Environments

What is known of environments is what they give for ids, never how they list them. -/

namespace Environment

variable {env env' : Environment} {id key : Id} {v : Value}

theorem value?_congr (h : id.same key = true) : env.value? id = env.value? key := by
  have hsame : (fun entry : Id × Value => entry.1.same id)
      = fun entry : Id × Value => entry.1.same key := by
    funext entry
    rw [Id.same, Id.same, Id.same_iff.1 h]
  rw [value?, value?, hsame]

/-- What the first environment binds, the second binds to the same value. -/
def Within (env env' : Environment) : Prop :=
  ∀ id v, env.value? id = some v → env'.value? id = some v

theorem Within.refl (env : Environment) : env.Within env := fun _ _ h => h

theorem Within.value?_eq_none (h : env.Within env') (hnone : env'.value? id = none) :
    env.value? id = none := by
  cases hv : env.value? id with
  | none => rfl
  | some v =>
    rw [h id v hv] at hnone
    cases hnone

/-- An id that has no value yet may be bound. -/
theorem Within.bind_right (h : env.Within env') (hnone : env.value? id = none) (v : Value) :
    env.Within (env'.bind id v) := by
  intro key w hw
  rw [value?_bind, if_neg, h key w hw]
  intro hsame
  rw [value?_congr hsame, hw] at hnone
  cases hnone

theorem Within.bind_left (h : env.Within env') (hv : env'.value? id = some v) :
    (env.bind id v).Within env' := by
  intro key w hw
  rw [value?_bind] at hw
  split at hw
  · next hsame =>
    cases hw
    rw [← value?_congr hsame, hv]
  · exact h key w hw

theorem Within.bind (h : env.Within env') (id : Id) (v : Value) :
    (env.bind id v).Within (env'.bind id v) := by
  intro key w hw
  rw [value?_bind] at hw ⊢
  split at hw
  · next hsame => rw [if_pos hsame, hw]
  · next hother => rw [if_neg hother, h key w hw]

theorem value?_append (env env' : Environment) (id : Id) :
    (env ++ env').value? id = (env.value? id).or (env'.value? id) := by
  rw [value?, List.find?_append, Option.map_or, value?, value?]

theorem Within.append_left (env env' : Environment) : env.Within (env ++ env') := by
  intro id v hv
  rw [value?_append, hv, Option.some_or]

theorem Within.append {env₁ env₂ : Environment} (h₁ : env₁.Within env) (h₂ : env₂.Within env) :
    (env₁ ++ env₂).Within env := by
  intro id v hv
  rw [value?_append, Option.or_eq_some_iff] at hv
  obtain hv | ⟨-, hv⟩ := hv
  · exact h₁ id v hv
  · exact h₂ id v hv

end Environment

namespace Evaluator

variable {ev ev' : Evaluator} {env env' inputs : Environment} {i : Instruction} {type : Ty}
  {w : Nat} {args : List Value} {v : Value}

theorem apply_insert {n : Int} (h0 : 0 ≤ n) (hn : n < 2 ^ w) :
    apply .bitFieldInsert w [n, 0, 0, 0] = .ok n := by
  obtain ⟨m, rfl⟩ := Int.eq_ofNat_of_zero_le h0
  have heval : Arithmetic.Operation.bitFieldInsert.eval w [(m : Int), 0, 0, 0] = .ok (m : Int) :=
    Arithmetic.bitFieldInsert_none w m
  rw [apply, heval]
  exact congrArg Except.ok (Integer.low_of_lt h0 hn)

/-! ## Instructions

`Computes` keeps of an evaluation only what later proofs compare: the arguments and the value. -/

/-- An operation on all lanes, or on numbers.  There is no reason given if it cannot be applied. -/
def applied (operation : Arithmetic.Operation) (type : Option Ty) (width : Nat)
    (args : List Value) : Option Value :=
  match type with
  | some (.vector _ count) =>
    (lanes (fun i => do apply operation width (← args.mapM (lane i))) count).toOption.map .vector
  | _ =>
    (args.mapM scalarArgument?).bind fun args =>
      (apply operation width args).toOption.map .scalar

theorem applied_of_not_vector {operation : Arithmetic.Operation} {type : Option Ty}
    (h : ∀ element count, type ≠ some (.vector element count)) :
    applied operation type w args = (args.mapM scalarArgument?).bind fun args =>
      (apply operation w args).toOption.map .scalar := by
  rw [applied.eq_def]
  split
  · next element count => exact absurd rfl (h element count)
  · rfl

/-- What an instruction gives for its arguments.  Its result has no part in it. -/
def Computes (opcode : String) (type : Option Ty) (width : Nat) (args : List Value)
    (v : Value) : Prop :=
  if opcode = "OpCopyObject" then args.head? = some v
  else ∃ operation, Arithmetic.Operation.ofOpcode? opcode = some operation ∧
    applied operation type width args = some v

/-- **What it takes for an instruction to have a value.** -/
theorem instruction_eq_ok_iff : ev.instruction env i = .ok v ↔
    ∃ w, laneWidth (i.type.bind ev.types.type?) = .ok w ∧
      ∃ args, i.operands.mapM (ev.operandValue env) = .ok args ∧
        Computes i.opcode (i.type.bind ev.types.type?) w args v := by
  rw [instruction]
  simp only [bind_eq_ok_iff]
  refine exists_congr fun w => and_congr_right fun _ => exists_congr fun args =>
    and_congr_right fun _ => ?_
  rw [Computes]
  by_cases hcopy : i.opcode = "OpCopyObject"
  · rw [if_pos hcopy, if_pos hcopy]
    cases args with
    | nil => simp [throw, throwThe, MonadExceptOf.throw, bind, Except.bind]
    | cons arg args => simp [pure, Except.pure]
  · rw [if_neg hcopy, if_neg hcopy]
    cases Arithmetic.Operation.ofOpcode? i.opcode with
    | none =>
      dsimp only
      simp [bind_eq_ok_iff, throw, throwThe, MonadExceptOf.throw]
    | some operation =>
      simp only [Option.some.injEq, exists_eq_left']
      split
      · next element count htype =>
        rw [htype, applied, bind_eq_ok_iff, Option.map_eq_some_iff]
        simp only [toOption_eq_some_iff, pure, Except.pure, Except.ok.injEq]
      · next hscalar =>
        rw [applied_of_not_vector hscalar]
        cases args.mapM scalarArgument? with
        | none => simp [bind_eq_ok_iff, throw, throwThe, MonadExceptOf.throw]
        | some numbers =>
          rw [Option.bind_some, Option.map_eq_some_iff]
          simp only [bind_eq_ok_iff, toOption_eq_some_iff, pure, Except.pure, Except.ok.injEq]

/-! ## Values of a type -/

/-- The values of integer types and integer vector types are bit patterns. -/
inductive HasType : Ty → Value → Prop
  | scalar {w : Nat} {s : Bool} {n : Int} (h0 : 0 ≤ n) (hn : n < 2 ^ w) :
      HasType (.int w s) (.scalar n)
  | vector {w n : Nat} {s : Bool} {xs : List Int} (hlength : xs.length = n)
      (hxs : ∀ x ∈ xs, 0 ≤ x ∧ x < 2 ^ w) : HasType (.vector (.int w s) n) (.vector xs)

/-- The zero of such a type. -/
def zeroOf : Ty → Value
  | .vector _ n => .vector (List.replicate n 0)
  | _ => .scalar 0

theorem laneWidth_cases {type : Option Ty} (h : laneWidth type = .ok w) :
    (∃ s, type = some (.int w s)) ∨ ∃ s n, type = some (.vector (.int w s) n) := by
  rw [laneWidth.eq_def] at h
  split at h
  · next w' s =>
    obtain ⟨-, rfl⟩ := Integer.checkBits_eq_ok_iff.1 h
    exact .inl ⟨s, rfl⟩
  · next w' s n =>
    obtain ⟨-, rfl⟩ := Integer.checkBits_eq_ok_iff.1 h
    exact .inr ⟨s, n, rfl⟩
  · rw [bind_eq_ok_iff] at h
    obtain ⟨-, -, ⟨⟩⟩ := h
  · cases h

theorem range_of_apply {operation : Arithmetic.Operation} {numbers : List Int} {n : Int}
    (h : apply operation w numbers = .ok n) : 0 ≤ n ∧ n < 2 ^ w := by
  rw [apply, bind_eq_ok_iff] at h
  obtain ⟨m, -, ⟨⟩⟩ := h
  exact ⟨Integer.low_nonneg w m, Integer.low_lt w m⟩

theorem lanes_eq_ok_iff {f : Nat → Except Error Int} {n : Nat} {xs : List Int} :
    lanes f n = .ok xs ↔ xs.length = n ∧ ∀ k (hk : k < xs.length), f k = .ok xs[k] := by
  rw [lanes_eq_mapM, mapM_eq_ok_iff, List.forall₂_iff_get]
  constructor
  · rintro ⟨hlength, h⟩
    have hk' : ∀ k, k < xs.length → k < (List.range n).length := fun k hk => hlength ▸ hk
    rw [List.length_range] at hlength
    refine ⟨hlength.symm, fun k hk => ?_⟩
    simpa using h k (hk' k hk) hk
  · rintro ⟨rfl, h⟩
    refine ⟨List.length_range, fun k _ hk => ?_⟩
    simpa using h k hk

/-- **Every operation gives a value of the type of the instruction.** -/
theorem hasType_of_computes {opcode : String} {type : Option Ty} (hwidth : laneWidth type = .ok w)
    (hcopy : opcode ≠ "OpCopyObject") (h : Computes opcode type w args v) :
    ∃ t, type = some t ∧ HasType t v := by
  rw [Computes, if_neg hcopy] at h
  obtain ⟨operation, -, h⟩ := h
  rcases laneWidth_cases hwidth with ⟨s, rfl⟩ | ⟨s, n, rfl⟩
  · rw [applied_of_not_vector fun _ _ heq => by cases heq] at h
    obtain ⟨numbers, -, h⟩ := Option.bind_eq_some_iff.1 h
    obtain ⟨m, hm, rfl⟩ := Option.map_eq_some_iff.1 h
    obtain ⟨h0, hlt⟩ := range_of_apply (toOption_eq_some_iff.1 hm)
    exact ⟨_, rfl, .scalar h0 hlt⟩
  · obtain ⟨xs, hxs, rfl⟩ := Option.map_eq_some_iff.1 h
    obtain ⟨hlength, hlanes⟩ := lanes_eq_ok_iff.1 (toOption_eq_some_iff.1 hxs)
    refine ⟨_, rfl, .vector hlength fun x hx => ?_⟩
    obtain ⟨k, hk, rfl⟩ := List.getElem_of_mem hx
    have hlane := hlanes k hk
    rw [bind_eq_ok_iff] at hlane
    obtain ⟨numbers, -, happly⟩ := hlane
    exact range_of_apply happly

/-- **Inserting no bits leaves a value as it is**, in every lane. -/
theorem computes_insert {type : Ty} (h : HasType type v) (hwidth : laneWidth (some type) = .ok w) :
    Computes "OpBitFieldInsert" (some type) w [v, zeroOf type, zeroOf type, zeroOf type] v := by
  rw [Computes, if_neg (by decide)]
  refine ⟨.bitFieldInsert, rfl, ?_⟩
  cases h with
  | scalar h0 hn =>
    obtain ⟨s, heq⟩ | ⟨s, n, heq⟩ := laneWidth_cases hwidth
    · cases heq
      rw [applied_of_not_vector fun _ _ heq => by cases heq]
      show (apply .bitFieldInsert w [_, 0, 0, 0]).toOption.map Value.scalar = _
      rw [apply_insert h0 hn]
      rfl
    · cases heq
  | @vector w' n s xs hlength hxs =>
    obtain ⟨s, heq⟩ | ⟨s, n, heq⟩ := laneWidth_cases hwidth
    · cases heq
    · cases heq
      refine Option.map_eq_some_iff.2 ⟨xs, toOption_eq_some_iff.2 ?_, rfl⟩
      refine lanes_eq_ok_iff.2 ⟨hlength, fun k hk => ?_⟩
      obtain ⟨h0, hn⟩ := hxs xs[k] (List.getElem_mem hk)
      have hvalue : lane k (.vector xs) = .ok xs[k] := by
        rw [lane, List.getElem?_eq_getElem hk]
      have hzero : lane k (zeroOf (.vector (.int w s) n)) = .ok 0 := by
        rw [zeroOf, lane, List.getElem?_replicate, if_pos (hlength ▸ hk)]
      rw [bind_eq_ok_iff]
      refine ⟨[xs[k], 0, 0, 0], mapM_eq_ok_iff.2 ?_, apply_insert h0 hn⟩
      exact .cons hvalue (.cons hzero (.cons hzero (.cons hzero .nil)))

/-! ## Constants and operands -/

section Constants

variable {types : TypeTable} {t t' : ConstantTable} {p : Id → Prop} {c : Option Constant}
  {fuel : Nat} {id : Id}

/-- A table that says the same of some ids, the constants of which are made of such ids. -/
structure Extends (p : Id → Prop) (t t' : ConstantTable) : Prop where
  same : ∀ id, p id → t'.constant? id = t.constant? id
  closed : ∀ id type cs, t.constant? id = some (.composite type cs) → ∀ c ∈ cs, p c

/-- Composites apart, the tables have no part in the value of a constant. -/
theorem constantValue_of_not_composite (hc : ∀ type cs, c ≠ some (.composite type cs)) :
    ev'.constantValue fuel c = ev.constantValue fuel c := by
  rw [constantValue.eq_def, constantValue.eq_def]
  split
  · rfl
  · rfl
  · rfl
  · next type cs => exact absurd rfl (hc type cs)
  · next type cs => exact absurd rfl (hc type cs)
  · rfl
  · rfl

theorem constantValue_congr (h : Extends p t t') (fuel : Nat)
    (hc : ∀ type cs, c = some (.composite type cs) → ∀ id ∈ cs, p id) :
    constantValue ⟨types, some t'⟩ fuel c = constantValue ⟨types, some t⟩ fuel c := by
  -- the components of a composite are such ids again, so the condition goes down with the fuel
  induction fuel generalizing c with
  | zero =>
    by_cases hcomposite : ∃ type cs, c = some (.composite type cs)
    · obtain ⟨type, cs, rfl⟩ := hcomposite
      rfl
    · exact constantValue_of_not_composite fun type cs heq => hcomposite ⟨type, cs, heq⟩
  | succ fuel ih =>
    by_cases hcomposite : ∃ type cs, c = some (.composite type cs)
    · obtain ⟨type, cs, rfl⟩ := hcomposite
      rw [constantValue, constantValue]
      congr 1
      refine mapM_congr fun id hid => ?_
      have hsame : t'.constant? id = t.constant? id := h.same id (hc type cs rfl id hid)
      have hvalue := ih (h.closed id)
      show (constantValue ⟨types, some t'⟩ fuel (t'.constant? id) >>= _) =
        (constantValue ⟨types, some t⟩ fuel (t.constant? id) >>= _)
      rw [hsame, hvalue]
    · exact constantValue_of_not_composite fun type cs heq => hcomposite ⟨type, cs, heq⟩

theorem operandValue_congr (h : Extends p t t') {operand : Operand}
    (hid : ∀ id ∈ operand.id?, p id ∧ env'.value? id = env.value? id) :
    operandValue ⟨types, some t'⟩ env' operand = operandValue ⟨types, some t⟩ env operand := by
  rw [operandValue, operandValue]
  cases hoperand : operand.id? with
  | none =>
    simp only [constant?, hoperand]
    rfl
  | some id =>
    obtain ⟨hp, henv⟩ := hid id hoperand
    rw [Option.bind_some, Option.bind_some, henv]
    cases env.value? id with
    | some v => rfl
    | none =>
      simp only [constant?, hoperand, h.same id hp]
      cases hconstant : t.constant? id with
      | none => rfl
      | some constant =>
        refine constantValue_congr h maxNesting fun type cs heq => ?_
        exact h.closed id type cs (hconstant.trans heq)

/-- **Instructions that differ in their results alone have the same values**, if they have any. -/
theorem instruction_alike (h : Extends p t t') {j : Instruction} (hopcode : j.opcode = i.opcode)
    (htype : j.type = i.type) (hoperands : j.operands = i.operands)
    (hinputs : ∀ id ∈ i.inputs, p id ∧ env'.value? id = env.value? id) :
    Alike Eq (instruction ⟨types, some t⟩ env i) (instruction ⟨types, some t'⟩ env' j) := by
  have hargs : i.operands.mapM (operandValue ⟨types, some t'⟩ env')
      = i.operands.mapM (operandValue ⟨types, some t⟩ env) := by
    refine mapM_congr fun operand hmem => operandValue_congr h fun id hid => ?_
    exact hinputs id (List.mem_filterMap.2 ⟨operand, hmem, hid⟩)
  refine alike_eq_of_iff fun v => ?_
  rw [instruction_eq_ok_iff, instruction_eq_ok_iff, hopcode, htype, hoperands, hargs]

/-- Only ids have values. -/
theorem exists_id_of_operandValue {operand : Operand} (h : ev.operandValue env operand = .ok v) :
    ∃ id, operand = .id id := by
  cases operand with
  | id id => exact ⟨id, rfl⟩
  | _ =>
    obtain ⟨c, hc, h⟩ := bind_eq_ok_iff.1 h
    obtain rfl : none = c := Except.ok.inj hc
    obtain ⟨-, -, ⟨⟩⟩ := bind_eq_ok_iff.1 h

theorem operandValue_of_value? (h : env.value? id = some v) :
    ev.operandValue env (.id id) = .ok v := by
  rw [operandValue, Operand.id?, Option.bind_some, h]
  rfl

theorem operandValue_of_constant? {constant : Constant} (h : env.value? id = none)
    (hc : t.constant? id = some constant) :
    operandValue ⟨types, some t⟩ env (.id id)
      = constantValue ⟨types, some t⟩ maxNesting (some constant) := by
  have hconstant : constant? ⟨types, some t⟩ (.id id) = .ok (some constant) := congrArg _ hc
  rw [operandValue, Operand.id?, Option.bind_some, h]
  dsimp only
  rw [hconstant]
  rfl

theorem constantValue_integer {type : Ty} {n : Int} :
    ev.constantValue fuel (some (.scalar type (.int n))) = .ok (.scalar n) := by
  cases fuel <;> rfl

theorem constantValue_zeros {type element : Ty} {cs : List Id}
    (h : ∀ c ∈ cs, t.constant? c = some (.scalar element (.int 0))) :
    constantValue ⟨types, some t⟩ (fuel + 1) (some (.composite type cs))
      = .ok (.vector (List.replicate cs.length 0)) := by
  rw [constantValue, bind_eq_ok_iff]
  refine ⟨List.replicate cs.length 0, mapM_eq_ok_iff.2 ?_, rfl⟩
  induction cs with
  | nil => exact .nil
  | cons c cs ih =>
    refine .cons ?_ (ih fun c hc => h c (List.mem_cons_of_mem _ hc))
    show (constantValue ⟨types, some t⟩ fuel (t.constant? c) >>= _) = _
    rw [h c List.mem_cons_self, constantValue_integer]
    rfl

end Constants

/-! ## Runs

A run is a fold over the instructions in front of the terminator.  A property that every step keeps
is proved of the step alone. -/

/-- What becomes of the environment at an instruction that is no terminator. -/
def step (ev : Evaluator) (inputs env : Environment) (i : Instruction) :
    Except Error Environment :=
  match i.result with
  | none => .ok env
  | some id =>
    if (inputs.value? id).isSome then .ok env
    else do return env.bind id (← ev.instruction env i)

theorem step_of_result {id : Id} (hresult : i.result = some id) (hinput : inputs.value? id = none) :
    ev.step inputs env i = (ev.instruction env i >>= fun v => .ok (env.bind id v)) := by
  rw [step, hresult]
  dsimp only
  rw [hinput, if_neg (by simp)]
  rfl

theorem run_cons (h : i.isTerminator = false) (is : List Instruction) :
    ev.run inputs env (i :: is)
      = (ev.step inputs env i >>= fun env => ev.run inputs env is) := by
  rw [run, if_neg (by simp [h]), step]
  cases i.result with
  | none => rfl
  | some id =>
    dsimp only
    split
    · rfl
    · cases ev.instruction env i <;> rfl

theorem run_of_isTerminator (h : i.isTerminator = true) (is : List Instruction) :
    ev.run inputs env (i :: is) = .ok env := by
  rw [run, if_pos h]

/-- Results that are given are not computed. -/
theorem step_of_given (h : ∀ id, i.result = some id → ∃ v, inputs.value? id = some v) :
    ev.step inputs env i = .ok env := by
  rw [step]
  cases hresult : i.result with
  | none => rfl
  | some id =>
    obtain ⟨v, hv⟩ := h id hresult
    dsimp only
    rw [hv]
    rfl

/-- A step binds the result of the instruction, unless it has none or it is given. -/
theorem step_cases (h : ev.step inputs env i = .ok env') :
    (env' = env ∧ ∀ id, i.result = some id → ∃ v, inputs.value? id = some v) ∨
      ∃ id v, i.result = some id ∧ inputs.value? id = none ∧
        ev.instruction env i = .ok v ∧ env' = env.bind id v := by
  cases hresult : i.result with
  | none =>
    rw [step_of_given (by simp [hresult])] at h
    cases h
    exact .inl ⟨rfl, nofun⟩
  | some id =>
    cases hinput : inputs.value? id with
    | some v =>
      have hgiven : ∀ key, some id = some key → ∃ v, inputs.value? key = some v := by
        rintro _ ⟨⟩
        exact ⟨v, hinput⟩
      rw [step_of_given (hresult ▸ hgiven)] at h
      cases h
      exact .inl ⟨rfl, hgiven⟩
    | none =>
      rw [step_of_result hresult hinput] at h
      obtain ⟨v, hv, heq⟩ := bind_eq_ok_iff.1 h
      cases heq
      exact .inr ⟨id, v, rfl, hinput, hv, rfl⟩

/-- Inputs keep their values. -/
theorem within_step (h : inputs.Within env) (hstep : ev.step inputs env i = .ok env') :
    inputs.Within env' := by
  obtain ⟨rfl, -⟩ | ⟨id, v, -, hnone, -, rfl⟩ := step_cases hstep
  · exact h
  · exact h.bind_right hnone v

/-- What every step keeps, a run keeps. -/
theorem run_invariant {P : Environment → Prop} {is : List Instruction}
    (hstep : ∀ i ∈ is, ∀ env env', P env → ev.step inputs env i = .ok env' → P env')
    (henv : P env) (h : ev.run inputs env is = .ok env') : P env' := by
  induction is generalizing env with
  | nil =>
    cases h
    exact henv
  | cons i is ih =>
    obtain ⟨hi, his⟩ := List.forall_mem_cons.1 hstep
    cases hterminator : i.isTerminator with
    | true =>
      rw [run_of_isTerminator hterminator] at h
      cases h
      exact henv
    | false =>
      rw [run_cons hterminator, bind_eq_ok_iff] at h
      obtain ⟨env₁, hfirst, hrest⟩ := h
      exact ih his (hi env env₁ henv hfirst) hrest

end Evaluator
end ShiftBarrier
