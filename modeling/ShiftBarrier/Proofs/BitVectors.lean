import Mathlib.Data.Nat.Bitwise
import ShiftBarrier.Assembly
import ShiftBarrier.Proofs.Evaluation
import ShiftBarrier.Proofs.Writing

/-!
# Arithmetic of bit vectors

The evaluator computes with integers of any size and sign, and cuts what comes out to the width of
the type.  On bit patterns of that width this is the arithmetic of bit vectors.

* `Arithmetic.Operation.bits` is what an operation makes of bit vectors, and
  `Arithmetic.insertBits` what the insertion of a bit field does bit by bit.
* `Delivers` compares a computation with what is expected of it.
* `Arithmetic.Operation.delivers` does so for one operation.
* `Evaluator.instruction_bits` says that instructions are evaluated that way, lane by lane; by
  `Evaluator.instruction_too_wide` there are widths at which they are not evaluated at all.
-/

set_option autoImplicit false

namespace ShiftBarrier

variable {w : Nat}

/-! ## Operations on bit vectors

What is expected is said without the evaluator, by the operations of `BitVec`. -/

namespace Arithmetic

/-- The `count` bits of `base` from `offset` on are replaced by the lowest bits of `insert`. -/
def insertBits (base insert : BitVec w) (offset count : Nat) : BitVec w :=
  .ofNatLT (Nat.ofBits fun k : Fin w =>
      if offset ≤ k ∧ k < offset + count then insert.getLsbD (k - offset) else base.getLsbD k)
    (Nat.ofBits_lt_two_pow _)

namespace Operation

/-- The number of operands. -/
def arity : Operation → Nat
  | .bitFieldInsert => 4
  | _ => 2

/-- **What an operation makes of bit vectors.**  There is nothing to expect of a bit field that does
not fit into the width. -/
def bits : Operation → List (BitVec w) → Option (BitVec w)
  | .add, [a, b] => some (a + b)
  | .sub, [a, b] => some (a - b)
  | .mul, [a, b] => some (a * b)
  | .and, [a, b] => some (a &&& b)
  | .or, [a, b] => some (a ||| b)
  | .xor, [a, b] => some (a ^^^ b)
  | .shiftLeftLogical, [a, b] => some (if w ≤ b.toNat then 0 else a <<< b.toNat)
  | .shiftRightLogical, [a, b] => some (if w ≤ b.toNat then 0 else a >>> b.toNat)
  | .bitFieldInsert, [base, insert, offset, count] =>
    if w < offset.toNat + count.toNat then none
    else some (insertBits base insert offset.toNat count.toNat)
  | _, _ => none

/-- Where a bit field ends can be written down. -/
def Reportable : Operation → List (BitVec w) → Prop
  | .bitFieldInsert, [_, _, offset, count] =>
    offset.toNat + count.toNat < 10 ^ Decimal.maxDigits
  | _, _ => True

end Operation
end Arithmetic

/-! ## What a computation delivers

A failure is expected just as a value is: `Delivers` relates a computation to what is expected of
it, in both cases, and it goes through the binds of the evaluator. -/

/-- A computation yields what is expected, and fails if nothing is.  It fails by an evaluation error
unless the numbers of the report cannot be written. -/
structure Delivers {α : Type} (out : Except Error α) (expected : Option α) (reportable : Prop) :
    Prop where
  value : ∀ a, expected = some a → out = .ok a
  fault : expected = none →
    (∃ reason, out = .error (.evaluation reason)) ∨
      ¬ reportable ∧ out = .error (.numeral .writing)

namespace Delivers

variable {α β γ : Type} {out : Except Error α} {expected : Option α} {reportable : Prop}

theorem ok (a : α) : Delivers (.ok a) (some a) reportable where
  value _ heq := congrArg Except.ok (Option.some.inj heq)
  fault heq := nomatch heq

/-- A failure stays one whatever comes after it. -/
theorem bind {f : α → Except Error β} {g : α → Option β} (h : Delivers out expected reportable)
    (hf : ∀ a, expected = some a → Delivers (f a) (g a) reportable) :
    Delivers (out >>= f) (expected >>= g) reportable := by
  cases expected with
  | none =>
    refine ⟨fun _ hb => (nomatch hb), fun _ => ?_⟩
    obtain ⟨reason, rfl⟩ | ⟨hlong, rfl⟩ := h.fault rfl
    · exact .inl ⟨reason, rfl⟩
    · exact .inr ⟨hlong, rfl⟩
  | some a =>
    rw [h.value a rfl]
    exact hf a rfl

theorem map {f : α → β} (h : Delivers out expected reportable) :
    Delivers (out.map f) (expected.map f) reportable := by
  have hbind : Delivers (out >>= fun a => .ok (f a)) (expected >>= fun a => some (f a))
      reportable := h.bind fun a _ => .ok (f a)
  cases out <;> cases expected <;> exact hbind

/-- One computation after the other delivers what is expected of each. -/
theorem mapM {f : γ → Except Error α} {g : γ → Option α} {ks : List γ}
    (h : ∀ k ∈ ks, Delivers (f k) (g k) reportable) :
    Delivers (ks.mapM f) (ks.mapM g) reportable := by
  induction ks with
  | nil => exact .ok []
  | cons k ks ih =>
    rw [List.mapM_cons, List.mapM_cons]
    refine (h k List.mem_cons_self).bind fun a _ => ?_
    refine (ih fun j hj => h j (List.mem_cons_of_mem _ hj)).bind fun as _ => ?_
    exact .ok (a :: as)

theorem mono {reportable' : Prop} (h : Delivers out expected reportable)
    (himp : reportable' → reportable) : Delivers out expected reportable' where
  value := h.value
  fault heq := (h.fault heq).imp_right fun hlong => ⟨fun h => hlong.1 (himp h), hlong.2⟩

end Delivers

/-! ## Cutting to the width -/

theorem toNat_emod (r : BitVec w) : (r.toNat : Int) % 2 ^ w = r.toNat :=
  Int.emod_eq_of_lt (Int.natCast_nonneg _) (by exact_mod_cast r.isLt)

theorem sub_emod (a b : BitVec w) : ((a.toNat : Int) - b.toNat) % 2 ^ w = (a - b).toNat := by
  have hb : b.toNat ≤ 2 ^ w := Nat.le_of_lt b.isLt
  rw [BitVec.toNat_sub, Int.natCast_emod, Int.natCast_add, Int.natCast_sub hb, Nat.cast_pow,
    Nat.cast_ofNat, ← Int.add_emod_left]
  congr 1
  omega

namespace Arithmetic

/-! ## Inserting bits

The evaluator inserts with masks, the expected result is said bit by bit.  They are compared at
every bit. -/

theorem testBit_toNat_insertBits (base insert : BitVec w) (offset count k : Nat) :
    (insertBits base insert offset count).toNat.testBit k =
      (decide (k < w) && if offset ≤ k ∧ k < offset + count then insert.getLsbD (k - offset)
        else base.getLsbD k) := by
  rw [insertBits, BitVec.toNat_ofNatLT, Nat.testBit_ofBits]
  by_cases hk : k < w <;> simp [hk]

/-- The ones from `offset` on. -/
def fieldMask (offset count : Nat) : Nat := (2 ^ count - 1) <<< offset

theorem testBit_fieldMask (offset count k : Nat) :
    (fieldMask offset count).testBit k = decide (offset ≤ k ∧ k < offset + count) := by
  rw [fieldMask, Nat.testBit_shiftLeft, Nat.testBit_two_pow_sub_one, ← Bool.decide_and]
  exact decide_eq_decide.2 (by omega)

/-- What stands outside of the mask is kept, what stands in it is replaced. -/
theorem or_and_complement (base insert mask : Nat) :
    or (and base (complement mask)) (and insert mask)
      = ((clear base mask ||| (insert &&& mask) : Nat) : Int) := by
  have hcomplement : complement mask = .negSucc mask := by
    rw [complement, Int.negSucc_eq]
    omega
  rw [hcomplement]
  rfl

theorem masked_eq_insertBits {base insert : BitVec w} {offset count : Nat}
    (h : offset + count ≤ w) :
    (clear base.toNat (fieldMask offset count) |||
        (insert.toNat <<< offset &&& fieldMask offset count))
      = (insertBits base insert offset count).toNat := by
  refine Nat.eq_of_testBit_eq fun k => ?_
  rw [testBit_toNat_insertBits, clear, Nat.testBit_or, Nat.testBit_xor, Nat.testBit_and,
    Nat.testBit_and, testBit_fieldMask, Nat.testBit_shiftLeft, BitVec.getLsbD, BitVec.getLsbD]
  by_cases hfield : offset ≤ k ∧ k < offset + count
  · have hk : k < w := by omega
    simp [hfield, hk]
  · by_cases hk : k < w
    · simp [hfield, hk]
    · have hbase : base.toNat.testBit k = false := base.getLsbD_of_ge k (Nat.not_lt.1 hk)
      simp [hfield, hk, hbase]

/-! ## One operation -/

/-- A bit field that does not fit is reported with the numbers it consists of. -/
theorem bitFieldInsert_of_lt (base insert : BitVec w) {offset count : BitVec w}
    (hw : w ≤ Integer.maxBits) (h : w < offset.toNat + count.toNat) :
    (∃ reason, bitFieldInsert w base.toNat insert.toNat offset.toNat count.toNat
        = .error (.evaluation reason)) ∨
      ¬ offset.toNat + count.toNat < 10 ^ Decimal.maxDigits ∧
        bitFieldInsert w base.toNat insert.toNat offset.toNat count.toNat
          = .error (.numeral .writing) := by
  have hlt : (w : Int) < offset.toNat + count.toNat := by omega
  have hwidth : w < 10 ^ Decimal.maxDigits :=
    Nat.lt_of_le_of_lt hw Integer.maxBits_lt_pow_maxDigits
  rw [bitFieldInsert, if_pos hlt]
  cases hfirst : Decimal.ofInt offset.toNat with
  | error fault =>
    obtain ⟨rfl, hlong⟩ := Decimal.ofInt_eq_error hfirst
    exact .inr ⟨by omega, rfl⟩
  | ok first =>
    cases hlast : Decimal.ofInt (offset.toNat + count.toNat) with
    | error fault =>
      obtain ⟨rfl, hlong⟩ := Decimal.ofInt_eq_error hlast
      exact .inr ⟨by omega, rfl⟩
    | ok last =>
      cases hw : Decimal.ofInt w with
      | error fault => exact absurd (Decimal.ofInt_eq_error hw).2 (by omega)
      | ok width => exact .inl ⟨_, rfl⟩

theorem bitFieldInsert_of_le (base insert : BitVec w) {offset count : BitVec w}
    (hw : w ≤ Integer.maxBits) (h : offset.toNat + count.toNat ≤ w) :
    bitFieldInsert w base.toNat insert.toNat offset.toNat count.toNat
      = .ok ((insertBits base insert offset.toNat count.toNat).toNat : Int) := by
  have hsteps : bitFieldInsert w base.toNat insert.toNat offset.toNat count.toNat =
      (Integer.shiftLeft 1 count.toNat >>= fun ones =>
        Integer.shiftLeft (ones - 1) offset.toNat >>= fun mask =>
        Integer.shiftLeft insert.toNat offset.toNat >>= fun moved =>
        .ok (or (and base.toNat (complement mask)) (and moved mask))) := by
    rw [bitFieldInsert, if_neg (by omega)]
    rfl
  have hones : (1 * 2 ^ count.toNat - 1 : Int) = ((2 ^ count.toNat - 1 : Nat) : Int) := by
    rw [Int.one_mul, Int.natCast_sub Nat.one_le_two_pow]
    push_cast
    rfl
  have hshifted : ∀ n : Nat, (n : Int) * 2 ^ offset.toNat = ((n <<< offset.toNat : Nat) : Int) := by
    intro n
    rw [Nat.shiftLeft_eq]
    push_cast
    rfl
  have hcount : count.toNat ≤ Integer.maxBits := by omega
  have hoffset : offset.toNat ≤ Integer.maxBits := by omega
  rw [hsteps, Integer.shiftLeft_of_le 1 hcount]
  show Integer.shiftLeft (1 * 2 ^ count.toNat - 1) offset.toNat >>= _ = _
  rw [Integer.shiftLeft_of_le _ hoffset]
  show Integer.shiftLeft insert.toNat offset.toNat >>= _ = _
  rw [Integer.shiftLeft_of_le _ hoffset]
  show Except.ok (or _ _) = _
  rw [hones, hshifted, hshifted, ← masked_eq_insertBits h, ← or_and_complement]
  rfl

open Evaluator (apply)

/-- What an operation comes to is cut to the bit vector it is congruent to. -/
theorem apply_eq (op : Operation) {args : List Int} {n : Int} {r : BitVec w}
    (heval : op.eval w args = .ok n) (hr : n % 2 ^ w = r.toNat) :
    apply op w args = .ok (r.toNat : Int) := by
  rw [apply, heval, ← hr, ← Integer.low_eq]
  rfl

theorem apply_shiftLeftLogical (hw : w ≤ Integer.maxBits) (a b : BitVec w) :
    apply .shiftLeftLogical w [a.toNat, b.toNat]
      = .ok ((if w ≤ b.toNat then 0 else a <<< b.toNat).toNat : Int) := by
  by_cases hle : w ≤ b.toNat
  · have heval : shiftLeftLogical w a.toNat b.toNat = .ok 0 := if_pos (by omega)
    rw [if_pos hle]
    exact apply_eq .shiftLeftLogical heval (by simp)
  · have heval : shiftLeftLogical w a.toNat b.toNat = .ok (a.toNat * 2 ^ b.toNat) := by
      rw [shiftLeftLogical, if_neg (by omega), Integer.shiftLeft_of_le _ (by omega)]
    rw [if_neg hle]
    refine apply_eq .shiftLeftLogical heval ?_
    rw [BitVec.toNat_shiftLeft, Nat.shiftLeft_eq]
    push_cast
    rfl

theorem apply_shiftRightLogical (a b : BitVec w) :
    apply .shiftRightLogical w [a.toNat, b.toNat]
      = .ok ((if w ≤ b.toNat then 0 else a >>> b.toNat).toNat : Int) := by
  by_cases hle : w ≤ b.toNat
  · have heval : shiftRightLogical w a.toNat b.toNat = .ok 0 := if_pos (by omega)
    rw [if_pos hle]
    exact apply_eq .shiftRightLogical heval (by simp)
  · have heval : shiftRightLogical w a.toNat b.toNat = .ok ((a >>> b.toNat).toNat : Int) := by
      rw [shiftRightLogical, if_neg (by omega), Integer.shiftRight, if_neg (by omega),
        BitVec.toNat_ushiftRight]
      rfl
    rw [if_neg hle]
    exact apply_eq .shiftRightLogical heval (toNat_emod _)

theorem delivers_bitFieldInsert (hw : w ≤ Integer.maxBits) (base insert offset count : BitVec w) :
    Delivers (apply .bitFieldInsert w [base.toNat, insert.toNat, offset.toNat, count.toNat])
      ((Operation.bits .bitFieldInsert [base, insert, offset, count]).map fun r => (r.toNat : Int))
      (Operation.Reportable .bitFieldInsert [base, insert, offset, count]) := by
  by_cases hlt : w < offset.toNat + count.toNat
  · rw [Operation.bits, if_pos hlt]
    refine ⟨fun _ h => (nomatch h), fun _ => ?_⟩
    have heval : ∀ {e : Error},
        bitFieldInsert w base.toNat insert.toNat offset.toNat count.toNat = .error e →
          apply .bitFieldInsert w [base.toNat, insert.toNat, offset.toNat, count.toNat]
            = .error e := by
      intro e h
      show bitFieldInsert _ _ _ _ _ >>= _ = _
      rw [h]
      rfl
    obtain ⟨reason, h⟩ | ⟨hlong, h⟩ := bitFieldInsert_of_lt base insert hw hlt
    · exact .inl ⟨reason, heval h⟩
    · exact .inr ⟨hlong, heval h⟩
  · rw [Operation.bits, if_neg hlt]
    have heval : Operation.bitFieldInsert.eval w
        [(base.toNat : Int), insert.toNat, offset.toNat, count.toNat]
          = .ok ((insertBits base insert offset.toNat count.toNat).toNat : Int) :=
      bitFieldInsert_of_le base insert hw (Nat.not_lt.1 hlt)
    rw [apply_eq .bitFieldInsert heval (toNat_emod _)]
    exact .ok _

/-- **An operation on bit patterns, cut to the width, is the operation on bit vectors.** -/
theorem Operation.delivers {op : Operation} (hw : w ≤ Integer.maxBits) {xs : List (BitVec w)}
    (harity : xs.length = op.arity) :
    Delivers (apply op w (xs.map fun x => (x.toNat : Int)))
      ((op.bits xs).map fun r => (r.toNat : Int)) (op.Reportable xs) := by
  by_cases hop : op = .bitFieldInsert
  · subst hop
    match xs, harity with
    | [base, insert, offset, count], _ => exact delivers_bitFieldInsert hw base insert offset count
  · have htwo : op.arity = 2 := by
      cases op with
      | bitFieldInsert => exact absurd rfl hop
      | _ => rfl
    obtain ⟨a, b, rfl⟩ := List.length_eq_two.1 (harity.trans htwo)
    -- an operation with two operands always has a result
    suffices ∃ r, op.bits [a, b] = some r ∧
        apply op w [(a.toNat : Int), b.toNat] = .ok (r.toNat : Int) by
        obtain ⟨r, hr, happly⟩ := this
        show Delivers (apply op w [(a.toNat : Int), b.toNat]) _ _
        rw [hr, happly]
        exact .ok _
    cases op with
    | bitFieldInsert => exact absurd rfl hop
    | shiftLeftLogical => exact ⟨_, rfl, apply_shiftLeftLogical hw a b⟩
    | shiftRightLogical => exact ⟨_, rfl, apply_shiftRightLogical a b⟩
    | add =>
      refine ⟨_, rfl, apply_eq .add rfl ?_⟩
      rw [BitVec.toNat_add]
      push_cast
      rfl
    | sub => exact ⟨_, rfl, apply_eq .sub rfl (sub_emod a b)⟩
    | mul =>
      refine ⟨_, rfl, apply_eq .mul rfl ?_⟩
      rw [BitVec.toNat_mul]
      push_cast
      rfl
    | and => exact ⟨_, rfl, apply_eq .and rfl (toNat_emod (a &&& b))⟩
    | or => exact ⟨_, rfl, apply_eq .or rfl (toNat_emod (a ||| b))⟩
    | xor => exact ⟨_, rfl, apply_eq .xor rfl (toNat_emod (a ^^^ b))⟩

end Arithmetic

/-! ## Instructions

An instruction on vectors is one operation for each lane, so what was proved of an operation is all
that is needed here. -/

namespace Evaluator

open Arithmetic (Operation)

/-- What a vector operation works on: one bit vector for all lanes, or one for each. -/
inductive Argument (w n : Nat)
  | all (x : BitVec w)
  | each (xs : Fin n → BitVec w)

namespace Argument

variable {n : Nat}

/-- The value that stands for an argument. -/
def value : Argument w n → Value
  | .all x => .scalar x.toNat
  | .each xs => .vector (List.ofFn fun k => ((xs k).toNat : Int))

/-- The bit vector of one lane. -/
def lane (k : Fin n) : Argument w n → BitVec w
  | .all x => x
  | .each xs => xs k

theorem lane_value (k : Fin n) (arg : Argument w n) :
    Evaluator.lane k arg.value = .ok ((arg.lane k).toNat : Int) := by
  cases arg with
  | all x => rfl
  | each xs => simp [value, Evaluator.lane, lane]

theorem mapM_lane_value (k : Fin n) (args : List (Argument w n)) :
    (args.map value).mapM (Evaluator.lane k)
      = .ok ((args.map (lane k)).map fun x => (x.toNat : Int)) := by
  rw [List.mapM_map, mapM_eq_ok_iff, List.map_map, List.forall₂_map_right_iff, List.forall₂_same]
  exact fun arg _ => lane_value k arg

end Argument

variable {ev : Evaluator} {env : Environment} {i : Instruction} {op : Operation} {s : Bool}
  {args : List Value} {numbers : List Int} {n : Nat}

theorem mapM_option_map {α β γ : Type} (f : α → Option β) (g : β → γ) (ks : List α) :
    ks.mapM (fun k => (f k).map g) = (ks.mapM f).map (List.map g) := by
  induction ks with
  | nil => rfl
  | cons k ks ih =>
    rw [List.mapM_cons, List.mapM_cons, ih]
    cases f k <;> cases ks.mapM f <;> rfl

theorem opcode_ne_copy (hop : Operation.ofOpcode? i.opcode = some op) :
    i.opcode ≠ "OpCopyObject" := by
  intro hcopy
  rw [hcopy] at hop
  cases hop

/-- An instruction on numbers applies its operation once. -/
theorem instruction_of_scalars (hop : Operation.ofOpcode? i.opcode = some op)
    (htype : i.type.bind ev.types.type? = some (.int w s)) (hw : w ≤ Integer.maxBits)
    (hargs : i.operands.mapM (ev.operandValue env) = .ok args)
    (hnumbers : args.mapM scalarArgument? = some numbers) :
    ev.instruction env i = (apply op w numbers).map .scalar := by
  have hwidth : laneWidth (some (.int w s)) = .ok w := if_pos hw
  simp only [instruction, htype, hwidth, hargs, hop, bind, Except.bind, hnumbers,
    if_neg (opcode_ne_copy hop)]
  cases apply op w numbers <;> rfl

/-- An instruction on vectors applies its operation to every lane. -/
theorem instruction_of_vectors (hop : Operation.ofOpcode? i.opcode = some op)
    (htype : i.type.bind ev.types.type? = some (.vector (.int w s) n)) (hw : w ≤ Integer.maxBits)
    (hargs : i.operands.mapM (ev.operandValue env) = .ok args) :
    ev.instruction env i
      = (lanes (fun k => do apply op w (← args.mapM (lane k))) n).map .vector := by
  have hwidth : laneWidth (some (.vector (.int w s) n)) = .ok w := if_pos hw
  simp only [instruction, htype, hwidth, hargs, hop, bind, Except.bind,
    if_neg (opcode_ne_copy hop)]
  cases lanes _ n <;> rfl

/-- No instruction is evaluated at a width that is out of bounds. -/
theorem instruction_of_lt (hw : Integer.maxBits < w)
    (htype : i.type.bind ev.types.type? = some (.int w s) ∨
      i.type.bind ev.types.type? = some (.vector (.int w s) n)) :
    ev.instruction env i = .error (.tooLong w) := by
  have hwidth : Integer.checkBits w = .error (.tooLong w) := if_neg (Nat.not_le.2 hw)
  rcases htype with htype | htype
  · rw [instruction, htype]
    show Integer.checkBits w >>= _ = _
    rw [hwidth]
    rfl
  · rw [instruction, htype]
    show Integer.checkBits w >>= _ = _
    rw [hwidth]
    rfl

/-- **The evaluator implements the arithmetic of bit vectors.**  A scalar instruction on bit
patterns of the width gives what its operation makes of them.  A vector instruction gives that lane
by lane, scalars taking part in every lane, and fails if some lane does.  At a width of which the
power of two is too long nothing is evaluated. -/
theorem instruction_bits (hop : Operation.ofOpcode? i.opcode = some op) :
    (w ≤ Integer.maxBits →
      (∀ xs : List (BitVec w), xs.length = op.arity →
        i.type.bind ev.types.type? = some (.int w s) →
        i.operands.mapM (ev.operandValue env) = .ok (xs.map fun x => .scalar x.toNat) →
        Delivers (ev.instruction env i) ((op.bits xs).map fun r => .scalar r.toNat)
          (op.Reportable xs)) ∧
      ∀ (n : Nat) (args : List (Argument w n)), args.length = op.arity →
        i.type.bind ev.types.type? = some (.vector (.int w s) n) →
        i.operands.mapM (ev.operandValue env) = .ok (args.map Argument.value) →
        Delivers (ev.instruction env i)
          (((List.finRange n).mapM fun k => op.bits (args.map (Argument.lane k))).map fun rs =>
            .vector (rs.map fun r => r.toNat))
          (∀ k, op.Reportable (args.map (Argument.lane k)))) ∧
    (Integer.maxBits < w →
      (i.type.bind ev.types.type? = some (.int w s) ∨
        ∃ n, i.type.bind ev.types.type? = some (.vector (.int w s) n)) →
      ev.instruction env i = .error (.tooLong w)) := by
  refine ⟨fun hw => ⟨fun xs harity htype hargs => ?_, fun n args harity htype hargs => ?_⟩,
    fun hw htype => ?_⟩
  · have hnumbers : (xs.map fun x => Value.scalar x.toNat).mapM scalarArgument?
        = some (xs.map fun x => (x.toNat : Int)) := by
      rw [List.mapM_map]
      exact List.mapM_pure
    rw [instruction_of_scalars hop htype hw hargs hnumbers]
    have hdelivers := (Operation.delivers hw harity).map (f := Value.scalar)
    rw [Option.map_map] at hdelivers
    exact hdelivers
  · have hlane : ∀ k : Fin n, (args.map Argument.value).mapM (lane k) >>= apply op w
        = apply op w ((args.map (Argument.lane k)).map fun x => (x.toNat : Int)) := by
      intro k
      rw [Argument.mapM_lane_value]
      rfl
    have hlanes : Delivers
        (lanes (fun k => (args.map Argument.value).mapM (lane k) >>= apply op w) n)
        ((List.finRange n).mapM fun k =>
          (op.bits (args.map (Argument.lane k))).map fun r => (r.toNat : Int))
        (∀ k, op.Reportable (args.map (Argument.lane k))) := by
      rw [lanes_eq_mapM, ← List.map_coe_finRange_eq_range, List.mapM_map]
      refine Delivers.mapM fun k _ => ?_
      rw [Function.comp_apply, hlane]
      exact (Operation.delivers hw (by rw [List.length_map, harity])).mono fun h => h k
    rw [instruction_of_vectors hop htype hw hargs]
    have hdelivers := hlanes.map (f := Value.vector)
    rw [mapM_option_map, Option.map_map] at hdelivers
    exact hdelivers
  · obtain htype | ⟨n, htype⟩ := htype
    · exact instruction_of_lt (n := 0) hw (.inl htype)
    · exact instruction_of_lt hw (.inr htype)

/-! ### Examples -/

/-- Types of bytes and of pairs of bytes, and no constants. -/
def byteEvaluator : Evaluator :=
  ⟨⟨[(⟨1, none⟩, .int 8 false), (⟨2, none⟩, .vector (.int 8 false) 2)]⟩, none⟩

/-- A byte and a pair of bytes. -/
def byteEnvironment : Environment :=
  [(⟨3, none⟩, .scalar 6), (⟨4, none⟩, .vector [1, 200])]

/-- A byte is subtracted from both bytes of a pair. -/
def pairDifference : Instruction :=
  { opcode := "OpISub", type := some ⟨2, none⟩, operands := [.id ⟨4, none⟩, .id ⟨3, none⟩] }

/-- Six bits from the sixth bit on are more than a byte has. -/
def insertionBeyond : Instruction :=
  { opcode := "OpBitFieldInsert", type := some ⟨1, none⟩,
    operands := [.id ⟨3, none⟩, .id ⟨3, none⟩, .id ⟨3, none⟩, .id ⟨3, none⟩] }

theorem instruction_bits_sample :
    byteEvaluator.instruction byteEnvironment pairDifference = .ok (.vector [251, 194]) ∧
      ∃ reason, byteEvaluator.instruction byteEnvironment insertionBeyond
        = .error (.evaluation reason) := by
  have hw : 8 ≤ Integer.maxBits := by decide
  constructor
  · have hop : Operation.ofOpcode? pairDifference.opcode = some .sub := rfl
    have hbits : Delivers (byteEvaluator.instruction byteEnvironment pairDifference) _ _ :=
      ((instruction_bits hop).1 hw).2 2 [.each fun k => if k = 0 then 1 else 200, .all 6]
        rfl rfl rfl
    exact hbits.value (.vector [251, 194]) (by decide)
  · have hop : Operation.ofOpcode? insertionBeyond.opcode = some .bitFieldInsert := rfl
    have hbits : Delivers (byteEvaluator.instruction byteEnvironment insertionBeyond) _ _ :=
      ((instruction_bits hop).1 hw).1 [6, 6, 6, 6] rfl rfl rfl
    have hshort : 6 + 6 < 10 ^ Decimal.maxDigits :=
      Nat.lt_of_lt_of_le (by decide : 6 + 6 < 10 ^ 2)
        (Nat.pow_le_pow_right (by decide) (by decide))
    obtain hreason | ⟨hlong, -⟩ := hbits.fault (by decide)
    · exact hreason
    · exact absurd hshort hlong

/-- A sum of two integers of `2 ^ 70` bits, and a bit field at a place that is an integer of
`2 ^ 15` bits. -/
def wideText : String :=
  "%1 = OpTypeInt 1180591620717411303424 0\n%8 = OpTypeInt 32768 0\n" ++
  "%2 = OpFunction %1 None %1\n%3 = OpLabel\n%4 = OpIAdd %1 %5 %6\n" ++
  "%7 = OpBitFieldInsert %8 %5 %6 %9 %9\nOpReturn\nOpFunctionEnd\n"

/-- The sum of that text. -/
def wideSum : Instruction :=
  { opcode := "OpIAdd", type := some ⟨1, none⟩, result := some ⟨4, none⟩,
    operands := [.id ⟨5, none⟩, .id ⟨6, none⟩], serial := 3 }

/-- The bit field of that text. -/
def farField : Instruction :=
  { opcode := "OpBitFieldInsert", type := some ⟨8, none⟩, result := some ⟨7, none⟩,
    operands := [.id ⟨5, none⟩, .id ⟨6, none⟩, .id ⟨9, none⟩, .id ⟨9, none⟩], serial := 4 }

/-- The module of that text. -/
def wideModule : Module :=
  { globals :=
      [{ opcode := "OpTypeInt", result := some ⟨1, none⟩,
         operands := [.literal (.int (2 ^ 70)) none, .literal (.int 0) none], serial := 0 },
       { opcode := "OpTypeInt", result := some ⟨8, none⟩,
         operands := [.literal (.int 32768) none, .literal (.int 0) none], serial := 1 }]
    functions :=
      [{ id := ⟨2, none⟩
         definition :=
           { opcode := "OpFunction", type := some ⟨1, none⟩, result := some ⟨2, none⟩,
             operands := [.enumerant "None", .id ⟨1, none⟩], serial := 2 }
         blocks :=
           [{ label := ⟨3, none⟩
              instructions := [wideSum, farField, { opcode := "OpReturn", serial := 5 }] }] }]
    bound := 10
    nextSerial := 6 }

/-- The numbers the two instructions read, given the place of the bit field. -/
def wideEnvironment (place : Nat) : Environment :=
  [(⟨5, none⟩, .scalar 1), (⟨6, none⟩, .scalar 1), (⟨9, none⟩, .scalar place)]

/-- The evaluator of that module. -/
def wideEvaluator : Evaluator :=
  ⟨⟨[(⟨1, none⟩, .int (2 ^ 70) false), (⟨8, none⟩, .int 32768 false)]⟩, some ⟨[]⟩⟩

/-- A bit field whose place is too long to be written is not reported by an evaluation error. -/
theorem instruction_farField {place : Nat} (h : 4 * Decimal.maxDigits < place.log2) :
    wideEvaluator.instruction (wideEnvironment place) farField = .error (.numeral .writing) := by
  have hmax : Decimal.maxDigits = 4300 := rfl
  have hne : place ≠ 0 := by
    rintro rfl
    exact absurd h (by decide)
  have hplace : 2 ^ 16 ≤ place :=
    (Nat.pow_le_pow_right (by decide) (by omega)).trans (Nat.log2_self_le hne)
  have hoffset : Decimal.ofInt place = .error .writing := if_pos h
  show (Arithmetic.bitFieldInsert 32768 1 1 place place >>= _) >>= _ = _
  rw [Arithmetic.bitFieldInsert, if_pos (by omega), hoffset]
  rfl

/-- **One and one have no sum at a width that is too long**, and a bit field whose place cannot be
written down is not reported by an evaluation error. -/
theorem instruction_too_wide :
    Assembly.parse {} wideText = .ok wideModule ∧ ofModule wideModule = .ok wideEvaluator ∧
      (wideSum ∈ wideModule.instructions ∧
        Operation.ofOpcode? wideSum.opcode = some .add ∧
        wideSum.type.bind wideEvaluator.types.type? = some (.int (2 ^ 70) false) ∧
        wideSum.operands.mapM (wideEvaluator.operandValue (wideEnvironment (2 ^ 20000)))
          = .ok [.scalar 1, .scalar 1] ∧
        wideEvaluator.instruction (wideEnvironment (2 ^ 20000)) wideSum
          = .error (.tooLong (2 ^ 70))) ∧
      farField ∈ wideModule.instructions ∧
        Operation.ofOpcode? farField.opcode = some .bitFieldInsert ∧
        farField.type.bind wideEvaluator.types.type? = some (.int 32768 false) ∧
        farField.operands.mapM (wideEvaluator.operandValue (wideEnvironment (2 ^ 20000)))
          = .ok [.scalar 1, .scalar 1, .scalar (2 ^ 20000 : Nat), .scalar (2 ^ 20000 : Nat)] ∧
        2 ^ 20000 < 2 ^ 32768 ∧
        wideEvaluator.instruction (wideEnvironment (2 ^ 20000)) farField
          = .error (.numeral .writing) := by
  refine ⟨toOption_eq_some_iff.1 (by decide +kernel), rfl, ⟨by decide, rfl, rfl, ?_, ?_⟩, by decide,
    rfl, rfl, ?_, ?_, ?_⟩
  · rfl
  · rfl
  · rfl
  · exact pow_lt_pow_right₀ Nat.one_lt_two (by decide)
  · refine instruction_farField ?_
    rw [Nat.log2_two_pow]
    decide

end Evaluator
end ShiftBarrier
