import Mathlib.Algebra.Group.Nat.Defs
import ShiftBarrier.Instruction
import ShiftBarrier.Proofs.Failure

/-!
# What can be written

Everything in a listing can be written, apart from integers of too many digits.

* `Decimal.exists_ofInt_iff` says which integers have a numeral.
* `Operand.Writable` carries this over to operands, and `Instruction.exists_text_iff` to lines.
-/

set_option autoImplicit false

namespace ShiftBarrier
namespace Decimal

/-- Four bits a digit are enough, which is why a number of more bits is too long in any case. -/
theorem log2_le_of_lt {n : Nat} (h : n < 10 ^ maxDigits) : n.log2 ≤ 4 * maxDigits := by
  rcases Nat.eq_zero_or_pos n with rfl | hpos
  · exact Nat.zero_le _
  · refine Nat.le_of_lt ((Nat.log2_lt (Nat.ne_of_gt hpos)).2 (Nat.lt_of_lt_of_le h ?_))
    rw [Nat.pow_mul]
    exact Nat.pow_le_pow_left (by decide) _

theorem exists_ofNat_iff {n : Nat} : (∃ s, ofNat n = .ok s) ↔ n < 10 ^ maxDigits := by
  have hlength : (Nat.toDigits 10 n).length ≤ maxDigits ↔ n < 10 ^ maxDigits :=
    Nat.length_toDigits_le_iff (by decide) (by decide)
  rw [ofNat, ← hlength]
  split
  · next hlong =>
    refine iff_of_false (by rintro ⟨_, ⟨⟩⟩) fun hle => ?_
    exact Nat.not_le.2 hlong (log2_le_of_lt (hlength.1 hle))
  · dsimp only
    split
    · next hle => exact iff_of_true ⟨_, rfl⟩ hle
    · next hgt => exact iff_of_false (by rintro ⟨_, ⟨⟩⟩) hgt

theorem exists_ofInt_iff {n : Int} : (∃ s, ofInt n = .ok s) ↔ n.natAbs < 10 ^ maxDigits := by
  cases n with
  | ofNat n => exact exists_ofNat_iff
  | negSucc n =>
    rw [Int.natAbs_negSucc, ← exists_ofNat_iff, ofInt]
    cases ofNat (n + 1) with
    | error fault => exact iff_of_false (by rintro ⟨_, ⟨⟩⟩) (by rintro ⟨_, ⟨⟩⟩)
    | ok s => exact iff_of_true ⟨_, rfl⟩ ⟨_, rfl⟩

theorem ofNat_eq_error {n : Nat} {fault : Fault} (h : ofNat n = .error fault) :
    fault = .writing ∧ 10 ^ maxDigits ≤ n := by
  constructor
  · rw [ofNat] at h
    split at h
    · cases h
      rfl
    · dsimp only at h
      split at h
      · cases h
      · cases h
        rfl
  · by_contra hlt
    obtain ⟨s, hs⟩ := exists_ofNat_iff.2 (Nat.not_le.1 hlt)
    cases hs.symm.trans h

theorem ofInt_eq_error {n : Int} {fault : Fault} (h : ofInt n = .error fault) :
    fault = .writing ∧ 10 ^ maxDigits ≤ n.natAbs := by
  cases n with
  | ofNat n => exact ofNat_eq_error h
  | negSucc n => exact ofNat_eq_error (map_eq_error_iff.1 h)

end Decimal

/-- A number that is written as it was spelled may be as long as it likes. -/
def Operand.Writable : Operand → Prop
  | .literal (.int n) none => n.natAbs < 10 ^ Decimal.maxDigits
  | _ => True

theorem Operand.exists_text_iff {operand : Operand} :
    (∃ word, operand.text = .ok word) ↔ operand.Writable := by
  match operand with
  | .literal (.int n) none => exact Decimal.exists_ofInt_iff
  | .literal (.int n) (some _) => exact iff_of_true ⟨_, rfl⟩ trivial
  | .literal (.float _) none => exact iff_of_true ⟨_, rfl⟩ trivial
  | .literal (.float _) (some _) => exact iff_of_true ⟨_, rfl⟩ trivial
  | .id _ => exact iff_of_true ⟨_, rfl⟩ trivial
  | .enumerant _ => exact iff_of_true ⟨_, rfl⟩ trivial
  | .string _ => exact iff_of_true ⟨_, rfl⟩ trivial

/-- **The line of an instruction can be written if its operands can.** -/
theorem Instruction.exists_text_iff {i : Instruction} :
    (∃ text, i.text = .ok text) ↔ ∀ operand ∈ i.operands, operand.Writable := by
  constructor
  · rintro ⟨text, htext⟩ operand hoperand
    rw [Instruction.text, bind_eq_ok_iff] at htext
    obtain ⟨words, hwords, -⟩ := htext
    obtain ⟨word, -, hword⟩ := exists_result_of_mem hwords hoperand
    exact Operand.exists_text_iff.1 ⟨word, hword⟩
  · intro h
    obtain ⟨words, hwords⟩ := exists_mapM_eq_ok fun operand hoperand =>
      Operand.exists_text_iff.2 (h operand hoperand)
    exact ⟨_, bind_eq_ok_iff.2 ⟨words, hwords, rfl⟩⟩

/-- An integer of an instruction that is too long to be written. -/
def Instruction.Overlong (i : Instruction) : Prop :=
  ∃ n spelling, .literal (.int n) spelling ∈ i.operands ∧ 10 ^ Decimal.maxDigits ≤ n.natAbs

theorem Operand.text_eq_error {operand : Operand} {fault : Decimal.Fault}
    (h : operand.text = .error fault) :
    fault = .writing ∧
      ∃ n, operand = .literal (.int n) none ∧ 10 ^ Decimal.maxDigits ≤ n.natAbs := by
  match operand with
  | .literal (.int n) none =>
    obtain ⟨rfl, hn⟩ := Decimal.ofInt_eq_error h
    exact ⟨rfl, n, rfl, hn⟩
  | .literal (.float _) none => cases h
  | .literal _ (some _) => cases h
  | .id _ => cases h
  | .enumerant _ => cases h
  | .string _ => cases h

theorem Instruction.text_eq_error {i : Instruction} {fault : Decimal.Fault}
    (h : i.text = .error fault) : fault = .writing ∧ i.Overlong := by
  rw [Instruction.text, bind_eq_error_iff] at h
  obtain h | ⟨words, -, ⟨⟩⟩ := h
  obtain ⟨before, operand, after, hsplit, -, hoperand⟩ := mapM_eq_error_iff.1 h
  obtain ⟨rfl, n, rfl, hn⟩ := Operand.text_eq_error hoperand
  exact ⟨rfl, n, none, hsplit ▸ List.mem_append_right _ List.mem_cons_self, hn⟩

end ShiftBarrier
