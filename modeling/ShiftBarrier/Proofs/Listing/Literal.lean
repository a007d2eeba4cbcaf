import Mathlib.Data.List.Chain
import ShiftBarrier.Assembly.Token
import ShiftBarrier.Proofs.Failure
import ShiftBarrier.Text.Literal

/-!
# String literals are read back

* `Literal.Joined` says that no surrogate pair of a string is left in two; what is read from a text
  is so (`Literal.joined_of_decode`).
* `Literal.decode_encode` reads a joined string back from its literal.
* `Literal.stringTail_units` says that a literal is one token, whatever follows it.
-/

set_option autoImplicit false

namespace ShiftBarrier
namespace Literal

/-! ## Surrogate pairs

Strings travel in UTF-16.  A pair that stands in a string as two code points comes back as one, so
strings with such pairs are left out. -/

/-- No high surrogate is followed by a low one: such a pair is one code point. -/
def Joined (s : List CodePoint) : Prop :=
  s.IsChain fun high low : CodePoint => ¬ (isHighSurrogate high ∧ isLowSurrogate low)

theorem joinPair_val {high low : Nat} (hh : isHighSurrogate high = true)
    (hl : isLowSurrogate low = true) :
    (joinPair high low).val = 0x10000 + (high - 0xd800) * 0x400 + (low - 0xdc00) := by
  simp only [isHighSurrogate, isLowSurrogate, Bool.and_eq_true, decide_eq_true_eq] at hh hl
  rw [joinPair, Fin.val_ofNat, Nat.mod_eq_of_lt (by omega)]

/-- A low surrogate at the head was there before joining. -/
theorem head?_joinPairs {units : List CodePoint} {c : CodePoint}
    (hc : c ∈ (joinPairs units).head?) (hlow : isLowSurrogate c = true) : c ∈ units.head? := by
  fun_cases joinPairs units with
  | case1 high low rest hpair =>
    rw [joinPairs, if_pos hpair] at hc
    obtain rfl := Option.some.inj hc
    rw [Bool.and_eq_true] at hpair
    simp only [isLowSurrogate, Bool.and_eq_true, decide_eq_true_eq,
      joinPair_val hpair.1 hpair.2] at hlow
    omega
  | case2 high low rest hpair =>
    rw [joinPairs, if_neg hpair] at hc
    exact hc
  | case3 short hshort =>
    rwa [joinPairs] at hc
    exact hshort

theorem joined_joinPairs (units : List CodePoint) : Joined (joinPairs units) := by
  fun_induction joinPairs units with
  | case1 high low rest hpair ih =>
    rw [Bool.and_eq_true] at hpair
    refine List.isChain_cons.2 ⟨fun c _ hc => ?_, ih⟩
    have hhigh := hc.1
    simp only [isHighSurrogate, Bool.and_eq_true, decide_eq_true_eq,
      joinPair_val hpair.1 hpair.2] at hhigh
    omega
  | case2 high low rest hpair ih =>
    refine List.isChain_cons.2 ⟨fun c hc hboth => hpair ?_, ih⟩
    obtain rfl := Option.some.inj (head?_joinPairs hc hboth.2)
    simp [hboth.1, hboth.2]
  | case3 short hshort =>
    match short with
    | [] => exact List.IsChain.nil
    | [c] => exact List.IsChain.singleton c
    | high :: low :: rest => exact absurd rfl (hshort high low rest)

theorem head?_splitPairs_of_low {s : List CodePoint} {c : CodePoint}
    (hc : c ∈ (splitPairs s).head?) (hlow : isLowSurrogate c = true) : c ∈ s.head? := by
  cases s with
  | nil => exact hc
  | cons d s =>
    rw [splitPairs, List.flatMap_cons, splitPair] at hc
    split at hc
    · exact hc
    · obtain rfl := Option.some.inj hc
      simp only [isLowSurrogate, Bool.and_eq_true, decide_eq_true_eq, Fin.val_ofNat] at hlow
      omega

/-- The two units of a code point beyond the first plane are a surrogate pair that stands for it. -/
theorem joinPair_split {c : CodePoint} (h : 0x10000 ≤ c.val) :
    isHighSurrogate ((0xd800 + (c.val - 0x10000) / 0x400) % 0x110000) = true ∧
      isLowSurrogate ((0xdc00 + (c.val - 0x10000) % 0x400) % 0x110000) = true ∧
      joinPair ((0xd800 + (c.val - 0x10000) / 0x400) % 0x110000)
        ((0xdc00 + (c.val - 0x10000) % 0x400) % 0x110000) = c := by
  have hlt := c.isLt
  have hhigh : isHighSurrogate ((0xd800 + (c.val - 0x10000) / 0x400) % 0x110000) = true := by
    simp only [isHighSurrogate, Bool.and_eq_true, decide_eq_true_eq]
    omega
  have hlow : isLowSurrogate ((0xdc00 + (c.val - 0x10000) % 0x400) % 0x110000) = true := by
    simp only [isLowSurrogate, Bool.and_eq_true, decide_eq_true_eq]
    omega
  refine ⟨hhigh, hlow, Fin.ext ?_⟩
  rw [joinPair_val hhigh hlow]
  omega

/-- **Splitting and joining** surrogate pairs gives a joined string back. -/
theorem joinPairs_splitPairs {s : List CodePoint} (h : Joined s) :
    joinPairs (splitPairs s) = s := by
  induction s with
  | nil => rfl
  | cons c s ih =>
    obtain ⟨hhead, htail⟩ := List.isChain_cons.1 h
    have hrest : joinPairs (splitPairs s) = s := ih htail
    rw [splitPairs, List.flatMap_cons, splitPair, ← splitPairs]
    split
    · cases hsplit : splitPairs s with
      | nil =>
        rw [hsplit] at hrest
        rw [← hrest]
        rfl
      | cons d rest =>
        rw [List.singleton_append, joinPairs, ← hsplit, hrest, if_neg]
        intro hpair
        rw [Bool.and_eq_true] at hpair
        exact hhead d (head?_splitPairs_of_low (by simp [hsplit]) hpair.2) hpair
    · next hc =>
      obtain ⟨hhigh, hlow, hjoin⟩ := joinPair_split (Nat.le_of_not_lt hc)
      rw [List.cons_append, List.singleton_append, joinPairs, hrest, if_pos]
      · rw [Fin.val_ofNat, Fin.val_ofNat, hjoin]
      · rw [Fin.val_ofNat, Fin.val_ofNat, hhigh, hlow]
        rfl

theorem lt_of_mem_splitPairs {s : List CodePoint} {u : CodePoint} (h : u ∈ splitPairs s) :
    u.val < 0x10000 := by
  obtain ⟨c, -, hu⟩ := List.mem_flatMap.1 h
  have hlt := c.isLt
  rw [splitPair] at hu
  split at hu
  · rwa [List.mem_singleton.1 hu]
  · rcases List.mem_cons.1 hu with rfl | hu
    · simp only [Fin.val_ofNat]
      omega
    · rw [List.mem_singleton.1 hu]
      simp only [Fin.val_ofNat]
      omega

/-! ## Escapes -/

theorem hexValue?_digitChar : ∀ n, n < 16 → hexValue? n.digitChar = some n := by
  decide

/-- The four digits of a unit. -/
theorem hexDigits_eq {n : Nat} (h : n < 0x10000) :
    Text.hexDigits 4 n = [(n / 4096).digitChar, (n / 256 % 16).digitChar,
      (n / 16 % 16).digitChar, (n % 16).digitChar] := by
  have hdigits : ∀ k, 16 ≤ k → Nat.toDigits 16 k
      = Nat.toDigits 16 (k / 16) ++ [(k % 16).digitChar] :=
    fun k hk => Nat.toDigits_of_base_le (by omega) hk
  have hzero : ∀ k, k = 0 → '0' = k.digitChar := fun k hk => hk ▸ rfl
  have h256 : n / 16 / 16 = n / 256 := Nat.div_div_eq_div_mul n 16 16
  have h4096 : n / 256 / 16 = n / 4096 := Nat.div_div_eq_div_mul n 256 16
  rw [Text.hexDigits]
  rcases Nat.lt_or_ge n 16 with h1 | h1
  · rw [Nat.toDigits_of_lt_base h1, Nat.mod_eq_of_lt h1, ← hzero (n / 4096) (by omega),
      ← hzero (n / 256 % 16) (by omega), ← hzero (n / 16 % 16) (by omega)]
    rfl
  rcases Nat.lt_or_ge n 256 with h2 | h2
  · rw [hdigits n h1, Nat.toDigits_of_lt_base (by omega), Nat.mod_eq_of_lt (by omega : n / 16 < 16),
      ← hzero (n / 4096) (by omega), ← hzero (n / 256 % 16) (by omega)]
    rfl
  rcases Nat.lt_or_ge n 4096 with h3 | h3
  · rw [hdigits n h1, hdigits (n / 16) (by omega), h256, Nat.toDigits_of_lt_base (by omega),
      Nat.mod_eq_of_lt (by omega : n / 256 < 16), ← hzero (n / 4096) (by omega)]
    rfl
  · rw [hdigits n h1, hdigits (n / 16) (by omega), h256, hdigits (n / 256) (by omega), h4096,
      Nat.toDigits_of_lt_base (by omega)]
    simp

theorem hexUnit?_digits {u : CodePoint} (h : u.val < 0x10000) :
    hexUnit? (u.val / 4096).digitChar (u.val / 256 % 16).digitChar (u.val / 16 % 16).digitChar
      (u.val % 16).digitChar = some u := by
  have hlt := u.isLt
  simp only [hexUnit?, hexValue?_digitChar _ (show u.val / 4096 < 16 by omega),
    hexValue?_digitChar _ (show u.val / 256 % 16 < 16 by omega),
    hexValue?_digitChar _ (show u.val / 16 % 16 < 16 by omega),
    hexValue?_digitChar _ (show u.val % 16 < 16 by omega), Option.pure_def, Option.bind_eq_bind,
    Option.bind_some, Option.some.injEq]
  refine Fin.ext ?_
  rw [Fin.val_ofNat]
  omega

/-- The written forms of a unit: a letter behind a backslash, the character itself, or its code. -/
theorem encodeUnit_cases (u : CodePoint) :
    (∃ letter, encodeUnit u = ['\\', letter] ∧ letter ≠ 'u' ∧ letter ≠ '\n' ∧
      unescape? letter = some u) ∨
    (∃ c : Char, encodeUnit u = [c] ∧ c.toNat = u.val ∧ 0x20 ≤ c.toNat ∧ c ≠ '"' ∧ c ≠ '\\') ∨
    encodeUnit u = '\\' :: 'u' :: Text.hexDigits 4 u := by
  have hlt := u.isLt
  rw [encodeUnit]
  split
  · next letter code hfind =>
    have hcode := List.find?_some hfind
    have hmem := List.mem_of_find?_eq_some hfind
    have hcode : code = u.val := by simpa using hcode
    left
    refine ⟨letter, rfl, ?_⟩
    have hu : u = Fin.ofNat 0x110000 code :=
      Fin.ext (by rw [hcode, Fin.val_ofNat, Nat.mod_eq_of_lt hlt])
    subst hu
    simp only [escapeLetters, List.mem_cons, Prod.mk.injEq, List.not_mem_nil, or_false] at hmem
    rcases hmem with ⟨rfl, rfl⟩ | ⟨rfl, rfl⟩ | ⟨rfl, rfl⟩ | ⟨rfl, rfl⟩ | ⟨rfl, rfl⟩ | ⟨rfl, rfl⟩ |
      ⟨rfl, rfl⟩ <;> decide
  · next hnone =>
    right
    split
    · next hrange =>
      left
      have hchar : (Char.ofNat u.val).toNat = u.val := by
        rw [Char.ofNat, dif_pos (Or.inl (by omega))]
        rfl
      refine ⟨Char.ofNat u.val, rfl, hchar, by omega, ?_, ?_⟩
      · intro heq
        have hval : u.val = 0x22 := by rw [← hchar, heq]; rfl
        rw [hval] at hnone
        simp [escapeLetters] at hnone
      · intro heq
        have hval : u.val = 0x5c := by rw [← hchar, heq]; rfl
        rw [hval] at hnone
        simp [escapeLetters] at hnone
    · exact Or.inr rfl

theorem decodeUnits_encodeUnit {u : CodePoint} (h : u.val < 0x10000) (rest : List Char)
    (position : Nat) : ∃ position',
      decodeUnits (encodeUnit u ++ rest) position = (decodeUnits rest position').map (u :: ·) := by
  rcases encodeUnit_cases u with ⟨letter, heq, hu, -, hletter⟩ | ⟨c, heq, hc, hle, hq, hb⟩ | heq
  · refine ⟨position + 2, ?_⟩
    rw [heq]
    simp [decodeUnits, hletter]
  · refine ⟨position + 1, ?_⟩
    have hcode : (Fin.ofNat 0x110000 c.toNat : CodePoint) = u :=
      Fin.ext (by rw [hc, Fin.val_ofNat, Nat.mod_eq_of_lt u.isLt])
    rw [heq, List.singleton_append, decodeUnits, if_neg (Nat.not_lt.2 hle), hcode]
    -- The character begins no other form.
    all_goals simp [hq, hb]
  · refine ⟨position + 6, ?_⟩
    rw [heq, hexDigits_eq h]
    simp only [List.cons_append, List.nil_append, decodeUnits]
    rw [hexUnit?_digits h]

theorem decodeUnits_units {units : List CodePoint} (h : ∀ u ∈ units, u.val < 0x10000)
    (rest : List Char) (position : Nat) :
    decodeUnits (units.flatMap encodeUnit ++ '"' :: rest) position = .ok units := by
  induction units generalizing position with
  | nil => rfl
  | cons u units ih =>
    obtain ⟨position', hu⟩ := decodeUnits_encodeUnit (h u List.mem_cons_self)
      (units.flatMap encodeUnit ++ '"' :: rest) position
    rw [List.flatMap_cons, List.append_assoc, hu, ih fun v hv => h v (List.mem_cons_of_mem _ hv)]
    rfl

/-- **A literal is read as the string it was written for.** -/
theorem decode_encode {s : List CodePoint} (h : Joined s) : decode (encode s) = .ok s := by
  rw [encode, List.cons_append, decode,
    decodeUnits_units (fun u hu => lt_of_mem_splitPairs hu) [] 1, Except.map,
    joinPairs_splitPairs h]

theorem joined_of_decode {lexeme : List Char} {s : List CodePoint} (h : decode lexeme = .ok s) :
    Joined s := by
  rw [decode.eq_def] at h
  split at h
  · next rest =>
    cases hunits : decodeUnits rest 1 with
    | error e => rw [hunits] at h; cases h
    | ok units =>
      rw [hunits] at h
      cases h
      exact joined_joinPairs units
  · cases h

/-! ## Literals as tokens -/

open Scanner

theorem stringTail_encodeUnit {u : CodePoint} (h : u.val < 0x10000) (rest : List Char) :
    stringTail (encodeUnit u ++ rest)
      = (stringTail rest).map fun (l, r) => (encodeUnit u ++ l, r) := by
  rcases encodeUnit_cases u with ⟨letter, heq, -, hn, -⟩ | ⟨c, heq, -, hle, hq, hb⟩ | heq
  · rw [heq]
    simp [stringTail, hn]
  · have hn : c ≠ '\n' := by
      rintro rfl
      exact absurd hle (by decide)
    rw [heq]
    simp [stringTail, hb, hn]
  · have hhex : ∀ n, n < 16 → n.digitChar ≠ '"' ∧ n.digitChar ≠ '\\' ∧ n.digitChar ≠ '\n' := by
      decide
    obtain ⟨q3, b3, n3⟩ := hhex (u.val / 4096) (by omega)
    obtain ⟨q2, b2, n2⟩ := hhex (u.val / 256 % 16) (by omega)
    obtain ⟨q1, b1, n1⟩ := hhex (u.val / 16 % 16) (by omega)
    obtain ⟨q0, b0, n0⟩ := hhex (u.val % 16) (by omega)
    rw [heq, hexDigits_eq h]
    simp [stringTail, b3, n3, b2, n2, b1, n1, b0, n0, Function.comp_def]

/-- **The token of a literal ends where the literal ends.** -/
theorem stringTail_units {units : List CodePoint} (h : ∀ u ∈ units, u.val < 0x10000)
    (rest : List Char) :
    stringTail (units.flatMap encodeUnit ++ '"' :: rest)
      = some (units.flatMap encodeUnit ++ ['"'], rest) := by
  induction units with
  | nil => rfl
  | cons u units ih =>
    rw [List.flatMap_cons, List.append_assoc, stringTail_encodeUnit (h u List.mem_cons_self),
      ih fun v hv => h v (List.mem_cons_of_mem _ hv), Option.map_some, List.append_assoc]

theorem scan_encode (s : List CodePoint) (rest : List Char) :
    TokenKind.string.scan (encode s ++ rest) = some (encode s, rest) := by
  have htail := stringTail_units (fun u hu => lt_of_mem_splitPairs (s := s) hu) rest
  simp only [encode, List.cons_append, List.append_assoc, TokenKind.scan,
    andThen, char, one, beq_self_eq_true, if_true, htail, Option.map_some, List.nil_append]

end Literal
end ShiftBarrier
