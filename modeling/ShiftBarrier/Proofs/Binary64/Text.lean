import ShiftBarrier.Proofs.Binary64.Shortest
import ShiftBarrier.Proofs.Listing.Line

/-!
# Reading the text of a number again

A floating-point number without a spelling of its own is written in its shortest decimal digits.
Unless it is an infinity or a NaN, that text is a numeral, and it is read as the same number.

* `Numeral.Spells` says what an unsigned decimal numeral is worth; `Numeral.Spells.float_eq` and
  `Numeral.Spells.reads` say that it is read so.
* `Binary64.spells_layOut`: however digits are laid out, they are a numeral of their value.
* `Binary64.reads_text` and `Binary64.float_text` are the results.
-/

set_option autoImplicit false

namespace ShiftBarrier

/-! ## Decimal numerals

Texts of numbers are compared by the value of their digits and the power of ten, whichever way they
are laid out. -/

namespace Numeral

open Scanner

/-- A run of decimal digits. -/
def AllDigits (cs : List Char) : Prop := ∀ c ∈ cs, c.isDigit = true

theorem ne_of_isDigit {c d : Char} (hc : c.isDigit = true) (hd : d.isDigit = false) : c ≠ d := by
  rintro rfl
  rw [hc] at hd
  cases hd

theorem natOfDecimal_append_zeros (cs : List Char) (n : Nat) :
    natOfDecimal (cs ++ List.replicate n '0') = natOfDecimal cs * 10 ^ n := by
  rw [natOfDecimal, Nat.ofDigitChars_append, Nat.ofDigitChars_replicate_zero, Nat.mul_comm]
  rfl

theorem natOfDecimal_zeros_append (n : Nat) (cs : List Char) :
    natOfDecimal (List.replicate n '0' ++ cs) = natOfDecimal cs := by
  rw [natOfDecimal, Nat.ofDigitChars_append, Nat.ofDigitChars_replicate_zero, Nat.mul_zero]
  rfl

/-- What may follow the digits of a numeral: nothing, or an exponent. -/
inductive Tail : List Char → Int → Prop
  | empty : Tail [] 0
  | marked {negative : Bool} {digits : List Char} (hne : digits ≠ []) (hdigits : AllDigits digits) :
      Tail ('e' :: (if negative then '-' else '+') :: digits)
        (signed negative (natOfDecimal digits))

/-- The unsigned numeral is worth `n * 10 ^ e`.  It has a point or an exponent. -/
inductive Spells : List Char → Nat → Int → Prop
  | point {whole decimals tail : List Char} {e : Int} (hne : whole ≠ []) (hwhole : AllDigits whole)
      (hdecimals : AllDigits decimals) (htail : Tail tail e) :
      Spells (whole ++ '.' :: (decimals ++ tail)) (natOfDecimal (whole ++ decimals))
        (e - decimals.length)
  | bare {whole tail : List Char} {e : Int} (hne : whole ≠ []) (hwhole : AllDigits whole)
      (htail : Tail tail e) (hmarked : tail ≠ []) :
      Spells (whole ++ tail) (natOfDecimal whole) e

variable {cs tail : List Char} {n : Nat} {e : Int}

/-! ### What is read -/

theorem Tail.exponent_eq (h : Tail tail e) : exponent tail = e := by
  cases h with
  | empty => rfl
  | @marked negative digits => cases negative <;> rfl

theorem Tail.head? (h : Tail tail e) : ∀ c ∈ tail.head?, c = 'e' := by
  cases h with
  | empty => exact fun c hc => absurd hc (Option.not_mem_none c)
  | marked => exact fun c hc => (Option.some.inj hc).symm

/-- What follows the digits starts with the mark of an exponent. -/
theorem Tail.marked_head (h : Tail tail e) :
    ∀ c ∈ tail.head?, (c == 'e' || c == 'E') = true := by
  intro c hc
  rw [h.head? c hc]
  decide

theorem span_append {p : Char → Bool} {l r : List Char} (hl : ∀ c ∈ l, p c = true)
    (hr : ∀ c ∈ r.head?, p c = false) :
    (l ++ r).takeWhile p = l ∧ (l ++ r).dropWhile p = r := by
  have hmany := many_append hl hr
  rwa [many, Option.some.injEq, Prod.mk.injEq] at hmany

theorem parts_append {isMark : Char → Bool} {mantissa : List Char}
    (hmantissa : ∀ c ∈ mantissa, isMark c = false) (htail : ∀ c ∈ tail.head?, isMark c = true) :
    parts isMark (mantissa ++ tail) = (mantissa.takeWhile (· != '.'),
      (mantissa.dropWhile (· != '.')).drop 1, tail) := by
  obtain ⟨htake, hdrop⟩ := span_append (p := fun c => !isMark c) (l := mantissa) (r := tail)
    (fun c hc => by rw [hmantissa c hc]; rfl) (fun c hc => by rw [htail c hc]; rfl)
  rw [parts, htake, hdrop]

/-- A text with its sign. -/
def withSign (negative : Bool) (cs : List Char) : List Char :=
  (if negative then ['-'] else []) ++ cs

theorem Spells.exists_digit (h : Spells cs n e) :
    ∃ c rest, cs = c :: rest ∧ c.isDigit = true := by
  cases h with
  | point hne hwhole | bare hne hwhole =>
    obtain ⟨c, rest, rfl⟩ := List.exists_cons_of_ne_nil hne
    exact ⟨c, _, rfl, hwhole c List.mem_cons_self⟩

theorem Spells.splitSign_eq (h : Spells cs n e) (negative : Bool) :
    splitSign (withSign negative cs) = (negative, cs) := by
  cases negative with
  | true => rfl
  | false =>
    obtain ⟨c, rest, rfl, hc⟩ := h.exists_digit
    show splitSign (c :: rest) = _
    rw [splitSign.eq_def]
    split
    · next hcons => exact absurd (List.cons.inj hcons).1 (ne_of_isDigit hc (by decide))
    · next hcons => exact absurd (List.cons.inj hcons).1 (ne_of_isDigit hc (by decide))
    · rfl

theorem Spells.parts_eq (h : Spells cs n e) : ∃ whole decimals tail,
    parts (fun c => c == 'e' || c == 'E') cs = (whole, decimals, tail) ∧
      n = natOfDecimal (whole ++ decimals) ∧ e = exponent tail - decimals.length := by
  have hdigit : ∀ c : Char, c.isDigit = true → (c == 'e' || c == 'E') = false ∧
      (c != '.') = true := by
    intro c hc
    have he := ne_of_isDigit hc (d := 'e') (by decide)
    have hE := ne_of_isDigit hc (d := 'E') (by decide)
    have hpoint := ne_of_isDigit hc (d := '.') (by decide)
    simp [he, hE, hpoint]
  cases h with
  | @point whole decimals tail e hne hwhole hdecimals htail =>
    refine ⟨whole, decimals, tail, ?_, rfl, by rw [htail.exponent_eq]⟩
    have hmarks : ∀ c ∈ whole ++ '.' :: decimals, (c == 'e' || c == 'E') = false := by
      intro c hc
      rcases List.mem_append.1 hc with hc | hc
      · exact (hdigit c (hwhole c hc)).1
      · rcases List.mem_cons.1 hc with rfl | hc
        · decide
        · exact (hdigit c (hdecimals c hc)).1
    obtain ⟨htake, hdrop⟩ := span_append (p := (· != '.')) (l := whole) (r := '.' :: decimals)
      (fun c hc => (hdigit c (hwhole c hc)).2) (fun c hc => by rw [← Option.some.inj hc]; decide)
    have hsplit : whole ++ '.' :: (decimals ++ tail) = (whole ++ '.' :: decimals) ++ tail := by
      rw [List.append_assoc, List.cons_append]
    rw [hsplit, parts_append hmarks htail.marked_head, htake, hdrop]
    rfl
  | @bare whole tail e hne hwhole htail hmarked =>
    refine ⟨whole, [], tail, ?_, by rw [List.append_nil], ?_⟩
    · obtain ⟨htake, hdrop⟩ := span_append (p := (· != '.')) (l := whole) (r := [])
        (fun c hc => (hdigit c (hwhole c hc)).2) (fun c hc => absurd hc (Option.not_mem_none c))
      rw [List.append_nil] at htake hdrop
      rw [parts_append (fun c hc => (hdigit c (hwhole c hc)).1) htail.marked_head, htake, hdrop]
      rfl
    · rw [htail.exponent_eq]
      exact (Int.sub_zero _).symm

/-- **A numeral is read as the number nearest to its value.** -/
theorem Spells.float_eq (h : Spells cs n e) (negative : Bool) :
    float (withSign negative cs) = Binary64.ofDecimal negative n e := by
  obtain ⟨whole, decimals, tail, hparts, hn, he⟩ := h.parts_eq
  rw [float, h.splitSign_eq]
  dsimp only
  rw [hparts, hn, he]

/-! ### What is scanned -/

theorem Tail.scan (h : Tail tail e) (hmarked : tail ≠ []) :
    decimalExponent tail = some (tail, []) := by
  cases h with
  | empty => exact absurd rfl hmarked
  | @marked negative digits hne hdigits =>
    have hscan : Scanner.digits digits = some (digits, []) := by
      have hrun := many1_append (r := []) hne hdigits
        (fun c hc => absurd hc (Option.not_mem_none c))
      rwa [List.append_nil] at hrun
    have hsign : Scanner.sign ((if negative then '-' else '+') :: digits)
        = some ([if negative then '-' else '+'], digits) := by
      cases negative <;> rfl
    rw [decimalExponent, Scanner.exponent, andThen_of_eq_some (one_of_pos (by decide)),
      andThen_of_eq_some hsign, hscan]
    rfl

theorem Spells.scan (h : Spells cs n e) : (digits.andThen fraction) cs = some (cs, []) := by
  cases h with
  | @point whole decimals tail e hne hwhole hdecimals htail =>
    have hfirst : digits (whole ++ '.' :: (decimals ++ tail))
        = some (whole, '.' :: (decimals ++ tail)) :=
      many1_append hne hwhole fun c hc => by rw [← Option.some.inj hc]; decide
    have hsecond : many Char.isDigit (decimals ++ tail) = some (decimals, tail) :=
      many_append hdecimals fun c hc => by rw [htail.head? c hc]; decide
    have hthird : optional decimalExponent tail = some (tail, []) := by
      by_cases hempty : tail = []
      · rw [hempty]
        rfl
      · exact optional_of_eq_some (htail.scan hempty)
    have hpoint : (char '.').andThen ((many Char.isDigit).andThen (optional decimalExponent))
        ('.' :: (decimals ++ tail)) = some ('.' :: (decimals ++ tail), []) := by
      rw [andThen_of_eq_some (char_self '.' _), andThen_of_eq_some hsecond, hthird]
      rfl
    rw [andThen_of_eq_some hfirst, fraction, orElse, hpoint]
    rfl
  | @bare whole tail e hne hwhole htail hmarked =>
    have hfirst : digits (whole ++ tail) = some (whole, tail) :=
      many1_append hne hwhole fun c hc => by rw [htail.head? c hc]; decide
    obtain ⟨c, rest, htailEq⟩ := List.exists_cons_of_ne_nil hmarked
    have hc : c = 'e' := htail.head? c (by rw [htailEq]; rfl)
    have hpoint : (char '.').andThen ((many Char.isDigit).andThen (optional decimalExponent))
        tail = none := by
      rw [htailEq, hc]
      exact andThen_of_eq_none (char_of_ne (by decide) rest) _
    rw [andThen_of_eq_some hfirst, fraction, orElse, hpoint, Option.none_or, htail.scan hmarked]
    rfl

/-- **A numeral is one token.** -/
theorem Spells.reads (h : Spells cs n e) (negative : Bool) :
    TokenKind.float.Reads (withSign negative cs) := by
  have hminus : minus (withSign negative cs) = some (withSign negative [], cs) := by
    cases negative with
    | true => exact optional_of_eq_some (char_self '-' cs)
    | false =>
      obtain ⟨c, rest, rfl, hc⟩ := h.exists_digit
      exact optional_of_eq_none (char_of_ne (ne_of_isDigit hc (by decide)) rest)
  refine TokenKind.reads_float (r := []) ?_
  rw [List.append_nil, scan_float, andThen_assoc, andThen_of_eq_some hminus, h.scan]
  cases negative <;> rfl

/-! ### Digits laid out -/

theorem allDigits_zeros (n : Nat) : AllDigits (List.replicate n '0') := by
  intro c hc
  rw [List.eq_of_mem_replicate hc]
  decide

theorem allDigits_toDigits (n : Nat) : AllDigits (Nat.toDigits 10 n) :=
  fun _ hc => Decimal.isDigit_of_mem hc

theorem AllDigits.append {as bs : List Char} (has : AllDigits as) (hbs : AllDigits bs) :
    AllDigits (as ++ bs) := List.forall_mem_append.2 ⟨has, hbs⟩

theorem natOfDecimal_toDigits (n : Nat) : natOfDecimal (Nat.toDigits 10 n) = n :=
  Nat.ofDigitChars_ten_toDigits

/-- An exponent is written with its sign and two digits at least. -/
theorem tail_exponent (e : Int) : Tail ('e' :: (if e < 0 then '-' else '+') ::
    (if (toString e.natAbs).length < 2 then "0" ++ toString e.natAbs
      else toString e.natAbs).toList) e := by
  have hsize : (toString e.natAbs).toList = Nat.toDigits 10 e.natAbs := by
    rw [Nat.toString_eq_ofList_toDigits, String.toList_ofList]
  have hpadded : ∃ zeros, (if (toString e.natAbs).length < 2 then "0" ++ toString e.natAbs
      else toString e.natAbs).toList = List.replicate zeros '0' ++ Nat.toDigits 10 e.natAbs := by
    split
    · exact ⟨1, by rw [String.toList_append, hsize]; rfl⟩
    · exact ⟨0, by rw [hsize]; rfl⟩
  obtain ⟨zeros, hzeros⟩ := hpadded
  have htail := @Tail.marked (decide (e < 0))
    (List.replicate zeros '0' ++ Nat.toDigits 10 e.natAbs)
    (List.append_ne_nil_of_right_ne_nil _ Nat.toDigits_ne_nil)
    ((allDigits_zeros zeros).append (allDigits_toDigits _))
  have hvalue : signed (decide (e < 0)) e.natAbs = e := by
    by_cases hneg : e < 0
    · rw [decide_eq_true hneg, signed, if_pos rfl]
      omega
    · rw [decide_eq_false hneg, signed, if_neg Bool.false_ne_true]
      omega
  rw [natOfDecimal_zeros_append, natOfDecimal_toDigits, hvalue] at htail
  rw [hzeros]
  simpa using htail

theorem Spells.congr {cs' : List Char} {n' : Nat} {e' : Int} (h : Spells cs n e) (hcs : cs' = cs)
    (hn : n' = n) (he : e' = e) : Spells cs' n' e' := by
  subst hcs hn he
  exact h

section

variable {digits : List Char} (hne : digits ≠ []) (hdigits : AllDigits digits)
include hdigits

theorem spells_small (zeros : Nat) :
    Spells ('0' :: '.' :: (List.replicate zeros '0' ++ digits)) (natOfDecimal digits)
      (-zeros - digits.length) := by
  have h := Spells.point (List.cons_ne_nil '0' []) (allDigits_zeros 1)
    ((allDigits_zeros zeros).append hdigits) .empty
  refine h.congr ?_ ?_ ?_
  · rw [List.append_nil]
    rfl
  · rw [← List.append_assoc]
    exact (natOfDecimal_zeros_append (zeros + 1) digits).symm
  · rw [List.length_append, List.length_replicate]
    push_cast
    omega

include hne

/-- Digits that end before the point are filled up with zeros, and one follows it. -/
theorem spells_whole (padding : Nat) :
    Spells (digits ++ List.replicate padding '0' ++ ['.', '0'])
      (natOfDecimal digits * 10 ^ (padding + 1)) (-1) := by
  have h := Spells.point (List.append_ne_nil_of_left_ne_nil hne _)
    (hdigits.append (allDigits_zeros padding)) (allDigits_zeros 1) .empty
  refine h.congr rfl ?_ rfl
  rw [← natOfDecimal_append_zeros, List.append_assoc, List.replicate_append_replicate]

/-- A point may stand between any two digits. -/
theorem spells_split {whole : Nat} {tail : List Char} {e : Int} (hwhole : 0 < whole)
    (hlength : whole ≤ digits.length) (htail : Tail tail e) :
    Spells (digits.take whole ++ '.' :: (digits.drop whole ++ tail)) (natOfDecimal digits)
      (e + whole - digits.length) := by
  have htake : digits.take whole ≠ [] := by
    rw [Ne, List.take_eq_nil_iff, not_or]
    exact ⟨Nat.ne_of_gt hwhole, hne⟩
  have h := Spells.point htake (fun c hc => hdigits c (List.mem_of_mem_take hc))
    (fun c (hc : c ∈ digits.drop whole) => hdigits c (List.mem_of_mem_drop hc)) htail
  refine h.congr rfl ?_ ?_
  · rw [List.take_append_drop]
  · rw [List.length_drop]
    omega

/-- A single digit needs no point if an exponent follows. -/
theorem spells_scientific {tail : List Char} {e : Int} (htail : Tail tail e)
    (hmarked : tail ≠ []) :
    Spells (digits.take 1 ++ (if digits.length ≤ 1 then [] else '.' :: digits.drop 1) ++ tail)
      (natOfDecimal digits) (e + 1 - digits.length) := by
  have hpos := List.length_pos_iff.2 hne
  split
  · next hlength =>
    rw [List.take_of_length_le hlength, List.append_nil]
    refine (Spells.bare hne hdigits htail hmarked).congr rfl rfl ?_
    omega
  · refine (spells_split hne hdigits Nat.one_pos hpos htail).congr ?_ rfl rfl
    rw [List.append_assoc, List.cons_append]

/-- **However digits are laid out, they are a numeral of their value.** -/
theorem spells_layOut (point : Int) : ∃ zeros : Nat, Spells (Binary64.layOut digits point).toList
    (natOfDecimal digits * 10 ^ zeros) (point - digits.length - zeros) := by
  rw [Binary64.layOut]
  split
  · split
    · next hpoint =>
      -- the point is before all digits
      refine ⟨0, (spells_small hdigits (-point).toNat).congr ?_ ?_ ?_⟩
      · rw [String.toList_append, String.toList_ofList, String.toList_ofList]
        rfl
      · rw [Nat.pow_zero, Nat.mul_one]
      · omega
    · next hpoint =>
      dsimp only
      rw [String.toList_append, String.toList_append, String.toList_ofList]
      rcases Nat.lt_or_ge point.toNat digits.length with hlt | hge
      · -- the point is between two digits
        refine ⟨0, (spells_split hne hdigits (by omega) (Nat.le_of_lt hlt) .empty).congr ?_ ?_ ?_⟩
        · have hdrop : (digits.drop point.toNat).isEmpty = false := by
            rw [List.isEmpty_eq_false_iff, Ne, List.drop_eq_nil_iff]
            omega
          rw [hdrop, Nat.sub_eq_zero_of_le (Nat.le_of_lt hlt), if_neg Bool.false_ne_true,
            String.toList_ofList, List.append_nil]
          simp
        · rw [Nat.pow_zero, Nat.mul_one]
        · omega
      · -- the point is behind all digits, and zeros fill the gap
        refine ⟨_, (spells_whole hne hdigits (point.toNat - digits.length)).congr ?_ rfl ?_⟩
        · have hdrop : (digits.drop point.toNat).isEmpty = true := by
            rw [List.isEmpty_iff, List.drop_eq_nil_iff]
            exact hge
          rw [hdrop, if_pos rfl, List.take_of_length_le hge]
          simp
        · omega
  · dsimp only
    refine ⟨0, (spells_scientific hne hdigits (tail_exponent (point - 1))
      (List.cons_ne_nil _ _)).congr ?_ ?_ ?_⟩
    · have hfraction : (if digits.length ≤ 1 then ""
          else "." ++ String.ofList (digits.drop 1)).toList
            = if digits.length ≤ 1 then [] else '.' :: digits.drop 1 := by
        split
        · rfl
        · rw [String.toList_append, String.toList_ofList, String.toList_ofList]
          rfl
      have hsign : (if point - 1 < 0 then "-" else "+").toList
          = [if point - 1 < 0 then '-' else '+'] := by
        split <;> rfl
      rw [String.toList_append, String.toList_append, String.toList_append, String.toList_append,
        String.toList_ofList, hfraction, hsign, List.append_assoc, List.append_assoc]
      rfl
    · rw [Nat.pow_zero, Nat.mul_one]
    · omega

end

theorem append_trimZeros (digits : List Char) : ∃ n,
    Binary64.trimZeros digits ++ List.replicate n '0' = digits := by
  refine ⟨(digits.reverse.takeWhile (· == '0')).length, ?_⟩
  have hzeros : List.replicate (digits.reverse.takeWhile (· == '0')).length '0'
      = digits.reverse.takeWhile (· == '0') := by
    refine (List.eq_replicate_of_mem fun c hc => ?_).symm
    exact eq_of_beq (List.mem_takeWhile_imp (p := (· == '0')) hc)
  rw [Binary64.trimZeros, ← List.reverse_replicate, hzeros, ← List.reverse_append,
    List.takeWhile_append_dropWhile, List.reverse_reverse]

/-- Zeros at the end of the digits do not count. -/
theorem spells_trimmed {n : Nat} (hn : 0 < n) (e : Int) : ∃ (m : Nat) (e' : Int),
    Spells (Binary64.layOut (Binary64.trimZeros (Nat.toDigits 10 n))
      ((Nat.toDigits 10 n).length + e)).toList m e' ∧ (m * 10 ^ e' : ℚ) = n * 10 ^ e := by
  have hvalue := natOfDecimal_toDigits n
  have hall := allDigits_toDigits n
  obtain ⟨dropped, hdropped⟩ := append_trimZeros (Nat.toDigits 10 n)
  generalize Nat.toDigits 10 n = digits at hvalue hall hdropped ⊢
  generalize Binary64.trimZeros digits = kept at hdropped ⊢
  subst hdropped
  rw [natOfDecimal_append_zeros] at hvalue
  have hne : kept ≠ [] := by
    rintro rfl
    rw [natOfDecimal, Nat.ofDigitChars_nil, Nat.zero_mul] at hvalue
    exact Nat.ne_of_lt hn hvalue
  obtain ⟨zeros, hspells⟩ := spells_layOut hne (fun c hc => hall c (List.mem_append_left _ hc))
    ((kept ++ List.replicate dropped '0').length + e)
  refine ⟨_, _, hspells, ?_⟩
  have hexponent : ((kept ++ List.replicate dropped '0').length + e - kept.length - zeros : Int)
      = dropped + e - zeros := by
    rw [List.length_append, List.length_replicate]
    omega
  rw [hexponent, ← hvalue, zpow_sub₀ (by norm_num), zpow_add₀ (by norm_num), zpow_natCast,
    zpow_natCast]
  push_cast
  field_simp

end Numeral

/-! ## The text of a number -/

namespace Binary64

variable {x : Binary64}

theorem zero_negative (h : x.isZero = true) : zero x.negative = x := by
  rw [isZero, Bool.and_eq_true, beq_iff_eq, beq_iff_eq] at h
  have hfields := ofFields_encoding (x := x) (by omega)
  rwa [Magnitude.encoding, magnitude, if_pos h.1, h.2] at hfields

/-- Finite numbers are written as numerals that are nearest to them. -/
theorem exists_spells (h : x.exponentField ≠ 2047) : ∃ cs n e,
    x.text.toList = ShiftBarrier.Numeral.withSign x.negative cs ∧
      ShiftBarrier.Numeral.Spells cs n e ∧ ofDecimal x.negative n e = x := by
  have hnan : x.isNaN = false := by
    rw [isNaN, beq_false_of_ne h, Bool.false_and]
  have hinfinite : x.isInfinite = false := by
    rw [isInfinite, beq_false_of_ne h, Bool.false_and]
  have hsign : (if x.negative then "-" else "").toList = if x.negative then ['-'] else [] := by
    split <;> rfl
  rw [text, hnan, hinfinite, if_neg Bool.false_ne_true]
  dsimp only
  rw [if_neg Bool.false_ne_true]
  cases hzero : x.isZero with
  | true =>
    have hdigit := ShiftBarrier.Numeral.allDigits_zeros 1
    refine ⟨_, _, _, ?_, .point (List.cons_ne_nil '0' []) hdigit hdigit .empty, ?_⟩
    · rw [if_pos rfl, String.toList_append, hsign]
      rfl
    · exact zero_negative hzero
  | false =>
    have hcanonical := canonical_magnitude h
    have hpos := significand_pos hzero
    have hcontains := hcanonical.contains_shortest hpos
    have hdigits : 0 < x.magnitude.shortest.digits := by
      by_contra hnone
      have hlow := ((Magnitude.near_of_contains hpos hcontains).between hcanonical hpos).1
      rw [Nat.eq_zero_of_not_pos hnone, Nat.cast_zero, zero_mul] at hlow
      exact absurd (ten_zpow_pos (-400)) (not_lt.2 hlow)
    obtain ⟨n, e, hspells, hvalue⟩ :=
      ShiftBarrier.Numeral.spells_trimmed hdigits x.magnitude.shortest.exponent
    rw [← hvalue] at hcontains
    refine ⟨_, n, e, ?_, hspells, ofDecimal_of_contains h hzero hcontains⟩
    rw [if_neg Bool.false_ne_true, String.toList_append, hsign]
    rfl

/-- **The text of a finite number is one token**, wherever an operand may stand. -/
theorem reads_text (h : x.exponentField ≠ 2047) : TokenKind.float.Reads x.text.toList := by
  obtain ⟨cs, n, e, htext, hspells, -⟩ := exists_spells h
  rw [htext]
  exact hspells.reads x.negative

/-- **A finite number is read again as itself**, bit for bit. -/
theorem float_text (h : x.exponentField ≠ 2047) : ShiftBarrier.Numeral.float x.text.toList = x := by
  obtain ⟨cs, n, e, htext, hspells, hx⟩ := exists_spells h
  rw [htext, hspells.float_eq, hx]

end Binary64
end ShiftBarrier
