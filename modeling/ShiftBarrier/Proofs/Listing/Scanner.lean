import Mathlib.Data.List.TakeWhile
import ShiftBarrier.Assembly.Token.Lexeme

/-!
# Reading a lexeme again

The tokens of a text stand between blanks, comments and line ends.  A lexeme that was read once is
read again there, whatever stood behind it the first time.

* `Scanner.Starts` is about the first character of a lexeme, `separators` are the characters that
  blanks, comments and line ends start with.
* `Scanner.Regular` says what scanners have in common that know no separator: a separator is the
  same to them as the end of the text, and a text that goes on does not take a match away.  What
  comes first in a sequence has to be `Scanner.Settled`: done when something is left over.
* `Scanner.Regular.cut` and `Scanner.Regular.cut_eq_none` say that such a scanner finds what it
  found when the text goes on with a separator.
* `TokenKind.regular_scan` says so of all kinds of token but strings and line ends, and
  `Scanner.hexInteger_eq_none` tells decimal numbers from hexadecimal ones.
-/

set_option autoImplicit false

namespace ShiftBarrier

/-- The first characters of what may stand between tokens. -/
def separators : List Char := [' ', '\t', ';', '\n', '\r']

/-- What follows a token of a listing. -/
def Separated (text : List Char) : Prop := ∃ c rest, text = c :: rest ∧ (c = ' ' ∨ c = '\n')

theorem separated_blank (rest : List Char) : Separated (' ' :: rest) := ⟨' ', rest, rfl, .inl rfl⟩

theorem separated_newline (rest : List Char) : Separated ('\n' :: rest) :=
  ⟨'\n', rest, rfl, .inr rfl⟩

namespace Scanner

/-! ## First characters -/

/-- A lexeme starts with a character of the class `p`. -/
def Starts (p : Char → Bool) (s : Scanner) : Prop :=
  ∀ cs, s cs ≠ none → ∃ c rest, cs = c :: rest ∧ p c = true

variable {p q : Char → Bool} {s t : Scanner} {l r cs : List Char}

theorem Starts.eq_none (h : s.Starts p) {c : Char} (hc : p c = false) (rest : List Char) :
    s (c :: rest) = none := by
  by_contra hne
  obtain ⟨c', rest', heq, hp⟩ := h _ hne
  obtain rfl := (List.cons.inj heq).1
  rw [hc] at hp
  exact Bool.false_ne_true hp

theorem Starts.eq_none_of_separated (h : s.Starts p) (hblank : p ' ' = false)
    (hnewline : p '\n' = false) (hcs : Separated cs) : s cs = none := by
  obtain ⟨c, rest, rfl, rfl | rfl⟩ := hcs
  · exact h.eq_none hblank rest
  · exact h.eq_none hnewline rest

theorem one_of_pos {c : Char} (hc : p c = true) : one p (c :: cs) = some ([c], cs) := if_pos hc

theorem one_of_neg {c : Char} (hc : ¬ p c = true) : one p (c :: cs) = none := if_neg hc

theorem char_self (c : Char) (cs : List Char) : char c (c :: cs) = some ([c], cs) :=
  one_of_pos (beq_self_eq_true c)

theorem char_of_ne {c d : Char} (h : d ≠ c) (cs : List Char) : char c (d :: cs) = none :=
  one_of_neg (by simpa using h)

theorem starts_one (p : Char → Bool) : (one p).Starts p := by
  intro cs h
  match cs with
  | [] => exact absurd rfl h
  | c :: rest =>
    refine ⟨c, rest, rfl, ?_⟩
    by_contra hc
    exact h (one_of_neg hc)

theorem Starts.andThen_left (h : s.Starts p) (t : Scanner) : (s.andThen t).Starts p := by
  intro cs hne
  refine h cs fun hnone => hne ?_
  rw [andThen, hnone]

theorem Starts.orElse (hs : s.Starts p) (ht : t.Starts q) :
    (s.orElse t).Starts fun c => p c || q c := by
  intro cs hne
  rw [Scanner.orElse] at hne
  by_cases h : s cs = none
  · rw [h, Option.none_or] at hne
    obtain ⟨c, rest, rfl, hc⟩ := ht cs hne
    exact ⟨c, rest, rfl, by simp [hc]⟩
  · obtain ⟨c, rest, rfl, hc⟩ := hs cs h
    exact ⟨c, rest, rfl, by simp [hc]⟩

theorem Starts.mono (h : s.Starts p) (hpq : ∀ c, p c = true → q c = true) : s.Starts q := by
  intro cs hne
  obtain ⟨c, rest, rfl, hc⟩ := h cs hne
  exact ⟨c, rest, rfl, hpq c hc⟩

theorem starts_many1 (p : Char → Bool) : (many1 p).Starts p := (starts_one p).andThen_left _

theorem starts_exponent (isMark : Char → Bool) : (exponent isMark).Starts isMark :=
  (starts_one isMark).andThen_left _

theorem andThen_of_eq_some (h : s cs = some (l, r)) :
    s.andThen t cs = (t r).map fun (l', r') => (l ++ l', r') := by
  rw [andThen, h]

theorem andThen_of_eq_none (h : s cs = none) (t : Scanner) : s.andThen t cs = none := by
  rw [andThen, h]

/-! ## Runs of characters -/

theorem many_append (hl : ∀ c ∈ l, p c = true) (hr : ∀ c ∈ r.head?, p c = false) :
    many p (l ++ r) = some (l, r) := by
  rw [many, List.takeWhile_append_of_pos hl, List.dropWhile_append_of_pos hl]
  cases r with
  | nil => simp
  | cons c r => simp [hr c rfl]

theorem many1_append (hne : l ≠ []) (hl : ∀ c ∈ l, p c = true)
    (hr : ∀ c ∈ r.head?, p c = false) : many1 p (l ++ r) = some (l, r) := by
  obtain ⟨c, l, rfl⟩ := List.exists_cons_of_ne_nil hne
  obtain ⟨hc, hl⟩ := List.forall_mem_cons.1 hl
  rw [many1, List.cons_append, andThen_of_eq_some (one_of_pos hc), many_append hl hr]
  rfl

theorem many_eq_some (h : many p cs = some (l, r)) :
    cs = l ++ r ∧ (∀ c ∈ l, p c = true) ∧ ∀ c ∈ r.head?, p c = false := by
  refine ⟨splits_many p _ _ _ h, ?_⟩
  simp only [many, Option.some.injEq, Prod.mk.injEq] at h
  refine ⟨fun c hc => ?_, fun c hc => ?_⟩
  · rw [← h.1] at hc
    exact List.mem_takeWhile_imp hc
  · rw [← h.2] at hc
    have hhead := List.head?_dropWhile_not p cs
    rw [Option.mem_def.1 hc] at hhead
    simpa using hhead

theorem one_eq_some (h : one p cs = some (l, r)) : ∃ c, l = [c] ∧ cs = c :: r ∧ p c = true := by
  match cs with
  | [] => cases h
  | c :: cs =>
    by_cases hc : p c = true
    · rw [one_of_pos hc] at h
      cases h
      exact ⟨c, rfl, rfl, hc⟩
    · rw [one_of_neg hc] at h
      cases h

theorem many1_eq_some (h : many1 p cs = some (l, r)) :
    cs = l ++ r ∧ l ≠ [] ∧ ∀ c ∈ l, p c = true := by
  obtain ⟨l₁, l', r₁, h₁, h₂, rfl⟩ := andThen_eq_some h
  obtain ⟨c, rfl, rfl, hc⟩ := one_eq_some h₁
  obtain ⟨rfl, hl', -⟩ := many_eq_some h₂
  exact ⟨rfl, List.cons_ne_nil _ _, List.forall_mem_cons.2 ⟨hc, hl'⟩⟩

/-! ## Scanners in sequence -/

theorem andThen_assoc (s t u : Scanner) :
    (s.andThen t).andThen u = s.andThen (t.andThen u) := by
  funext cs
  cases hs : s cs with
  | none => simp [andThen, hs]
  | some first =>
    obtain ⟨l, r⟩ := first
    rw [andThen_of_eq_some hs]
    cases ht : t r with
    | none => simp [andThen, hs, ht]
    | some second =>
      obtain ⟨l', r'⟩ := second
      rw [andThen_of_eq_some ht]
      rw [andThen_of_eq_some (l := l ++ l') (r := r') (by rw [andThen_of_eq_some hs, ht]; rfl)]
      simp [Function.comp_def]

/-- An optional part either is there or fails at the front. -/
theorem optional_cases (h : optional s cs = some (l, r)) :
    s cs = some (l, r) ∨ (s cs = none ∧ l = [] ∧ r = cs) := by
  rw [optional, Scanner.orElse] at h
  cases hs : s cs with
  | none =>
    rw [hs, Option.none_or] at h
    cases h
    exact Or.inr ⟨rfl, rfl, rfl⟩
  | some first =>
    rw [hs, Option.some_or] at h
    exact Or.inl h

theorem optional_of_eq_some (h : s cs = some (l, r)) : optional s cs = some (l, r) := by
  rw [optional, Scanner.orElse, h, Option.some_or]

theorem optional_of_eq_none (h : s cs = none) : optional s cs = some ([], cs) := by
  rw [optional, Scanner.orElse, h, Option.none_or]

theorem starts_optional_andThen (hs : s.Starts p) (ht : t.Starts q) :
    ((optional s).andThen t).Starts fun c => p c || q c := by
  intro cs hne
  by_cases h : s cs = none
  · rw [andThen_of_eq_some (optional_of_eq_none h)] at hne
    obtain ⟨c, rest, rfl, hc⟩ := ht cs fun hnone => hne (by rw [hnone]; rfl)
    exact ⟨c, rest, rfl, by simp [hc]⟩
  · obtain ⟨c, rest, rfl, hc⟩ := hs cs h
    exact ⟨c, rest, rfl, by simp [hc]⟩

theorem starts_minus_andThen (hs : s.Starts p) :
    (minus.andThen s).Starts fun c => c == '-' || p c :=
  starts_optional_andThen (starts_one _) hs

/-! ## Scanners that know no separator

A token goes on up to a separator at most, strings and line ends apart.  That is shown of the parts
of scanners and then put together. -/

section Regular

variable {x v w : List Char} {c : Char}

/-- A scanner that reads up to the first separator at most. -/
structure Regular (s : Scanner) : Prop where
  splits : s.Splits
  /-- A separator is the same as the end of the text. -/
  bounded : ∀ x, ∀ c ∈ separators, ∀ w,
    s (x ++ c :: w) = (s x).map fun (l, r) => (l, r ++ c :: w)
  /-- What is read does not depend on the text behind what is left over. -/
  truncates : ∀ x v l r, s (x ++ v) = some (l, r ++ v) → s x = some (l, r)
  /-- There is a match in a longer text, though it may be a longer one. -/
  grows : ∀ x v, s x ≠ none → s (x ++ v) ≠ none

/-- A scanner that has made up its mind when something is left over. -/
def Settled (s : Scanner) : Prop :=
  ∀ x v l r, s x = some (l, r) → r ≠ [] → s (x ++ v) = some (l, r ++ v)

/-- A scanner that fails because of the first character only. -/
def Decided (s : Scanner) : Prop := ∀ c cs cs', s (c :: cs) = none → s (c :: cs') = none

/-- A class of characters without separators. -/
def Inner (p : Char → Bool) : Prop := ∀ c ∈ separators, p c = false

instance (p : Char → Bool) : Decidable (Inner p) :=
  List.decidableBAll (fun c => p c = false) separators

theorem regular_one (hp : Inner p) : (one p).Regular where
  splits := splits_one p
  bounded x c hc w := by
    cases x with
    | nil => exact one_of_neg (by simp [hp c hc])
    | cons d x => by_cases hd : p d = true <;> simp [one, hd]
  truncates x v l r h := by
    obtain ⟨d, rfl, hsplit, hd⟩ := one_eq_some h
    obtain rfl : x = d :: r := List.append_cancel_right (hsplit.trans (List.cons_append).symm)
    exact one_of_pos hd
  grows x v h := by
    obtain ⟨d, rest, rfl, hd⟩ := starts_one p x h
    rw [List.cons_append, one_of_pos hd]
    exact Option.some_ne_none _

theorem regular_many (hp : Inner p) : (many p).Regular where
  splits := splits_many p
  bounded x c hc w := by
    have hstop : ∀ d ∈ (x.dropWhile p ++ c :: w).head?, p d = false := by
      have hhead := List.head?_dropWhile_not p x
      cases hdrop : x.dropWhile p with
      | nil => simpa using hp c hc
      | cons d rest => simpa [hdrop] using hhead
    have hrun := many_append (fun d hd => List.mem_takeWhile_imp (l := x) hd) hstop
    rwa [← List.append_assoc, List.takeWhile_append_dropWhile] at hrun
  truncates x v l r h := by
    obtain ⟨hsplit, hl, hr⟩ := many_eq_some h
    obtain rfl : x = l ++ r :=
      List.append_cancel_right (hsplit.trans (List.append_assoc _ _ _).symm)
    refine many_append hl fun d hd => hr d ?_
    rw [Option.mem_def] at hd
    rw [List.head?_append, hd]
    rfl
  grows x v _ := Option.some_ne_none _

theorem settled_one (p : Char → Bool) : (one p).Settled := by
  intro x v l r h _
  obtain ⟨d, rfl, rfl, hd⟩ := one_eq_some h
  exact one_of_pos hd

theorem settled_many (p : Char → Bool) : (many p).Settled := by
  intro x v l r h hne
  obtain ⟨rfl, hl, hr⟩ := many_eq_some h
  obtain ⟨d, r, rfl⟩ := List.exists_cons_of_ne_nil hne
  rw [List.append_assoc]
  exact many_append hl hr

theorem decided_one (p : Char → Bool) : (one p).Decided := by
  intro c cs cs' h
  by_cases hc : p c = true
  · rw [one_of_pos hc] at h
    cases h
  · exact one_of_neg hc

/-! ## Putting scanners together -/

theorem Settled.andThen (hs : s.Settled) (ht : t.Settled) (ht' : t.Splits) :
    (s.andThen t).Settled := by
  intro x v l r h hne
  obtain ⟨l₁, l₂, r₁, h₁, h₂, rfl⟩ := andThen_eq_some h
  have hne₁ : r₁ ≠ [] := by
    rw [ht' _ _ _ h₂]
    exact List.append_ne_nil_of_right_ne_nil _ hne
  rw [andThen_of_eq_some (hs _ v _ _ h₁ hne₁), ht _ v _ _ h₂ hne]
  rfl

theorem Settled.optional (hs : s.Settled) (hdecided : s.Decided) :
    (Scanner.optional s).Settled := by
  intro x v l r h hne
  rcases optional_cases h with h | ⟨hnone, rfl, rfl⟩
  · exact optional_of_eq_some (hs x v l r h hne)
  · obtain ⟨c, r, rfl⟩ := List.exists_cons_of_ne_nil hne
    exact optional_of_eq_none (hdecided c r (r ++ v) hnone)

theorem Settled.orElse (hs : s.Settled) (ht : t.Settled) (ht' : t.Splits) (hdecided : s.Decided) :
    (s.orElse t).Settled := by
  intro x v l r h hne
  rw [Scanner.orElse] at h ⊢
  cases hs' : s x with
  | none =>
    rw [hs', Option.none_or] at h
    obtain ⟨c, cs, hx⟩ : ∃ c cs, x = c :: cs := by
      refine List.exists_cons_of_ne_nil ?_
      rw [ht' _ _ _ h]
      exact List.append_ne_nil_of_right_ne_nil _ hne
    rw [hx] at hs'
    have hnone : s (x ++ v) = none := by
      rw [hx]
      exact hdecided c cs (cs ++ v) hs'
    rw [hnone, Option.none_or, ht x v l r h hne]
  | some first =>
    rw [hs', Option.some_or] at h
    rw [hs x v l r (hs'.trans h) hne, Option.some_or]

theorem Decided.orElse (hs : s.Decided) (ht : t.Decided) : (s.orElse t).Decided := by
  intro c cs cs' h
  rw [Scanner.orElse, Option.or_eq_none_iff] at h ⊢
  exact ⟨hs c cs cs' h.1, ht c cs cs' h.2⟩

/-- A sequence is decided by its first part if the second one always matches. -/
theorem Decided.andThen (hs : s.Decided) (htotal : ∀ cs, t cs ≠ none) :
    (s.andThen t).Decided := by
  intro c cs cs' h
  refine andThen_of_eq_none (hs c cs cs' ?_) t
  by_contra hne
  obtain ⟨⟨l, r⟩, hfirst⟩ := Option.ne_none_iff_exists'.1 hne
  rw [andThen_of_eq_some hfirst, Option.map_eq_none_iff] at h
  exact htotal r h

namespace Regular

theorem andThen (hs : s.Regular) (hsettled : s.Settled) (ht : t.Regular) :
    (s.andThen t).Regular where
  splits := hs.splits.andThen ht.splits
  bounded x c hc w := by
    cases hx : s x with
    | none =>
      have hnone : s (x ++ c :: w) = none := by rw [hs.bounded x c hc w, hx]; rfl
      rw [andThen_of_eq_none hnone, andThen_of_eq_none hx]
      rfl
    | some first =>
      obtain ⟨l, r⟩ := first
      have hsome : s (x ++ c :: w) = some (l, r ++ c :: w) := by
        rw [hs.bounded x c hc w, hx]
        rfl
      rw [andThen_of_eq_some hsome, andThen_of_eq_some hx, ht.bounded r c hc w]
      simp [Function.comp_def]
  truncates x v l r h := by
    obtain ⟨l₁, l₂, r₁, h₁, h₂, rfl⟩ := andThen_eq_some h
    have hr₁ : r₁ = (l₂ ++ r) ++ v := by rw [ht.splits _ _ _ h₂, List.append_assoc]
    rw [hr₁] at h₁ h₂
    rw [andThen_of_eq_some (hs.truncates _ _ _ _ h₁), ht.truncates _ _ _ _ h₂]
    rfl
  grows x v h := by
    obtain ⟨⟨l, r⟩, hx⟩ := Option.ne_none_iff_exists'.1 h
    obtain ⟨l₁, l₂, r₁, h₁, h₂, rfl⟩ := andThen_eq_some hx
    have hsecond : t r₁ ≠ none := by rw [h₂]; exact Option.some_ne_none _
    by_cases hrest : r₁ = []
    · -- the first part may match more now, but the second one needs nothing
      have hfirst : s (x ++ v) ≠ none := hs.grows x v (by rw [h₁]; exact Option.some_ne_none _)
      obtain ⟨⟨l', r'⟩, hx'⟩ := Option.ne_none_iff_exists'.1 hfirst
      rw [andThen_of_eq_some hx', Ne, Option.map_eq_none_iff]
      rw [hrest] at hsecond
      exact ht.grows [] r' hsecond
    · rw [andThen_of_eq_some (hsettled x v l₁ r₁ h₁ hrest), Ne, Option.map_eq_none_iff]
      exact ht.grows r₁ v hsecond

theorem orElse (hs : s.Regular) (ht : t.Regular) : (s.orElse t).Regular where
  splits := hs.splits.orElse ht.splits
  bounded x c hc w := by
    rw [Scanner.orElse, Scanner.orElse, hs.bounded x c hc w, ht.bounded x c hc w, Option.map_or]
  truncates x v l r h := by
    rw [Scanner.orElse] at h ⊢
    cases hs' : s (x ++ v) with
    | none =>
      rw [hs', Option.none_or] at h
      have hnone : s x = none := by
        by_contra hne
        exact hs.grows x v hne hs'
      rw [hnone, Option.none_or, ht.truncates x v l r h]
    | some first =>
      rw [hs', Option.some_or] at h
      rw [hs.truncates x v l r (hs'.trans h), Option.some_or]
  grows x v h := by
    rw [Scanner.orElse, Ne, Option.or_eq_none_iff, not_and_or] at h ⊢
    exact h.imp (hs.grows x v) (ht.grows x v)

theorem optional (hs : s.Regular) : (Scanner.optional s).Regular :=
  hs.orElse {
    splits := fun _ _ _ h => by cases h; rfl
    bounded := fun _ _ _ _ => rfl
    truncates := fun x v l r h => by
      simp only [Option.some.injEq, Prod.mk.injEq] at h
      rw [← h.1, List.append_cancel_right h.2]
    grows := fun _ _ _ => Option.some_ne_none _ }

/-! ## Texts that go on with a separator

What a scanner does in front of a separator does not depend on what stands behind it. -/

theorem cut (h : s.Regular) (hc : c ∈ separators) (hscan : s (x ++ v) = some (l, r ++ v)) :
    s (x ++ c :: w) = some (l, r ++ c :: w) := by
  rw [h.bounded x c hc w, h.truncates x v l r hscan]
  rfl

theorem cut_eq_none (h : s.Regular) (hc : c ∈ separators) (hscan : s (x ++ v) = none) :
    s (x ++ c :: w) = none := by
  rw [h.bounded x c hc w, Option.map_eq_none_iff]
  by_contra hne
  exact h.grows x v hne hscan

/-- What was read is read again between the tokens of a listing. -/
theorem scan_separated (h : s.Regular) (hscan : s (l ++ r) = some (l, r)) {rest : List Char}
    (hrest : Separated rest) : s (l ++ rest) = some (l, rest) := by
  obtain ⟨c, rest, rfl, hc⟩ := hrest
  have hmem : c ∈ separators := by
    rcases hc with rfl | rfl
    · decide
    · decide
  rw [← List.nil_append r] at hscan
  exact h.cut hmem hscan

/-- There is no separator in what was read. -/
theorem inner (h : s.Regular) (hscan : s x = some (l, r)) : ∀ c ∈ l, c ∉ separators := by
  intro c hc hsep
  obtain ⟨l₁, l₂, rfl⟩ := List.append_of_mem hc
  have hx : x = l₁ ++ c :: (l₂ ++ r) := by simpa using h.splits _ _ _ hscan
  rw [hx, h.bounded l₁ c hsep] at hscan
  obtain ⟨⟨l', r'⟩, hl', heq⟩ := Option.map_eq_some_iff.1 hscan
  have hlength := congrArg List.length (h.splits _ _ _ hl')
  have hlexeme : l' = l₁ ++ c :: l₂ := (Prod.mk.inj heq).1
  rw [hlexeme] at hlength
  simp at hlength

end Regular
end Regular

/-! ## Numbers -/

theorem regular_many1 (hp : Inner p) : (many1 p).Regular :=
  (regular_one hp).andThen (settled_one p) (regular_many hp)

theorem settled_many1 (p : Char → Bool) : (many1 p).Settled :=
  (settled_one p).andThen (settled_many p) (splits_many p)

theorem regular_minus : minus.Regular := (regular_one (by decide)).optional

theorem settled_minus : minus.Settled := (settled_one _).optional (decided_one _)

theorem regular_sign : sign.Regular :=
  ((regular_one (by decide)).orElse (regular_one (by decide))).optional

theorem settled_sign : sign.Settled :=
  ((settled_one _).orElse (settled_one _) (splits_one _) (decided_one _)).optional
    ((decided_one _).orElse (decided_one _))

theorem regular_digits : digits.Regular := regular_many1 (by decide)

theorem regular_exponent {isMark : Char → Bool} (h : Inner isMark) : (exponent isMark).Regular :=
  (regular_one h).andThen (settled_one _) (regular_sign.andThen settled_sign regular_digits)

theorem regular_hexInteger : hexInteger.Regular := by
  have hdigits : (many1 isHexDigit).Regular := regular_many1 (by decide)
  have hx := (regular_one (p := (· == 'x')) (by decide)).andThen (settled_one _) hdigits
  have hzero := (regular_one (p := (· == '0')) (by decide)).andThen (settled_one _) hx
  exact regular_minus.andThen settled_minus hzero

theorem settled_hexInteger : hexInteger.Settled := by
  have hdigits := settled_many1 isHexDigit
  have hx := (settled_one (· == 'x')).andThen hdigits (splits_many1 _)
  have hzero := (settled_one (· == '0')).andThen hx ((splits_one _).andThen (splits_many1 _))
  exact settled_minus.andThen hzero
    ((splits_one _).andThen ((splits_one _).andThen (splits_many1 _)))

/-- A run of digits that no `x` follows is no hexadecimal integer. -/
theorem hexInteger_eq_none (h : minus.andThen digits cs = some (l, r)) (hr : r.head? ≠ some 'x') :
    hexInteger cs = none := by
  obtain ⟨l₁, l₂, r₁, h₁, h₂, -⟩ := andThen_eq_some h
  obtain ⟨rfl, hne, hdigits⟩ := many1_eq_some h₂
  obtain ⟨c, l', rfl⟩ := List.exists_cons_of_ne_nil hne
  have hx : char 'x' (l' ++ r) = none := by
    match l', r with
    | [], [] => rfl
    | [], d :: r => exact char_of_ne (fun hd => hr (congrArg some hd)) r
    | d :: l', r =>
      refine char_of_ne ?_ _
      rintro rfl
      exact absurd (hdigits 'x' (by simp)) (by decide)
  rw [hexInteger, andThen_of_eq_some h₁, Option.map_eq_none_iff, List.cons_append]
  by_cases hzero : c = '0'
  · rw [hzero, andThen_of_eq_some (char_self '0' _), Option.map_eq_none_iff]
    exact andThen_of_eq_none hx _
  · exact andThen_of_eq_none (char_of_ne hzero _) _

/-- What stands behind the whole part of a floating-point number. -/
def fraction : Scanner :=
  ((char '.').andThen ((many Char.isDigit).andThen (optional decimalExponent))).orElse
    decimalExponent

theorem scan_float : TokenKind.float.scan = (minus.andThen digits).andThen fraction :=
  (andThen_assoc _ _ _).symm

theorem starts_fraction : fraction.Starts fun c => c == '.' || (c == 'e' || c == 'E') :=
  ((starts_one _).andThen_left _).orElse (starts_exponent _)

end Scanner

/-! ## Tokens -/

namespace TokenKind

open Scanner

theorem regular_scan {kind : TokenKind} (hstring : kind ≠ .string)
    (hnewline : kind ≠ .newline) : kind.scan.Regular := by
  have hone : ∀ {p : Char → Bool}, Inner p → (one p).Regular := regular_one
  have hname : (many1 isNameChar).Regular := regular_many1 (by decide)
  match kind with
  | .id => exact (hone (by decide)).andThen (settled_one _) hname
  | .equal => exact hone (by decide)
  | .opcode =>
    exact (hone (by decide)).andThen (settled_one _)
      ((hone (by decide)).andThen (settled_one _) hname)
  | .word =>
    exact (hone (by decide)).andThen (settled_one _)
      (regular_many (by decide))
  | .hexFloat =>
    have hpoint := hone (p := (· == '.')) (by decide)
    have hdigits := regular_many (p := isHexDigit) (by decide)
    have hfraction := (hpoint.andThen (settled_one _) hdigits).optional
    have hsettled := ((settled_one (· == '.')).andThen (settled_many isHexDigit)
      (splits_many _)).optional ((decided_one _).andThen nofun)
    exact regular_hexInteger.andThen settled_hexInteger (hfraction.andThen hsettled
      (regular_exponent (by decide)))
  | .hex => exact regular_hexInteger
  | .float =>
    have hexponent : decimalExponent.Regular := regular_exponent (by decide)
    have hpoint := hone (p := (· == '.')) (by decide)
    have hdigits := regular_many (p := Char.isDigit) (by decide)
    have hfraction := (hpoint.andThen (settled_one _)
      (hdigits.andThen (settled_many _) hexponent.optional)).orElse hexponent
    exact regular_minus.andThen settled_minus
      (regular_digits.andThen (settled_many1 _) hfraction)
  | .int => exact regular_minus.andThen settled_minus regular_digits
  | .string => exact absurd rfl hstring
  | .newline => exact absurd rfl hnewline

end TokenKind
end ShiftBarrier
