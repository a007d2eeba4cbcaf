import ShiftBarrier.Assembly.Token

/-!
# Lexemes

A scanner cuts a text in two and changes nothing.

* `TokenKind.splits_scan`: a lexeme and the rest behind it make up the text.
* `TokenKind.consumes_scan`: a lexeme is never empty, so reading token by token comes to an end.
-/

set_option autoImplicit false

namespace ShiftBarrier
namespace Scanner

/-- Nothing is lost: lexeme and rest make up the text. -/
def Splits (s : Scanner) : Prop := ∀ cs l r, s cs = some (l, r) → cs = l ++ r

/-- No lexeme is empty. -/
def Consumes (s : Scanner) : Prop := ∀ cs l r, s cs = some (l, r) → l ≠ []

theorem length_rest_lt {s : Scanner} (hs : s.Splits) (hc : s.Consumes) {cs l r : List Char}
    (h : s cs = some (l, r)) : r.length < cs.length := by
  have hpos := List.length_pos_iff.2 (hc _ _ _ h)
  rw [hs _ _ _ h, List.length_append]
  omega

/-! ## Parts of scanners -/

theorem splits_one (p : Char → Bool) : (one p).Splits := by
  intro cs l r h
  match cs with
  | [] => simp [one] at h
  | c :: cs =>
    simp only [one, Option.ite_none_right_eq_some, Option.some.injEq, Prod.mk.injEq] at h
    obtain ⟨_, rfl, rfl⟩ := h
    rfl

theorem consumes_one (p : Char → Bool) : (one p).Consumes := by
  intro cs l r h
  match cs with
  | [] => simp [one] at h
  | c :: cs =>
    simp only [one, Option.ite_none_right_eq_some, Option.some.injEq, Prod.mk.injEq] at h
    obtain ⟨_, rfl, _⟩ := h
    simp

theorem splits_many (p : Char → Bool) : (many p).Splits := by
  intro cs l r h
  simp only [many, Option.some.injEq, Prod.mk.injEq] at h
  obtain ⟨rfl, rfl⟩ := h
  exact List.takeWhile_append_dropWhile.symm

theorem andThen_eq_some {s t : Scanner} {cs l r : List Char} (h : s.andThen t cs = some (l, r)) :
    ∃ l₁ l₂ r₁, s cs = some (l₁, r₁) ∧ t r₁ = some (l₂, r) ∧ l = l₁ ++ l₂ := by
  unfold andThen at h
  split at h
  · next l₁ r₁ h₁ =>
    obtain ⟨⟨l₂, r₂⟩, h₂, heq⟩ := Option.map_eq_some_iff.1 h
    cases heq
    exact ⟨l₁, l₂, r₁, h₁, h₂, rfl⟩
  · cases h

theorem Splits.andThen {s t : Scanner} (hs : s.Splits) (ht : t.Splits) :
    (s.andThen t).Splits := by
  intro cs l r h
  obtain ⟨l₁, l₂, r₁, h₁, h₂, rfl⟩ := andThen_eq_some h
  rw [List.append_assoc, ← ht _ _ _ h₂]
  exact hs _ _ _ h₁

theorem Consumes.andThen_left {s : Scanner} (hs : s.Consumes) (t : Scanner) :
    (s.andThen t).Consumes := by
  intro cs l r h
  obtain ⟨l₁, l₂, r₁, h₁, _, rfl⟩ := andThen_eq_some h
  simp [hs _ _ _ h₁]

theorem Consumes.andThen_right {t : Scanner} (s : Scanner) (ht : t.Consumes) :
    (s.andThen t).Consumes := by
  intro cs l r h
  obtain ⟨l₁, l₂, r₁, _, h₂, rfl⟩ := andThen_eq_some h
  simp [ht _ _ _ h₂]

theorem orElse_eq_some {s t : Scanner} {cs l r : List Char} (h : s.orElse t cs = some (l, r)) :
    s cs = some (l, r) ∨ t cs = some (l, r) := by
  unfold orElse at h
  cases hs : s cs <;> simp_all

theorem Splits.orElse {s t : Scanner} (hs : s.Splits) (ht : t.Splits) : (s.orElse t).Splits :=
  fun _ _ _ h => (orElse_eq_some h).elim (hs _ _ _) (ht _ _ _)

theorem Consumes.orElse {s t : Scanner} (hs : s.Consumes) (ht : t.Consumes) :
    (s.orElse t).Consumes :=
  fun _ _ _ h => (orElse_eq_some h).elim (hs _ _ _) (ht _ _ _)

theorem Splits.optional {s : Scanner} (hs : s.Splits) : (optional s).Splits :=
  hs.orElse fun _ _ _ h => by cases h; rfl

theorem splits_many1 (p : Char → Bool) : (many1 p).Splits := (splits_one p).andThen (splits_many p)

theorem consumes_many1 (p : Char → Bool) : (many1 p).Consumes := (consumes_one p).andThen_left _

theorem splits_stringTail : stringTail.Splits := by
  intro cs
  fun_induction stringTail cs with
  | case1 => intro l r h; cases h; rfl
  | case2 => intro l r h; cases h
  | case3 c cs hc ih =>
    intro l r h
    obtain ⟨⟨l₁, r₁⟩, h₁, heq⟩ := Option.map_eq_some_iff.1 h
    cases heq
    simp [ih _ _ h₁]
  | case4 => intro l r h; cases h
  | case5 c cs _ _ hc ih =>
    intro l r h
    obtain ⟨⟨l₁, r₁⟩, h₁, heq⟩ := Option.map_eq_some_iff.1 h
    cases heq
    simp [ih _ _ h₁]
  | case6 => intro l r h; cases h

theorem lineEnds_append (cs : List Char) : (lineEnds cs).1 ++ (lineEnds cs).2 = cs := by
  fun_induction lineEnds cs <;> simp_all

theorem splits_lineEnds1 : lineEnds1.Splits := by
  intro cs l r h
  simp only [lineEnds1, Option.ite_none_left_eq_some, Option.some.injEq, Prod.mk.injEq] at h
  obtain ⟨_, rfl, rfl⟩ := h
  exact (lineEnds_append cs).symm

theorem consumes_lineEnds1 : lineEnds1.Consumes := by
  intro cs l r h
  simp only [lineEnds1, Option.ite_none_left_eq_some, Option.some.injEq, Prod.mk.injEq] at h
  obtain ⟨hne, rfl, _⟩ := h
  simpa using hne

theorem splits_minus : minus.Splits := (splits_one _).optional

theorem splits_exponent (isMark : Char → Bool) : (exponent isMark).Splits :=
  (splits_one _).andThen (((splits_one _).orElse (splits_one _)).optional.andThen (splits_many1 _))

theorem splits_hexInteger : hexInteger.Splits :=
  splits_minus.andThen ((splits_one _).andThen ((splits_one _).andThen (splits_many1 _)))

theorem consumes_hexInteger : hexInteger.Consumes :=
  ((consumes_one _).andThen_left _).andThen_right _

theorem splits_ignored : ignored.Splits :=
  (splits_many1 _).orElse ((splits_one _).andThen (splits_many _))

theorem consumes_ignored : ignored.Consumes :=
  (consumes_many1 _).orElse ((consumes_one _).andThen_left _)

end Scanner

/-! ## Tokens -/

namespace TokenKind

open Scanner

theorem splits_scan : (kind : TokenKind) → kind.scan.Splits
  | .id => (splits_one _).andThen (splits_many1 _)
  | .equal => splits_one _
  | .opcode => (splits_one _).andThen ((splits_one _).andThen (splits_many1 _))
  | .word => (splits_one _).andThen (splits_many _)
  | .hexFloat =>
    splits_hexInteger.andThen
      (((splits_one _).andThen (splits_many _)).optional.andThen (splits_exponent _))
  | .hex => splits_hexInteger
  | .float =>
    splits_minus.andThen ((splits_many1 _).andThen
      (((splits_one _).andThen ((splits_many _).andThen (splits_exponent _).optional)).orElse
        (splits_exponent _)))
  | .int => splits_minus.andThen (splits_many1 _)
  | .string => (splits_one _).andThen splits_stringTail
  | .newline => splits_lineEnds1

theorem consumes_scan : (kind : TokenKind) → kind.scan.Consumes
  | .id => (consumes_one _).andThen_left _
  | .equal => consumes_one _
  | .opcode => (consumes_one _).andThen_left _
  | .word => (consumes_one _).andThen_left _
  | .hexFloat => consumes_hexInteger.andThen_left _
  | .hex => consumes_hexInteger
  | .float => ((consumes_many1 _).andThen_left _).andThen_right _
  | .int => (consumes_many1 _).andThen_right _
  | .string => (consumes_one _).andThen_left _
  | .newline => consumes_lineEnds1

end TokenKind
end ShiftBarrier
