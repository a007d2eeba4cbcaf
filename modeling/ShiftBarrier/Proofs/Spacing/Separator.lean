import ShiftBarrier.Proofs.Listing.Token

/-!
# Where tokens end

Blanks, comments and line ends may be put between tokens, because every token ends in front of
them, and what is found first is still found first.

* `Scanner.stringTail_eq_some` says so of strings, which may have separators in them.
* `TokenKind.line_of_scan`: no line ends within a token.
* `Statement.firstMatch_cut`: the first match stays the first match when the text behind it is
  replaced by one that starts with a separator.
-/

set_option autoImplicit false

namespace ShiftBarrier
namespace Scanner

variable {l r : List Char}

/-! ## Strings -/

/-- A string ends with its closing quote, and no line ends before it. -/
theorem stringTail_eq_some {cs : List Char} (h : stringTail cs = some (l, r)) :
    l.getLast? = some '"' ∧ '\n' ∉ l ∧ ∀ r', stringTail (l ++ r') = some (l, r') := by
  fun_induction stringTail cs generalizing l with
  | case1 =>
    cases h
    exact ⟨rfl, by decide, fun _ => rfl⟩
  | case2 => cases h
  | case3 c cs hc ih =>
    obtain ⟨⟨l₁, r₁⟩, h₁, heq⟩ := Option.map_eq_some_iff.1 h
    cases heq
    obtain ⟨hlast, hmem, hagain⟩ := ih h₁
    have hnewline : c ≠ '\n' := by simpa using hc
    refine ⟨?_, ?_, fun r' => ?_⟩
    · rw [List.getLast?_cons_cons, List.getLast?_cons, hlast]
      rfl
    · simp [hmem, hnewline.symm]
    · simp [stringTail, hnewline, hagain r']
  | case4 => cases h
  | case5 c cs hquote hescape hc ih =>
    obtain ⟨⟨l₁, r₁⟩, h₁, heq⟩ := Option.map_eq_some_iff.1 h
    cases heq
    obtain ⟨hlast, hmem, hagain⟩ := ih h₁
    have hnewline : c ≠ '\n' := by simpa using hc
    -- a backslash that hides no character ends the text, and there is no string then
    have hbackslash : c ≠ '\\' := by
      intro hc
      cases cs with
      | nil => cases h₁
      | cons d cs => exact hescape d cs hc rfl
    refine ⟨?_, ?_, fun r' => ?_⟩
    · rw [List.getLast?_cons, hlast]
      rfl
    · simp [hmem, hnewline.symm]
    · rw [List.cons_append, stringTail.eq_3, if_neg hc, hagain r']
      · rfl
      · exact hquote
      · exact fun d ds hd _ => hbackslash hd
  | case6 => cases h

end Scanner

/-! ## Tokens

Behind a token there may be another one without a blank between them, so it is not enough to look at
the next blank. -/

namespace TokenKind

open Scanner

variable {kind : TokenKind} {text lexeme rest : List Char}

theorem eq_string_of_starts (h : kind.starts '"' = true) : kind = .string := by
  cases kind <;> first | rfl | exact absurd h (by decide)

theorem eq_newline_of_starts {c : Char} (hc : c = '\n' ∨ c = '\r') (h : kind.starts c = true) :
    kind = .newline := by
  rcases hc with rfl | rfl <;> cases kind <;> first | rfl | exact absurd h (by decide)

/-- Tokens other than line ends have no line feed in them and do not end with a carriage return. -/
theorem line_of_scan (hkind : kind ≠ .newline) (h : kind.scan text = some (lexeme, rest)) :
    '\n' ∉ lexeme ∧ lexeme.getLast? ≠ some '\r' := by
  by_cases hstring : kind = .string
  · rw [hstring] at h
    obtain ⟨l, tail, r, hquote, htail, rfl⟩ := andThen_eq_some h
    obtain ⟨c, rfl, -, hc⟩ := one_eq_some hquote
    obtain rfl := eq_of_beq hc
    obtain ⟨hlast, hmem, -⟩ := stringTail_eq_some htail
    refine ⟨by simpa using hmem, ?_⟩
    rw [List.getLast?_append, hlast]
    decide
  · have hinner := (regular_scan hstring hkind).inner h
    exact ⟨fun hmem => hinner _ hmem (by decide),
      fun hlast => hinner '\r' (List.mem_of_getLast? hlast) (by decide)⟩

end TokenKind

namespace Statement

open Scanner TokenKind

variable {kind : TokenKind} {kinds : List TokenKind} {lexeme r v w : List Char} {c : Char}

theorem scan_cut (hkind : kind ≠ .newline) (hc : c ∈ separators)
    (h : kind.scan (lexeme ++ (r ++ v)) = some (lexeme, r ++ v)) :
    kind.scan (lexeme ++ (r ++ c :: w)) = some (lexeme, r ++ c :: w) := by
  by_cases hstring : kind = .string
  · rw [hstring] at h ⊢
    obtain ⟨l, tail, r₁, hquote, htail, rfl⟩ := andThen_eq_some h
    obtain ⟨d, rfl, -, hd⟩ := one_eq_some hquote
    obtain rfl := eq_of_beq hd
    rw [scan, List.append_assoc, List.singleton_append, andThen_of_eq_some (char_self '"' _),
      (stringTail_eq_some htail).2.2]
    rfl
  · rw [← List.append_assoc] at h ⊢
    exact (regular_scan hstring hkind).cut hc h

/-- A kind that did not match in front of a token of another kind does not match now. -/
theorem scan_cut_eq_none {other : TokenKind} (hc : c ∈ separators)
    (h : kind.scan (lexeme ++ (r ++ v)) = some (lexeme, r ++ v))
    (hother : other.scan (lexeme ++ (r ++ v)) = none) :
    other.scan (lexeme ++ (r ++ c :: w)) = none := by
  by_cases hregular : other ≠ .string ∧ other ≠ .newline
  · rw [← List.append_assoc] at hother ⊢
    exact (regular_scan hregular.1 hregular.2).cut_eq_none hc hother
  · -- strings and line ends start differently
    obtain ⟨d, cs, rfl⟩ := List.exists_cons_of_ne_nil (kind.consumes_scan _ _ _ h)
    obtain ⟨d', rest, heq, hd⟩ := kind.starts_scan _ (by rw [h]; exact Option.some_ne_none _)
    obtain rfl := (List.cons.inj heq).1
    refine other.starts_scan.eq_none ?_ _
    rw [not_and_or, not_not, not_not] at hregular
    have hne : kind ≠ other := by
      rintro rfl
      rw [hother] at h
      cases h
    by_contra hstart
    rw [Bool.not_eq_false] at hstart
    rcases hregular with rfl | rfl
    · obtain rfl : d = '"' := by simpa [starts] using hstart
      exact hne (eq_string_of_starts hd)
    · have hend : d = '\n' ∨ d = '\r' := by simpa [starts] using hstart
      exact hne (eq_newline_of_starts hend hd)

/-- **The first match does not depend on what stands behind the next separator.** -/
theorem firstMatch_cut (hkind : kind ≠ .newline) (hc : c ∈ separators)
    (h : firstMatch kinds (lexeme ++ (r ++ v)) = some (kind, lexeme, r ++ v)) :
    firstMatch kinds (lexeme ++ (r ++ c :: w)) = some (kind, lexeme, r ++ c :: w) := by
  have hscan := (scan_of_firstMatch h).2
  induction kinds with
  | nil => cases h
  | cons other kinds ih =>
    cases hother : other.scan (lexeme ++ (r ++ v)) with
    | none =>
      rw [firstMatch_of_eq_none hother] at h
      rw [firstMatch_of_eq_none (scan_cut_eq_none hc hscan hother)]
      exact ih h
    | some found =>
      rw [firstMatch_of_eq_some hother] at h
      simp only [Option.some.injEq, Prod.mk.injEq] at h
      rw [h.1]
      exact firstMatch_of_eq_some (scan_cut hkind hc hscan)

end Statement
end ShiftBarrier
