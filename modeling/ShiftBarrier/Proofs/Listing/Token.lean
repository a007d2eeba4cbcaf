import ShiftBarrier.Assembly.Statement
import ShiftBarrier.Proofs.Listing.Literal
import ShiftBarrier.Proofs.Listing.Scanner

/-!
# Reading a token again

* `TokenKind.starts` is the set of characters that a token may start with; most kinds are ruled out
  by it (`Statement.firstMatch_append`).
* `TokenKind.Reads` says that a lexeme is read as a token of a certain kind wherever an operand may
  stand.  It holds of ids, string literals and decimal integers, and of the words and
  floating-point numbers of any text (`TokenKind.reads_of_scan`).
-/

set_option autoImplicit false

namespace ShiftBarrier

/-! ## Kinds of token -/

namespace TokenKind

open Scanner

/-- The characters that a token may start with. -/
def starts : TokenKind → Char → Bool
  | .id, c => c == '%'
  | .equal, c => c == '='
  | .opcode, c => c == 'O'
  | .word, c => c.isAlpha || c == '_'
  | .hexFloat, c | .hex, c | .float, c | .int, c => c == '-' || c.isDigit
  | .string, c => c == '"'
  | .newline, c => c == '\n' || c == '\r'

theorem starts_hexInteger : hexInteger.Starts fun c => c == '-' || c.isDigit := by
  refine (starts_minus_andThen ((starts_one (· == '0')).andThen_left _)).mono fun c hc => ?_
  by_cases hminus : c = '-'
  · simp [hminus]
  · obtain rfl : c = '0' := by simpa [hminus] using hc
    decide

theorem starts_lineEnds1 : lineEnds1.Starts fun c => c == '\n' || c == '\r' := by
  intro cs hne
  rw [lineEnds1] at hne
  fun_cases lineEnds cs with
  | case1 => exact ⟨'\n', _, rfl, by decide⟩
  | case2 => exact ⟨'\r', _, rfl, by decide⟩
  | case3 =>
    next hfirst hsecond =>
    rw [lineEnds.eq_3 _ hfirst hsecond] at hne
    exact absurd rfl hne

theorem starts_scan : (kind : TokenKind) → kind.scan.Starts kind.starts
  | .id => (starts_one _).andThen_left _
  | .equal => starts_one _
  | .opcode => (starts_one _).andThen_left _
  | .word => (starts_one _).andThen_left _
  | .hexFloat => starts_hexInteger.andThen_left _
  | .hex => starts_hexInteger
  | .float => starts_minus_andThen ((starts_many1 _).andThen_left _)
  | .int => starts_minus_andThen (starts_many1 _)
  | .string => (starts_one _).andThen_left _
  | .newline => starts_lineEnds1

theorem ne_blank_of_starts {kind : TokenKind} {c : Char} (h : kind.starts c = true) :
    c ≠ ' ' ∧ c ≠ '\t' ∧ c ≠ ';' := by
  have hblank : ∀ d, d = ' ' ∨ d = '\t' ∨ d = ';' → kind.starts d = false := by
    rintro d (rfl | rfl | rfl) <;> cases kind <;> decide
  have hne : ∀ d, d = ' ' ∨ d = '\t' ∨ d = ';' → c ≠ d := by
    rintro d hd rfl
    rw [hblank c hd] at h
    cases h
  exact ⟨hne _ (.inl rfl), hne _ (.inr (.inl rfl)), hne _ (.inr (.inr rfl))⟩

/-- Blanks and comments are no tokens. -/
theorem ignored_eq_none {kind : TokenKind} {text : List Char} (h : kind.scan text ≠ none) :
    ignored text = none := by
  obtain ⟨c, cs, rfl, hc⟩ := kind.starts_scan text h
  obtain ⟨hspace, htab, hcomment⟩ := ne_blank_of_starts hc
  rw [ignored, orElse, many1, andThen_of_eq_none (one_of_neg (by simp [hspace, htab])),
    andThen_of_eq_none (char_of_ne hcomment cs), Option.none_or]

/-- A single blank in front of a token is skipped. -/
theorem ignored_blank {kind : TokenKind} {text : List Char} (h : kind.scan text ≠ none) :
    ignored (' ' :: text) = some ([' '], text) := by
  obtain ⟨c, cs, rfl, hc⟩ := kind.starts_scan text h
  obtain ⟨hspace, htab, -⟩ := ne_blank_of_starts hc
  have hrun : many1 (fun c => c == ' ' || c == '\t') ([' '] ++ c :: cs)
      = some ([' '], c :: cs) := by
    refine many1_append (List.cons_ne_nil _ _) (List.all_eq_true.1 rfl) fun d hd => ?_
    obtain rfl := Option.some.inj hd
    simp [hspace, htab]
  rw [ignored, orElse]
  exact congrArg (Option.or · _) hrun

end TokenKind

/-! ## First matches

The kinds are tried in order, so for a kind to match the ones before it have to fail. -/

namespace Statement

open Scanner TokenKind

variable {kind : TokenKind} {kinds : List TokenKind} {text lexeme rest : List Char}

theorem firstMatch_of_eq_none (h : kind.scan text = none) :
    firstMatch (kind :: kinds) text = firstMatch kinds text := by
  rw [firstMatch, List.findSome?_cons, h]
  rfl

theorem firstMatch_of_eq_some (h : kind.scan text = some (lexeme, rest)) :
    firstMatch (kind :: kinds) text = some (kind, lexeme, rest) := by
  rw [firstMatch, List.findSome?_cons, h]
  rfl

/-- Kinds whose tokens start differently are passed over. -/
theorem firstMatch_append (before : List TokenKind) {c : Char} {cs : List Char}
    (hbefore : ∀ other ∈ before, other.starts c = false)
    (h : kind.scan (c :: cs) = some (lexeme, rest)) :
    firstMatch (before ++ kind :: kinds) (c :: cs) = some (kind, lexeme, rest) := by
  induction before with
  | nil => exact firstMatch_of_eq_some h
  | cons other before ih =>
    have hother := other.starts_scan.eq_none (hbefore other List.mem_cons_self) cs
    rw [List.cons_append, firstMatch_of_eq_none hother]
    exact ih fun k hk => hbefore k (List.mem_cons_of_mem _ hk)

theorem scan_of_firstMatch (h : firstMatch kinds text = some (kind, lexeme, rest)) :
    kind ∈ kinds ∧ kind.scan text = some (lexeme, rest) := by
  obtain ⟨found, hfound, hscan⟩ := List.exists_of_findSome?_eq_some h
  obtain ⟨⟨l, r⟩, hscan, heq⟩ := Option.map_eq_some_iff.1 hscan
  cases heq
  exact ⟨hfound, hscan⟩

end Statement

namespace TokenKind

open Scanner Statement

/-- The kinds that an operand may be of, and the end of the line. -/
def operandKinds : List TokenKind :=
  [.hexFloat, .hex, .float, .int, .id, .word, .string, .newline]

/-- A lexeme that is read as a token of this kind wherever an operand may stand. -/
def Reads (kind : TokenKind) (lexeme : List Char) : Prop :=
  ∀ rest, Separated rest → firstMatch operandKinds (lexeme ++ rest) = some (kind, lexeme, rest)

variable {l r : List Char} {c : Char}

theorem head?_of_separated (h : Separated r) {p : Char → Bool} (hblank : p ' ' = false)
    (hnewline : p '\n' = false) : ∀ c ∈ r.head?, p c = false := by
  obtain ⟨c, rest, rfl, hc⟩ := h
  rintro d hd
  obtain rfl := Option.some.inj hd
  rcases hc with rfl | rfl
  · exact hblank
  · exact hnewline

/-- A literal is a token whatever follows it. -/
theorem firstMatch_encode (s : List CodePoint) (rest : List Char) :
    firstMatch operandKinds (Literal.encode s ++ rest) = some (.string, Literal.encode s, rest) :=
  firstMatch_append [.hexFloat, .hex, .float, .int, .id, .word] (by decide)
    (Literal.scan_encode s rest)

theorem reads_string (s : List CodePoint) : Reads .string (Literal.encode s) :=
  fun rest _ => firstMatch_encode s rest

/-- The name of an id, without its percent sign. -/
def IsName (name : List Char) : Prop := name ≠ [] ∧ ∀ c ∈ name, isNameChar c = true

theorem IsName.scan_append (h : IsName l) (hr : Separated r) :
    many1 isNameChar (l ++ r) = some (l, r) :=
  many1_append h.1 h.2 (head?_of_separated hr (by decide) (by decide))

theorem IsName.scan_id (h : IsName l) (hr : Separated r) :
    TokenKind.id.scan ('%' :: (l ++ r)) = some ('%' :: l, r) := by
  rw [scan, andThen_of_eq_some (char_self '%' _), h.scan_append hr]
  rfl

theorem reads_id (h : IsName l) : Reads .id ('%' :: l) := fun _ hrest =>
  firstMatch_append [.hexFloat, .hex, .float, .int] (by decide) (h.scan_id hrest)

theorem isDigit_eq_false_of_word (hc : (c.isAlpha || c == '_') = true) : c.isDigit = false := by
  rw [Bool.or_eq_true, beq_iff_eq] at hc
  rcases hc with hc | rfl
  · delta Char.isAlpha Char.isUpper Char.isLower at hc
    simp only [Char.isDigit, Bool.or_eq_true, Bool.and_eq_true, Bool.and_eq_false_iff,
      decide_eq_true_eq, decide_eq_false_iff_not, ge_iff_le, UInt32.le_iff_toNat_le] at hc ⊢
    simp at hc ⊢
    omega
  · decide

theorem reads_word (hc : (c.isAlpha || c == '_') = true)
    (hl : ∀ c ∈ l, (isNameChar c || c == '|') = true) : Reads .word (c :: l) := by
  intro rest hrest
  have hmany := many_append hl (head?_of_separated hrest (by decide) (by decide))
  have hscan : TokenKind.word.scan (c :: (l ++ rest)) = some (c :: l, rest) := by
    rw [scan, andThen_of_eq_some (one_of_pos hc), hmany]
    rfl
  have hnumber : (c == '-' || c.isDigit) = false := by
    have hminus : c ≠ '-' := by
      rintro rfl
      exact absurd hc (by decide)
    simp [isDigit_eq_false_of_word hc, hminus]
  have hpercent : (c == '%') = false := by
    rw [beq_eq_false_iff_ne]
    rintro rfl
    exact absurd hc (by decide)
  refine firstMatch_append [.hexFloat, .hex, .float, .int, .id] ?_ hscan
  simp [starts, hnumber, hpercent]

/-- Digits, with or without a sign, are an integer. -/
theorem reads_int
    (h : ∀ rest, Separated rest → (minus.andThen digits) (l ++ rest) = some (l, rest)) :
    Reads .int l := by
  intro rest hrest
  have hscan := h rest hrest
  have hhex : TokenKind.hex.scan (l ++ rest) = none := by
    refine hexInteger_eq_none hscan fun hx => ?_
    have hne := head?_of_separated hrest (p := (· == 'x')) (by decide) (by decide) 'x' hx
    simp at hne
  have hhexFloat : TokenKind.hexFloat.scan (l ++ rest) = none := andThen_of_eq_none hhex _
  have hfloat : TokenKind.float.scan (l ++ rest) = none := by
    rw [scan_float, andThen_of_eq_some hscan, Option.map_eq_none_iff]
    exact starts_fraction.eq_none_of_separated (by decide) (by decide) hrest
  rw [operandKinds, firstMatch_of_eq_none hhexFloat, firstMatch_of_eq_none hhex,
    firstMatch_of_eq_none hfloat]
  exact firstMatch_of_eq_some hscan

/-- Hexadecimal digits behind their mark are an integer. -/
theorem reads_hex (hne : l ≠ []) (hl : ∀ c ∈ l, isHexDigit c = true) :
    Reads .hex ('0' :: 'x' :: l) := by
  intro rest hrest
  have hdigits : many1 isHexDigit (l ++ rest) = some (l, rest) :=
    many1_append hne hl (head?_of_separated hrest (by decide) (by decide))
  have hminus : minus ('0' :: 'x' :: (l ++ rest)) = some ([], '0' :: 'x' :: (l ++ rest)) :=
    optional_of_eq_none (char_of_ne (by decide) _)
  have hscan : hexInteger ('0' :: 'x' :: (l ++ rest)) = some ('0' :: 'x' :: l, rest) := by
    rw [hexInteger, andThen_of_eq_some hminus, andThen_of_eq_some (char_self '0' _),
      andThen_of_eq_some (char_self 'x' _), hdigits]
    rfl
  -- neither a point nor an exponent follows
  have hhexFloat : TokenKind.hexFloat.scan ('0' :: 'x' :: (l ++ rest)) = none := by
    have hstarts := starts_optional_andThen ((starts_one (· == '.')).andThen_left (many isHexDigit))
      (starts_exponent fun c => c == 'p' || c == 'P')
    rw [scan, andThen_of_eq_some hscan, Option.map_eq_none_iff]
    exact hstarts.eq_none_of_separated (by decide) (by decide) hrest
  show firstMatch operandKinds ('0' :: 'x' :: (l ++ rest)) = _
  rw [operandKinds, firstMatch_of_eq_none hhexFloat]
  exact firstMatch_of_eq_some hscan

theorem reads_hexFloat (h : TokenKind.hexFloat.scan (l ++ r) = some (l, r)) : Reads .hexFloat l :=
  have hregular : TokenKind.hexFloat.scan.Regular := regular_scan nofun nofun
  fun _ hrest => firstMatch_of_eq_some (hregular.scan_separated h hrest)

theorem reads_float (h : TokenKind.float.scan (l ++ r) = some (l, r)) : Reads .float l := by
  intro rest hrest
  have hregular : TokenKind.float.scan.Regular := regular_scan nofun nofun
  have hscan := hregular.scan_separated h hrest
  have hhex : TokenKind.hex.scan (l ++ rest) = none := by
    rw [scan_float] at hscan
    obtain ⟨l₁, l₂, r₁, h₁, h₂, -⟩ := andThen_eq_some hscan
    obtain ⟨c, rest', rfl, hc⟩ := starts_fraction r₁ (by rw [h₂]; exact Option.some_ne_none _)
    refine hexInteger_eq_none h₁ fun hx => ?_
    obtain rfl := Option.some.inj hx
    exact absurd hc (by decide)
  have hhexFloat : TokenKind.hexFloat.scan (l ++ rest) = none := andThen_of_eq_none hhex _
  rw [operandKinds, firstMatch_of_eq_none hhexFloat, firstMatch_of_eq_none hhex]
  exact firstMatch_of_eq_some hscan

theorem scan_id_eq_some {text : List Char} (h : TokenKind.id.scan text = some (l, r)) :
    ∃ name, l = '%' :: name ∧ IsName name := by
  obtain ⟨l₁, name, r₁, h₁, h₂, rfl⟩ := andThen_eq_some h
  obtain ⟨c, rfl, -, hc⟩ := one_eq_some h₁
  obtain ⟨-, hname⟩ := many1_eq_some h₂
  exact ⟨name, by rw [eq_of_beq hc]; rfl, hname⟩

/-- **What was read once is read again**: words and floating-point numbers are printed as they were
written. -/
theorem reads_of_scan {kind : TokenKind} (hkind : kind = .word ∨ kind = .hexFloat ∨ kind = .float)
    (h : kind.scan (l ++ r) = some (l, r)) : kind.Reads l := by
  rcases hkind with rfl | rfl | rfl
  · obtain ⟨l₁, l₂, r₁, h₁, h₂, rfl⟩ := andThen_eq_some h
    obtain ⟨c, rfl, -, hc⟩ := one_eq_some h₁
    obtain ⟨-, hall, -⟩ := many_eq_some h₂
    exact reads_word hc hall
  · exact reads_hexFloat h
  · exact reads_float h

end TokenKind
end ShiftBarrier
