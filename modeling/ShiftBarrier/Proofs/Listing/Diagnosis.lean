import ShiftBarrier.Proofs.Listing.Printable
import ShiftBarrier.Proofs.Writing

/-!
# What may go wrong with a text

A text that cannot be read is meant to be reported as malformed or as an invalid module.

* `Literal.IsLiteral` says which of the texts between quotes are literals, and
  `Numbering.Readable` which numbers of ids can be read.
* `Settles` says of a computation that it has a result or finds such a fault.
* `Assembly.settled_iff` tells the texts that are read or reported from the others, whose tokens
  denote nothing or cannot be listed.
-/

set_option autoImplicit false

namespace ShiftBarrier

/-! ## String literals

What is decoded is said by a grammar of its own, apart from the decoder. -/

namespace Literal

/-- The letters that may follow a backslash, apart from `u`. -/
def simpleEscapes : List Char := ['"', '\\', '/', 'b', 'f', 'n', 'r', 't']

/-- What may stand between the quotes of a literal. -/
inductive Body : List Char → Prop
  | nil : Body []
  | plain {c : Char} {cs : List Char} (hc : 0x20 ≤ c.toNat) (hquote : c ≠ '"')
      (hbackslash : c ≠ '\\') (h : Body cs) : Body (c :: cs)
  | escape {letter : Char} {cs : List Char} (hletter : letter ∈ simpleEscapes) (h : Body cs) :
      Body ('\\' :: letter :: cs)
  | unicode {a b c d : Char} {cs : List Char}
      (hdigits : ∀ digit ∈ [a, b, c, d], Scanner.isHexDigit digit = true) (h : Body cs) :
      Body ('\\' :: 'u' :: a :: b :: c :: d :: cs)

/-- A literal in its quotes. -/
def IsLiteral (lexeme : List Char) : Prop := ∃ body, lexeme = '"' :: body ++ ['"'] ∧ Body body

theorem mem_simpleEscapes_iff {letter : Char} :
    letter ∈ simpleEscapes ↔ ∃ u, unescape? letter = some u := by
  rw [← Option.isSome_iff_exists, unescape?]
  by_cases hslash : letter = '/'
  · rw [hslash]
    decide
  · rw [if_neg (by simpa using hslash), Option.isSome_map]
    constructor
    · intro h
      simp only [simpleEscapes, List.mem_cons, List.not_mem_nil, or_false] at h
      rcases h with rfl | rfl | rfl | rfl | rfl | rfl | rfl | rfl
      -- Only the third of them is a slash.
      on_goal 3 => exact absurd rfl hslash
      all_goals rfl
    · intro h
      obtain ⟨code, hcode⟩ := Option.isSome_iff_exists.1 h
      obtain ⟨before, after, heq, -⟩ := List.lookup_eq_some_iff.1 hcode
      have hmem : (letter, code) ∈ escapeLetters := by
        rw [heq]
        exact List.mem_append_right _ List.mem_cons_self
      have hall : ∀ entry ∈ escapeLetters, entry.1 ∈ simpleEscapes := by decide
      exact hall _ hmem

theorem isHexDigit_iff {c : Char} :
    Scanner.isHexDigit c = true ↔ ∃ n, hexValue? c = some n := by
  rw [← Option.isSome_iff_exists, hexValue?, Scanner.isHexDigit, Char.isDigit]
  have hzero : ('0' ≤ c ∧ c ≤ '9') ↔ (c.val ≥ 48 ∧ c.val ≤ 57) := Iff.rfl
  split
  · next h => simp [hzero.1 h]
  · next h =>
    rw [hzero] at h
    split <;> simp_all

theorem isHexDigit_of_hexUnit? {a b c d : Char} {u : CodePoint} (h : hexUnit? a b c d = some u) :
    ∀ digit ∈ [a, b, c, d], Scanner.isHexDigit digit = true := by
  simp only [hexUnit?, Option.pure_def, Option.bind_eq_bind, Option.bind_eq_some_iff] at h
  obtain ⟨na, ha, nb, hb, nc, hc, nd, hd, -⟩ := h
  simp only [List.forall_mem_cons, isHexDigit_iff, ha, hb, hc, hd]
  simp

theorem exists_hexUnit? {a b c d : Char}
    (h : ∀ digit ∈ [a, b, c, d], Scanner.isHexDigit digit = true) :
    ∃ u, hexUnit? a b c d = some u := by
  simp only [List.forall_mem_cons, isHexDigit_iff] at h
  obtain ⟨⟨na, ha⟩, ⟨nb, hb⟩, ⟨nc, hc⟩, ⟨nd, hd⟩, -⟩ := h
  exact ⟨_, by rw [hexUnit?, ha, hb, hc, hd]; rfl⟩

/-- What was decoded ends with a quote. -/
theorem exists_body_of_decodeUnits {cs : List Char} {position : Nat} {units : List CodePoint}
    (h : decodeUnits cs position = .ok units) :
    ∃ body rest, cs = body ++ '"' :: rest ∧ Body body := by
  fun_induction decodeUnits cs position generalizing units with
  | case1 => cases h
  | case2 rest => exact ⟨[], rest, rfl, .nil⟩
  | case3 position a b c d cs u hunit ih =>
    obtain ⟨_, hrest, -⟩ := map_eq_ok_iff.1 h
    obtain ⟨body, rest, rfl, hbody⟩ := ih hrest
    exact ⟨_, rest, rfl, .unicode (isHexDigit_of_hexUnit? hunit) hbody⟩
  | case4 => cases h
  | case5 => cases h
  | case6 position letter cs hu u hunit ih =>
    obtain ⟨_, hrest, -⟩ := map_eq_ok_iff.1 h
    obtain ⟨body, rest, rfl, hbody⟩ := ih hrest
    exact ⟨_, rest, rfl, .escape (mem_simpleEscapes_iff.2 ⟨u, hunit⟩) hbody⟩
  | case7 => cases h
  | case8 => cases h
  | case9 => cases h
  | case10 c cs position hquote hunicode hescape hend hc ih =>
    obtain ⟨_, hrest, -⟩ := map_eq_ok_iff.1 h
    obtain ⟨body, rest, rfl, hbody⟩ := ih hrest
    refine ⟨c :: body, rest, rfl, .plain (Nat.not_lt.1 hc) hquote (fun hbackslash => ?_) hbody⟩
    cases body with
    | nil => exact hescape _ _ hbackslash rfl
    | cons letter body => exact hescape _ _ hbackslash rfl

/-- What stands between quotes is decoded. -/
theorem Body.exists_decodeUnits {body : List Char} (h : Body body) (rest : List Char)
    (position : Nat) : ∃ units, decodeUnits (body ++ '"' :: rest) position = .ok units := by
  induction h generalizing position with
  | nil => exact ⟨[], rfl⟩
  | @plain c cs hc hquote hbackslash _ ih =>
    obtain ⟨units, hunits⟩ := ih (position + 1)
    refine ⟨Fin.ofNat 0x110000 c.toNat :: units, ?_⟩
    rw [List.cons_append, decodeUnits, if_neg (Nat.not_lt.2 hc), hunits]
    · rfl
    -- The character begins no other form.
    · exact hquote
    all_goals simp [hbackslash]
  | @escape letter cs hletter _ ih =>
    obtain ⟨u, hu⟩ := mem_simpleEscapes_iff.1 hletter
    obtain ⟨units, hunits⟩ := ih (position + 2)
    have hne : letter ≠ 'u' := by
      rintro rfl
      exact absurd hletter (by decide)
    exact ⟨u :: units, by simp [decodeUnits, hu, hunits, Except.map]⟩
  | @unicode a b c d cs hdigits _ ih =>
    obtain ⟨u, hu⟩ := exists_hexUnit? hdigits
    obtain ⟨units, hunits⟩ := ih (position + 6)
    exact ⟨u :: units, by simp [decodeUnits, hu, hunits, Except.map]⟩

theorem Body.stringTail {body : List Char} (h : Body body) (rest : List Char) :
    Scanner.stringTail (body ++ '"' :: rest) = some (body ++ ['"'], rest) := by
  induction h with
  | nil => rfl
  | @plain c cs hc hquote hbackslash _ ih =>
    have hn : c ≠ '\n' := by
      rintro rfl
      exact absurd hc (by decide)
    simp [Scanner.stringTail, hbackslash, hn, ih]
  | @escape letter cs hletter _ ih =>
    have hn : letter ≠ '\n' := by
      rintro rfl
      exact absurd hletter (by decide)
    simp [Scanner.stringTail, hn, ih]
  | @unicode a b c d cs hdigits _ ih =>
    have hplain : ∀ digit, Scanner.isHexDigit digit = true →
        digit ≠ '"' ∧ digit ≠ '\\' ∧ digit ≠ '\n' := by
      rintro digit hdigit
      refine ⟨?_, ?_, ?_⟩ <;> rintro rfl <;> exact absurd hdigit (by decide)
    simp only [List.forall_mem_cons] at hdigits
    obtain ⟨ha, hb, hc, hd, -⟩ := hdigits
    obtain ⟨qa, ba, na⟩ := hplain a ha
    obtain ⟨qb, bb, nb⟩ := hplain b hb
    obtain ⟨qc, bc, nc⟩ := hplain c hc
    obtain ⟨qd, bd, nd⟩ := hplain d hd
    simp [Scanner.stringTail, ba, na, bb, nb, bc, nc, bd, nd, ih]

/-- **A string token is decoded if and only if it is a literal.** -/
theorem exists_decode_iff {lexeme rest : List Char}
    (h : TokenKind.string.scan (lexeme ++ rest) = some (lexeme, rest)) :
    (∃ s, decode lexeme = .ok s) ↔ IsLiteral lexeme := by
  obtain ⟨first, tail, r, hfirst, htail, heq⟩ := Scanner.andThen_eq_some h
  obtain ⟨c, rfl, hlist, hc⟩ := Scanner.one_eq_some hfirst
  obtain rfl : c = '"' := eq_of_beq hc
  subst heq
  obtain rfl : tail ++ rest = r := (List.cons.inj hlist).2
  constructor
  · rintro ⟨s, hs⟩
    obtain ⟨units, hunits, -⟩ := map_eq_ok_iff.1 hs
    obtain ⟨body, behind, rfl, hbody⟩ := exists_body_of_decodeUnits hunits
    rw [List.append_assoc, List.cons_append, hbody.stringTail] at htail
    exact ⟨body, congrArg ('"' :: ·) (Prod.mk.inj (Option.some.inj htail)).1.symm, hbody⟩
  · rintro ⟨body, hbody, hvalid⟩
    obtain rfl : tail = body ++ ['"'] := (List.cons.inj hbody).2
    obtain ⟨units, hunits⟩ := hvalid.exists_decodeUnits [] 1
    exact ⟨_, map_eq_ok_iff.2 ⟨units, hunits, rfl⟩⟩

end Literal

/-! ## Integers -/

theorem Decimal.exists_toNat_iff {digits : List Char} :
    (∃ n, toNat digits = .ok n) ↔ digits.length ≤ maxDigits := by
  rw [toNat]
  split
  · next hle => exact iff_of_true ⟨_, rfl⟩ hle
  · next hgt => exact iff_of_false (by rintro ⟨_, ⟨⟩⟩) hgt

/-- **An integer token is converted unless it has too many digits**, leading zeros included. -/
theorem Numeral.exists_int_iff {lexeme rest : List Char}
    (h : TokenKind.int.scan (lexeme ++ rest) = some (lexeme, rest)) :
    (∃ n, int lexeme = .ok n) ↔ (lexeme.filter Char.isDigit).length ≤ Decimal.maxDigits := by
  obtain ⟨sign, digits, r, hsign, hdigits, rfl⟩ := Scanner.andThen_eq_some h
  obtain ⟨-, hne, hall⟩ := Scanner.many1_eq_some hdigits
  have hfilter : digits.filter Char.isDigit = digits := List.filter_eq_self.2 hall
  have hint : ∀ negative : Bool, splitSign (sign ++ digits) = (negative, digits) →
      ((∃ n, int (sign ++ digits) = .ok n) ↔ ∃ n, Decimal.toNat digits = .ok n) := by
    intro negative hsplit
    rw [int, hsplit]
    constructor
    · rintro ⟨n, hn⟩
      obtain ⟨k, hk, -⟩ := bind_eq_ok_iff.1 hn
      exact ⟨k, hk⟩
    · rintro ⟨k, hk⟩
      exact ⟨_, bind_eq_ok_iff.2 ⟨k, hk, rfl⟩⟩
  rw [List.filter_append, hfilter, List.length_append]
  rcases Scanner.optional_cases hsign with hminus | ⟨-, rfl, -⟩
  · obtain ⟨c, rfl, -, hc⟩ := Scanner.one_eq_some hminus
    obtain rfl : c = '-' := eq_of_beq hc
    rw [hint true rfl, Decimal.exists_toNat_iff]
    exact iff_of_eq (congrArg (· ≤ Decimal.maxDigits) (Nat.zero_add _).symm)
  · obtain ⟨c, cs, rfl⟩ := List.exists_cons_of_ne_nil hne
    have hdigit := hall c List.mem_cons_self
    have hsplit : splitSign (c :: cs) = (false, c :: cs) := by
      rw [splitSign]
      all_goals
        rintro cs' ⟨⟩
        exact absurd hdigit (by decide)
    rw [hint false hsplit, Decimal.exists_toNat_iff]
    exact iff_of_eq (congrArg (· ≤ Decimal.maxDigits) (Nat.zero_add _).symm)

/-! ## Tokens -/

/-- A token whose text denotes something. -/
structure Token.Convertible (t : Token) : Prop where
  string : t.kind = .string → Literal.IsLiteral t.text.toList
  int : t.kind = .int → (t.text.toList.filter Char.isDigit).length ≤ Decimal.maxDigits

theorem Token.Lexed.exists_ofToken_iff {t : Token} (h : t.Lexed) :
    (∃ operand, SourceOperand.ofToken t = .ok operand) ↔ t.Convertible := by
  obtain ⟨⟨hkind, hline⟩, rest, hscan⟩ := h
  obtain ⟨kind, text, position⟩ := t
  dsimp only at hkind hline hscan
  cases kind with
  | int =>
    constructor
    · rintro ⟨operand, hoperand⟩
      obtain ⟨n, hn, -⟩ := bind_eq_ok_iff.1 hoperand
      exact ⟨nofun, fun _ => (Numeral.exists_int_iff hscan).1 ⟨n, mapError_eq_ok_iff.1 hn⟩⟩
    · intro h
      obtain ⟨n, hn⟩ := (Numeral.exists_int_iff hscan).2 (h.int rfl)
      exact ⟨_, bind_eq_ok_iff.2 ⟨n, mapError_eq_ok_iff.2 hn, rfl⟩⟩
  | string =>
    constructor
    · rintro ⟨operand, hoperand⟩
      obtain ⟨s, hs, -⟩ := bind_eq_ok_iff.1 hoperand
      exact ⟨fun _ => (Literal.exists_decode_iff hscan).1 ⟨s, mapError_eq_ok_iff.1 hs⟩, nofun⟩
    · intro h
      obtain ⟨s, hs⟩ := (Literal.exists_decode_iff hscan).2 (h.string rfl)
      exact ⟨_, bind_eq_ok_iff.2 ⟨s, mapError_eq_ok_iff.2 hs, rfl⟩⟩
  | _ => exact iff_of_true ⟨_, rfl⟩ ⟨nofun, nofun⟩

/-! ## Faults of the input

A computation settles if it comes to a result or to a fault that is reported; the other errors are
those that escape. -/

/-- The errors that a text which cannot be read is meant to end in. -/
inductive Error.IsInputFault : Error → Prop
  | syntaxFault (fault : SyntaxFault) : IsInputFault (.syntaxFault fault)
  | moduleFault (fault : ModuleFault) : IsInputFault (.moduleFault fault)

/-- A computation that has a result or finds a fault of the input. -/
def Settles {α : Type} (x : Except Error α) : Prop := ∀ e, x = .error e → e.IsInputFault

section Settles

variable {α β : Type} {x : Except Error α} {f : α → Except Error β}

theorem settles_ok (a : α) : Settles (.ok a : Except Error α) := nofun

theorem settles_bind : Settles (x >>= f) ↔ Settles x ∧ ∀ a, x = .ok a → Settles (f a) := by
  cases x with
  | error e =>
    have hsame : Settles (.error e >>= f) ↔ Settles (.error e : Except Error α) :=
      ⟨fun h e' he => h e' (by cases he; rfl), fun h e' he => h e' (by cases he; rfl)⟩
    rw [hsame]
    exact (and_iff_left nofun).symm
  | ok a =>
    refine ⟨fun h => ⟨settles_ok a, ?_⟩, fun h => h.2 a rfl⟩
    rintro a' ⟨⟩
    exact h

theorem Settles.bind (hx : Settles x) (hf : ∀ a, Settles (f a)) : Settles (x >>= f) :=
  settles_bind.2 ⟨hx, fun a _ => hf a⟩

/-- An error that is none of the input is no way to settle. -/
theorem settles_mapError_iff {ε : Type} {g : ε → Error} {x : Except ε α}
    (hg : ∀ e, ¬ (g e).IsInputFault) : Settles (x.mapError g) ↔ ∃ a, x = .ok a := by
  cases x with
  | error e => exact iff_of_false (fun h => hg e (h _ rfl)) (by rintro ⟨_, ⟨⟩⟩)
  | ok a => exact iff_of_true nofun ⟨a, rfl⟩

theorem settles_foldlM {f : β → α → Except Error β} {xs : List α}
    (h : ∀ b a, Settles (f b a)) (b : β) : Settles (xs.foldlM f b) := by
  induction xs generalizing b with
  | nil => exact settles_ok b
  | cons a xs ih =>
    rw [List.foldlM_cons]
    exact (h b a).bind ih

end Settles

/-! ## Numbering -/

namespace Numbering

/-- A name that is the number of an id. -/
structure IsIdNumber (name : String) : Prop where
  short : name.toList.length ≤ Decimal.maxDigits
  pos : 0 < Nat.ofDigitChars 10 name.toList 0
  le : Nat.ofDigitChars 10 name.toList 0 ≤ Settings.maxIdWord

/-- Numbers of which none is too long.  One that is no id puts an end to the numbering, and those
behind it may be as long as they like. -/
def Readable : List String → Prop
  | [] => True
  | name :: names =>
    name.toList.length ≤ Decimal.maxDigits ∧ (IsIdNumber name → Readable names)

theorem exists_numericId_iff {name : String} (line : Nat) :
    (∃ id, numericId name line = .ok id) ↔ IsIdNumber name := by
  constructor
  · rintro ⟨id, hid⟩
    obtain ⟨k, hk, hpos, hle, -⟩ := numericId_eq_ok_iff.1 hid
    have hshort := Decimal.exists_toNat_iff.1 ⟨k, hk⟩
    rw [Decimal.toNat, if_pos hshort] at hk
    cases hk
    exact ⟨hshort, hpos, hle⟩
  · rintro ⟨hshort, hpos, hle⟩
    exact ⟨_, numericId_eq_ok_iff.2 ⟨_, if_pos hshort, hpos, hle, rfl⟩⟩

theorem settles_numericId_iff {name : String} {line : Nat} :
    Settles (numericId name line) ↔ name.toList.length ≤ Decimal.maxDigits := by
  have hlift : Settles (liftM (Decimal.toNat name.toList) : Except Error Nat) ↔
      ∃ k, Decimal.toNat name.toList = .ok k :=
    settles_mapError_iff fun _ h => by cases h
  rw [numericId, settles_bind, hlift, Decimal.exists_toNat_iff]
  refine and_iff_left fun k _ => ?_
  split
  · exact settles_ok _
  · rintro e ⟨⟩
    exact .syntaxFault _

theorem settles_ofInstructions_iff {is : List SourceInstruction} :
    Settles (ofInstructions is) ↔
      Readable ((is.flatMap SourceInstruction.references).filter isNumeric) := by
  have hnames : (is.flatMap SourceInstruction.references).filter isNumeric
      = ((is.flatMap fun i => i.references.map (·, i.line)).filter
          fun reference => isNumeric reference.1).map Prod.fst := by
    have hfst : is.flatMap SourceInstruction.references
        = (is.flatMap fun i => i.references.map (·, i.line)).map Prod.fst := by
      simp [List.map_flatMap, Function.comp_def]
    rw [hfst, List.filter_map]
    rfl
  rw [hnames, ofInstructions, List.partition_eq_filter_filter]
  generalize (is.flatMap fun i => i.references.map (·, i.line)).filter
    (fun reference => isNumeric reference.1) = numeric
  dsimp only
  rw [settles_bind]
  refine (and_iff_left fun _ _ => settles_ok _).trans ?_
  induction numeric with
  | nil => exact iff_of_true (settles_ok _) trivial
  | cons reference numeric ih =>
    obtain ⟨name, line⟩ := reference
    rw [List.mapM_cons, settles_bind, settles_bind, settles_numericId_iff, List.map_cons, Readable]
    refine and_congr (and_iff_left fun _ _ => settles_ok _) ?_
    rw [← exists_numericId_iff line, ← ih]
    constructor
    · rintro h ⟨id, hid⟩
      exact (settles_bind.1 (h (name, id) (bind_eq_ok_iff.2 ⟨id, hid, rfl⟩))).1
    · intro h entry hentry
      obtain ⟨id, hid, -⟩ := bind_eq_ok_iff.1 hentry
      exact (h ⟨id, hid⟩).bind fun _ => settles_ok _

end Numbering

/-! ## Statements -/

/-- The name in an id token. -/
def Token.name? (t : Token) : Option String :=
  if t.kind = .id then some (LineState.idName t.text) else none

/-- The names in a statement, the result first. -/
def Statement.references (s : Statement) : List String :=
  s.result.toList ++ s.operands.filterMap Token.name?

/-- Statements of which every token denotes something. -/
structure Statement.Convertible (statements : List Statement) : Prop where
  tokens : ∀ s ∈ statements, ∀ t ∈ s.operands, t.Convertible
  names : Numbering.Readable
    ((statements.flatMap Statement.references).filter Numbering.isNumeric)

theorem SourceOperand.name?_of_ofToken {t : Token} {operand : SourceOperand}
    (h : ofToken t = .ok operand) :
    operand.name? = t.name? := by
  obtain ⟨kind, text, position⟩ := t
  rw [ofToken] at h
  cases kind with
  | int | string =>
    obtain ⟨value, -, heq⟩ := bind_eq_ok_iff.1 h
    cases heq
    rfl
  | _ =>
    cases h
    rfl

namespace SourceInstruction

theorem references_of_ofStatement {s : Statement} {i : SourceInstruction}
    (h : ofStatement s = .ok i) : i.references = s.references := by
  rw [ofStatement, bind_eq_ok_iff] at h
  obtain ⟨operands, hoperands, heq⟩ := h
  cases heq
  refine congrArg (s.result.toList ++ ·) ?_
  have hnames := map_eq_of_mapM hoperands fun t operand => SourceOperand.name?_of_ofToken
  rw [← Function.id_comp SourceOperand.name?, ← List.filterMap_map, hnames, List.filterMap_map]
  rfl

theorem flatMap_references {statements : List Statement} {is : List SourceInstruction}
    (h : statements.mapM ofStatement = .ok is) :
    is.flatMap references = statements.flatMap Statement.references := by
  rw [List.flatMap_def, List.flatMap_def,
    map_eq_of_mapM h fun s i => references_of_ofStatement]

theorem exists_ofStatement_iff {s : Statement} (hs : s.Lexed) :
    (∃ i, ofStatement s = .ok i) ↔ ∀ t ∈ s.operands, t.Convertible := by
  constructor
  · rintro ⟨i, hi⟩ t ht
    obtain ⟨operands, hoperands, -⟩ := bind_eq_ok_iff.1 hi
    obtain ⟨operand, -, hoperand⟩ := exists_result_of_mem hoperands ht
    exact (hs.operands t ht).exists_ofToken_iff.1 ⟨operand, hoperand⟩
  · intro h
    obtain ⟨operands, hoperands⟩ := exists_mapM_eq_ok fun t ht =>
      (hs.operands t ht).exists_ofToken_iff.2 (h t ht)
    exact ⟨_, bind_eq_ok_iff.2 ⟨operands, hoperands, rfl⟩⟩

end SourceInstruction

/-! ## Modules

Once all tokens are converted and all numbers are read, nothing but faults of the input can come
up. -/

namespace Assembly

theorem settles_resolve (ids : Numbering) (i : SourceInstruction) : Settles (resolve ids i) := by
  intro e he
  rw [resolve] at he
  split at he
  · cases he
  · split at he
    · split at he
      · cases he
      · cases he
        exact .syntaxFault _
    · cases he

namespace Builder

theorem settles_add (b : Builder) (i : Instruction) (line : Nat) : Settles (b.add i line) := by
  intro e he
  cases add_eq_error_iff.1 he with
  | functionTwice | blockTwice => exact .moduleFault _
  | _ => exact .syntaxFault _

theorem settles_finish (b : Builder) : Settles b.finish := by
  rw [finish]
  split
  · exact settles_ok _
  · rintro e ⟨⟩
    exact .syntaxFault _

end Builder

theorem settles_build_iff {settings : Settings} {is : List SourceInstruction} :
    Settles (build settings is) ↔ Numbering.Readable
      ((is.flatMap SourceInstruction.references).filter Numbering.isNumeric) := by
  rw [build, settles_bind, Numbering.settles_ofInstructions_iff]
  refine and_iff_left fun ids _ => ?_
  refine (settles_foldlM (fun b i => ?_) _).bind fun done => done.settles_finish
  exact (settles_resolve ids i).bind fun j => b.settles_add j i.line

/-- **Reading a text fails for a fault of the text**, unless one of its tokens denotes nothing. -/
theorem settles_parse_iff {settings : Settings} {source : String} :
    Settles (parse settings source) ↔ ∀ statements, Statement.ofText source = .ok statements →
      Statement.Convertible statements := by
  rw [parse, settles_bind]
  have htext : Settles ((Statement.ofText source).mapError Error.syntaxFault) := by
    intro e he
    obtain ⟨fault, -, rfl⟩ := mapError_eq_error_iff.1 he
    exact .syntaxFault fault
  refine (and_iff_right htext).trans (forall_congr' fun statements => ?_)
  rw [mapError_eq_ok_iff]
  refine forall_congr' fun hstatements => ?_
  have hlexed := Statement.lexed_of_read .start hstatements
  rw [settles_bind, settles_mapError_iff fun _ h => by cases h]
  constructor
  · rintro ⟨⟨is, his⟩, hbuild⟩
    refine ⟨fun s hs => ?_, ?_⟩
    · obtain ⟨i, -, hi⟩ := exists_result_of_mem his hs
      exact (SourceInstruction.exists_ofStatement_iff (hlexed s hs)).1 ⟨i, hi⟩
    · rw [← SourceInstruction.flatMap_references his]
      exact settles_build_iff.1 (hbuild is (mapError_eq_ok_iff.2 his))
  · rintro ⟨htokens, hnames⟩
    refine ⟨exists_mapM_eq_ok fun s hs =>
      (SourceInstruction.exists_ofStatement_iff (hlexed s hs)).2 (htokens s hs), fun is his => ?_⟩
    rw [← SourceInstruction.flatMap_references (mapError_eq_ok_iff.1 his)] at hnames
    exact settles_build_iff.2 hnames

end Assembly

namespace Module

/-- Every integer of the module can be written. -/
def Listable (m : Module) : Prop :=
  ∀ i ∈ m.instructions, ∀ operand ∈ i.operands, operand.Writable

theorem exists_text_iff {m : Module} : (∃ text, m.text = .ok text) ↔ m.Listable := by
  have hlines : (∃ text, m.text = .ok text) ↔
      ∃ lines, m.listed.mapM Instruction.text = .ok lines := by
    rw [text, lines_eq]
    constructor
    · rintro ⟨text, htext⟩
      obtain ⟨lines, hlines, -⟩ := bind_eq_ok_iff.1 htext
      exact ⟨lines, hlines⟩
    · rintro ⟨lines, hlines⟩
      exact ⟨_, bind_eq_ok_iff.2 ⟨lines, hlines, rfl⟩⟩
  rw [hlines]
  constructor
  · rintro ⟨lines, hlines⟩ i hi
    obtain ⟨line, -, hline⟩ := exists_result_of_mem hlines (mem_listed.2 (.inl hi))
    exact Instruction.exists_text_iff.1 ⟨line, hline⟩
  · intro h
    refine exists_mapM_eq_ok fun i hi => Instruction.exists_text_iff.2 ?_
    rcases mem_listed.1 hi with hi | ⟨label, -, rfl⟩ | ⟨f, -, rfl⟩
    · exact h i hi
    · exact List.forall_mem_nil _
    · exact List.forall_mem_nil _

end Module

/-! ## Reading and listing -/

namespace Assembly

/-- Reading a text ends in a module that can be listed, or in a fault of the text. -/
inductive Settled (settings : Settings) (source : String) : Prop
  | listed {m : Module} {text : String} (hparse : parse settings source = .ok m)
      (htext : m.text = .ok text)
  | faulty {e : Error} (hparse : parse settings source = .error e) (hfault : e.IsInputFault)

/-- **When reading a text and listing what was read ends as it is meant to.**  The other texts have
a string that is no literal, an integer or the number of an id that is too long to be read, or an
integer in hexadecimal digits that is too long to be written. -/
theorem settled_iff (settings : Settings) (source : String) :
    Settled settings source ↔
      (∀ statements, Statement.ofText source = .ok statements →
        Statement.Convertible statements) ∧
      ∀ m, parse settings source = .ok m → m.Listable := by
  rw [← settles_parse_iff]
  constructor
  · rintro (⟨hparse, htext⟩ | ⟨hparse, hfault⟩)
    · rw [hparse]
      refine ⟨settles_ok _, ?_⟩
      rintro m ⟨⟩
      exact Module.exists_text_iff.1 ⟨_, htext⟩
    · rw [hparse]
      refine ⟨?_, nofun⟩
      rintro e ⟨⟩
      exact hfault
  · rintro ⟨hsettles, hlistable⟩
    cases hparse : parse settings source with
    | error e => exact .faulty hparse (hsettles e hparse)
    | ok m =>
      obtain ⟨text, htext⟩ := Module.exists_text_iff.2 (hlistable m hparse)
      exact .listed hparse htext

theorem not_settled_escape : ¬ Settled {} "OpName %1 \"\\q\"\n" := by
  have hparse : parse {} "OpName %1 \"\\q\"\n" = .error (.operand (.string (.escape 1))) := by
    rfl
  rintro (⟨hok, -⟩ | ⟨herror, hfault⟩)
  · cases hparse.symm.trans hok
  · cases hparse.symm.trans herror
    cases hfault

end Assembly
end ShiftBarrier
