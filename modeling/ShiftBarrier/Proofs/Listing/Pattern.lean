import ShiftBarrier.Proofs.Listing.Line

/-!
# String literals by their regular expression

The strings of an assembly text are those of the regular expression `".*?(?<!\\)(\\\\)*?"`: they
go up to the next quote behind an even number of backslashes.

* `Pattern` is a regular expression with lazy repetitions and a look behind.  `Pattern.ends` lists
  where its matches end, in the order in which backtracking comes to them, and `Pattern.found` is
  the first of these places.
* `Pattern.found_escapedString`: the scanner of strings stops where the expression does, in every
  text.
* `Statement.readRest_literal`: a literal is read as one operand, and the text goes on behind it.
* `Operand.literal_codec`: a written string is one token, and the token is converted to the string.
-/

set_option autoImplicit false

namespace ShiftBarrier

/-- A regular expression. -/
inductive Pattern
  | one (p : Char → Bool)
  /-- Nothing, unless this character stands before it. -/
  | notBehind (c : Char)
  | seq (first second : Pattern)
  /-- As few repetitions as will do. -/
  | lazyStar (body : Pattern)

namespace Pattern

/-- A place in a text. -/
structure Cursor where
  /-- The characters before it, the nearest one first. -/
  behind : List Char
  ahead : List Char
  deriving DecidableEq, Repr

/-- The places that up to `fuel` steps lead to: each of them comes before those that one more step
leads to from there. -/
def repeated (step : Cursor → List Cursor) : Nat → Cursor → List Cursor
  | 0, start => [start]
  | fuel + 1, start => start :: (step start).flatMap (repeated step fuel)

/-- The ends of the matches that start at a place, in the order in which they are tried. -/
def ends : Pattern → Cursor → List Cursor
  | .one _, ⟨_, []⟩ => []
  | .one p, ⟨behind, c :: cs⟩ => if p c then [⟨c :: behind, cs⟩] else []
  | .notBehind c, start => if start.behind.head? = some c then [] else [start]
  | .seq first second, start => (first.ends start).flatMap second.ends
  | .lazyStar body, start => repeated body.ends start.ahead.length start

/-- The end of the match that is found at a place. -/
def found (a : Pattern) (start : Cursor) : Option Cursor := (a.ends start).head?

/-! ## Repetitions

Matches are listed in the order in which a backtracking matcher tries them, and the first in the
list is the one that it finds. -/

variable {a b : Pattern} {p : Char → Bool} {c : Char} {behind cs : List Char}

theorem ends_one_of_pos (hc : p c = true) :
    (one p).ends ⟨behind, c :: cs⟩ = [⟨c :: behind, cs⟩] := if_pos hc

theorem ends_one_of_neg (hc : ¬ p c = true) : (one p).ends ⟨behind, c :: cs⟩ = [] := if_neg hc

theorem ends_seq (a b : Pattern) (start : Cursor) :
    (a.seq b).ends start = (a.ends start).flatMap b.ends := rfl

/-- No match of the pattern is empty. -/
def Advances (a : Pattern) : Prop :=
  ∀ start, ∀ stop ∈ a.ends start, stop.ahead.length < start.ahead.length

theorem advances_one (p : Char → Bool) : (one p).Advances := by
  rintro ⟨behind, ahead⟩ stop hstop
  cases ahead with
  | nil => cases hstop
  | cons c cs =>
    by_cases hc : p c = true
    · rw [ends_one_of_pos hc, List.mem_singleton] at hstop
      rw [hstop]
      exact Nat.lt_succ_self _
    · rw [ends_one_of_neg hc] at hstop
      cases hstop

theorem Advances.seq (ha : a.Advances) (hb : b.Advances) : (a.seq b).Advances := by
  intro start stop hstop
  obtain ⟨middle, hmiddle, hstop⟩ := List.mem_flatMap.1 hstop
  exact (hb middle stop hstop).trans (ha start middle hmiddle)

/-- There are no more repetitions than characters. -/
theorem repeated_succ (h : a.Advances) {n : Nat} {start : Cursor} (hn : start.ahead.length ≤ n) :
    repeated a.ends (n + 1) start = repeated a.ends n start := by
  induction n generalizing start with
  | zero =>
    have hnone : a.ends start = [] := List.eq_nil_iff_forall_not_mem.2 fun stop hstop =>
      Nat.not_lt_zero _ ((h start stop hstop).trans_le hn)
    rw [repeated, repeated, hnone, List.flatMap_nil]
  | succ n ih =>
    rw [repeated, repeated]
    congr 1
    exact List.flatMap_congr fun stop hstop =>
      ih (Nat.lt_succ_iff.1 ((h start stop hstop).trans_le hn))

theorem repeated_of_le (h : a.Advances) {n : Nat} {start : Cursor} (hn : start.ahead.length ≤ n) :
    repeated a.ends n start = (lazyStar a).ends start := by
  induction n, hn using Nat.le_induction with
  | base => rfl
  | succ n hn ih => exact (repeated_succ h hn).trans ih

/-- A lazy repetition is left before it goes on. -/
theorem ends_lazyStar (h : a.Advances) (start : Cursor) :
    (lazyStar a).ends start = start :: (a.ends start).flatMap (lazyStar a).ends := by
  rw [ends, ← repeated_succ h le_rfl, repeated]
  congr 1
  exact List.flatMap_congr fun stop hstop => repeated_of_le h (h start stop hstop).le

theorem ends_lazyStar_seq (h : a.Advances) (b : Pattern) (start : Cursor) :
    ((lazyStar a).seq b).ends start
      = b.ends start ++ (a.ends start).flatMap ((lazyStar a).seq b).ends := by
  rw [ends_seq, ends_lazyStar h, List.flatMap_cons, List.flatMap_assoc]
  rfl

/-! ## The expression for strings

The expression looks behind itself for a backslash and then counts pairs of backslashes. The scanner
does without: it takes a backslash together with what follows it. -/

/-- One given character. -/
def char (c : Char) : Pattern := one (· == c)

/-- Any character of a line. -/
def dot : Pattern := one (· != '\n')

/-- The expression `\\\\`. -/
def backslashes : Pattern := (char '\\').seq (char '\\')

/-- The expression `(\\\\)*?"`. -/
def closing : Pattern := (lazyStar backslashes).seq (char '"')

/-- The expression `.*?(?<!\\)(\\\\)*?"`. -/
def body : Pattern := (lazyStar dot).seq ((notBehind '\\').seq closing)

/-- The expression `".*?(?<!\\)(\\\\)*?"`. -/
def escapedString : Pattern := (char '"').seq body

theorem ends_char_self (c : Char) (behind cs : List Char) :
    (char c).ends ⟨behind, c :: cs⟩ = [⟨c :: behind, cs⟩] := ends_one_of_pos (beq_self_eq_true c)

theorem ends_char_of_ne {d : Char} (h : d ≠ c) (behind cs : List Char) :
    (char c).ends ⟨behind, d :: cs⟩ = [] := ends_one_of_neg (by simpa using h)

theorem ends_dot (h : c ≠ '\n') (behind cs : List Char) :
    dot.ends ⟨behind, c :: cs⟩ = [⟨c :: behind, cs⟩] := ends_one_of_pos (by simpa using h)

theorem ends_closing (start : Cursor) :
    closing.ends start = (char '"').ends start ++ (backslashes.ends start).flatMap closing.ends :=
  ends_lazyStar_seq ((advances_one _).seq (advances_one _)) _ start

theorem ends_closing_backslashes (behind cs : List Char) :
    closing.ends ⟨behind, '\\' :: '\\' :: cs⟩ = closing.ends ⟨'\\' :: '\\' :: behind, cs⟩ := by
  rw [ends_closing, ends_char_of_ne (by decide), backslashes, ends_seq, ends_char_self,
    List.flatMap_singleton, ends_char_self, List.flatMap_singleton, List.nil_append]

/-- A quote comes next, or two backslashes. -/
theorem ends_closing_eq_nil (hquote : c ≠ '"') (hescape : c = '\\' → cs.head? ≠ some '\\') :
    closing.ends ⟨behind, c :: cs⟩ = [] := by
  have hbackslashes : backslashes.ends ⟨behind, c :: cs⟩ = [] := by
    rw [backslashes, ends_seq]
    by_cases hc : c = '\\'
    · rw [hc, ends_char_self, List.flatMap_singleton]
      cases cs with
      | nil => rfl
      | cons d cs => exact ends_char_of_ne (fun hd => hescape hc (congrArg some hd)) _ _
    · rw [ends_char_of_ne hc, List.flatMap_nil]
  rw [ends_closing, ends_char_of_ne hquote, hbackslashes, List.flatMap_nil, List.nil_append]

/-- The ends that are tried from a place on that no backslash hides. -/
def onward (start : Cursor) : List Cursor :=
  closing.ends start ++ (dot.ends start).flatMap body.ends

theorem ends_body (start : Cursor) :
    body.ends start
      = ((notBehind '\\').seq closing).ends start ++ (dot.ends start).flatMap body.ends :=
  ends_lazyStar_seq (advances_one _) _ start

theorem ends_body_of_ne (hc : c ≠ '\\') (cs : List Char) :
    body.ends ⟨c :: behind, cs⟩ = onward ⟨c :: behind, cs⟩ := by
  have hopen : (notBehind '\\').ends ⟨c :: behind, cs⟩ = [⟨c :: behind, cs⟩] :=
    if_neg fun hhead => hc (Option.some.inj hhead)
  rw [ends_body, ends_seq, hopen, List.flatMap_singleton, onward]

theorem ends_body_backslash (behind cs : List Char) :
    body.ends ⟨'\\' :: behind, cs⟩ = (dot.ends ⟨'\\' :: behind, cs⟩).flatMap body.ends := by
  have hhidden : (notBehind '\\').ends ⟨'\\' :: behind, cs⟩ = [] := if_pos rfl
  rw [ends_body, ends_seq, hhidden, List.flatMap_nil, List.nil_append]

theorem head?_onward_quote (behind cs : List Char) :
    (onward ⟨behind, '"' :: cs⟩).head? = some ⟨'"' :: behind, cs⟩ := by
  rw [onward, ends_closing, ends_char_self]
  rfl

theorem onward_newline (behind cs : List Char) : onward ⟨behind, '\n' :: cs⟩ = [] := by
  rw [onward, ends_closing_eq_nil (by decide) fun hc => absurd hc (by decide)]
  rfl

theorem onward_plain (hquote : c ≠ '"') (hbackslash : c ≠ '\\') (hnewline : c ≠ '\n')
    (behind cs : List Char) : onward ⟨behind, c :: cs⟩ = onward ⟨c :: behind, cs⟩ := by
  rw [onward, ends_closing_eq_nil hquote fun hc => absurd hc hbackslash, ends_dot hnewline,
    List.flatMap_singleton, List.nil_append, ends_body_of_ne hbackslash]

/-- A backslash and the character it hides are passed together. -/
theorem onward_escape (behind cs : List Char) :
    onward ⟨behind, '\\' :: c :: cs⟩
      = if c = '\n' then [] else onward ⟨c :: '\\' :: behind, cs⟩ := by
  have hhidden : (dot.ends ⟨behind, '\\' :: c :: cs⟩).flatMap body.ends
      = (dot.ends ⟨'\\' :: behind, c :: cs⟩).flatMap body.ends := by
    rw [ends_dot (by decide), List.flatMap_singleton, ends_body_backslash]
  rw [onward, hhidden]
  by_cases hnewline : c = '\n'
  · rw [if_pos hnewline, hnewline, ends_closing_eq_nil (by decide) fun _ => by simp]
    rfl
  rw [if_neg hnewline, ends_dot hnewline, List.flatMap_singleton]
  by_cases hbackslash : c = '\\'
  · -- The second backslash closes a pair, so that the run of backslashes may end here.
    rw [hbackslash, ends_closing_backslashes, ends_body_backslash, onward]
  · rw [ends_closing_eq_nil (by decide) fun _ => by simpa using hbackslash, List.nil_append,
      ends_body_of_ne hbackslash]

open Scanner

/-- The scanner goes from one place that no backslash hides to the next.  Behind each of them the
expression is left with the ends in `onward`, whatever was skipped on the way. -/
theorem head?_onward (behind cs : List Char) :
    (onward ⟨behind, cs⟩).head?
      = (stringTail cs).map fun (l, r) => ⟨l.reverse ++ behind, r⟩ := by
  fun_induction stringTail cs generalizing behind with
  | case1 cs => exact head?_onward_quote behind cs
  | case2 c cs hc => rw [onward_escape, if_pos (eq_of_beq hc)]; rfl
  | case3 c cs hc ih =>
    rw [onward_escape, if_neg (by simpa using hc), ih, Option.map_map]
    simp [Function.comp_def]
  | case4 c cs hquote hescape hc => rw [eq_of_beq hc, onward_newline]; rfl
  | case5 c cs hquote hescape hc ih =>
    by_cases hbackslash : c = '\\'
    · -- A backslash with nothing to hide is the end of the text.
      cases cs with
      | nil => rw [hbackslash]; rfl
      | cons d cs => exact absurd rfl (hescape d cs hbackslash)
    · rw [onward_plain hquote hbackslash (by simpa using hc), ih, Option.map_map]
      simp [Function.comp_def]
  | case6 => rfl

/-- **The strings of a text are those of the regular expression**, wherever in the text they
start. -/
theorem found_escapedString (behind text : List Char) :
    escapedString.found ⟨behind, text⟩
      = (TokenKind.string.scan text).map fun (l, r) => ⟨l.reverse ++ behind, r⟩ := by
  rw [found, escapedString, ends_seq]
  cases text with
  | nil => rfl
  | cons c cs =>
    by_cases hc : c = '"'
    · rw [hc, ends_char_self, List.flatMap_singleton, ends_body_of_ne (by decide), head?_onward,
        TokenKind.scan, andThen_of_eq_some (char_self _ _), Option.map_map]
      simp [Function.comp_def]
    · rw [ends_char_of_ne hc, TokenKind.scan, andThen_of_eq_none (char_of_ne hc _)]
      rfl

/-- The first quote is hidden; the second is not, since the backslash before it is hidden. -/
example : escapedString.found ⟨[' '], "\"\\\"\\\\\" \"".toList⟩
    = some ⟨"\"\\\\\"\\\" ".toList, " \"".toList⟩ := by decide

end Pattern

/-! ## Literals in an operand position -/

namespace Literal

/-- A literal is no other kind of token. -/
theorem scan_encode_append (kind : TokenKind) (s : List CodePoint) (rest : List Char) :
    kind.scan (encode s ++ rest) = if kind = .string then some (encode s, rest) else none := by
  by_cases hkind : kind = .string
  · rw [if_pos hkind, hkind, scan_encode]
  · rw [if_neg hkind]
    refine kind.starts_scan.eq_none ?_ _
    cases kind with
    | string => exact absurd rfl hkind
    | _ => rfl

theorem found_encode (s : List CodePoint) (behind rest : List Char) :
    Pattern.escapedString.found ⟨behind, encode s ++ rest⟩
      = some ⟨(encode s).reverse ++ behind, rest⟩ := by
  rw [Pattern.found_escapedString, scan_encode]
  rfl

theorem decode_encode_iff {s : List CodePoint} : decode (encode s) = .ok s ↔ Joined s :=
  ⟨joined_of_decode, decode_encode⟩

end Literal

namespace Statement

open Literal Scanner TokenKind

/-- A literal is read as one operand, and the text goes on behind it. -/
theorem readRest_literal (statement : Statement) (position : Position) (s : List CodePoint)
    (rest : List Char) :
    readRest (.operands statement) position (encode s ++ rest)
      = readRest (.operands { statement with
            operands := ⟨.string, String.ofList (encode s), position⟩ :: statement.operands })
          (position.advance (encode s)) rest := by
  have hmatch : firstMatch (byPriority.filter (LineState.operands statement).accepts) _ = _ :=
    firstMatch_encode s rest
  have hkind : TokenKind.string ≠ .newline := by decide
  rw [readRest_token hmatch, LineState.push, if_neg hkind, map_nil_append]

end Statement

namespace Operand

open Literal Statement

/-- A token of a string denotes what is decoded. -/
theorem ofToken_string_iff {printed : String} {position : Position} {s : List CodePoint} :
    SourceOperand.ofToken ⟨.string, printed, position⟩ = .ok (.value (.string s)) ↔
      decode printed.toList = .ok s := by
  rw [SourceOperand.ofToken, bind_eq_ok_iff]
  constructor
  · rintro ⟨t, hdecode, heq⟩
    cases heq
    exact mapError_eq_ok_iff.1 hdecode
  · exact fun hdecode => ⟨s, mapError_eq_ok_iff.2 hdecode, rfl⟩

/-- **A written string is read as what it is.**  In an operand position its text is a token of the
kind of strings and of no other, it ends where the regular expression stops, and reading goes on
behind it, whatever follows.  The token is converted to the string, if no surrogate pair of the
string is left in two. -/
theorem literal_codec (s : List CodePoint) (rest : List Char) (statement : Statement)
    (position : Position) :
    ∃ printed : String, (Operand.string s).text = .ok printed ∧
      (∀ behind, Pattern.escapedString.found ⟨behind, printed.toList ++ rest⟩
        = some ⟨printed.toList.reverse ++ behind, rest⟩) ∧
      (∀ kind : TokenKind, kind.scan (printed.toList ++ rest)
        = if kind = .string then some (printed.toList, rest) else none) ∧
      readRest (.operands statement) position (printed.toList ++ rest)
        = readRest (.operands { statement with
              operands := ⟨.string, printed, position⟩ :: statement.operands })
            (position.advance printed.toList) rest ∧
      (SourceOperand.ofToken ⟨.string, printed, position⟩ = .ok (.value (.string s)) ↔
        Literal.Joined s) := by
  refine ⟨String.ofList (encode s), rfl, ?_⟩
  rw [String.toList_ofList]
  refine ⟨fun behind => found_encode s behind rest, fun kind => scan_encode_append kind s rest,
    readRest_literal statement position s rest, ?_⟩
  rw [ofToken_string_iff, String.toList_ofList, decode_encode_iff]

/-- Quotes and backslashes, a line feed, a semicolon, a character beyond the first plane and two
surrogates that belong to no pair. -/
def awkward : List CodePoint :=
  [⟨0x22, by decide⟩, ⟨0x5c, by decide⟩, ⟨0x5c, by decide⟩, ⟨0x22, by decide⟩, ⟨0x0a, by decide⟩,
   ⟨0x3b, by decide⟩, ⟨0xd83d, by decide⟩, ⟨0x1f600, by decide⟩, ⟨0xdc00, by decide⟩]

/-- The literal of that string. -/
def awkwardText : String := "\"\\\"\\\\\\\\\\\"\\n;\\ud83d\\ud83d\\ude00\\udc00\""

theorem literal_codec_sample : Literal.Joined awkward ∧
    (Operand.string awkward).text = .ok awkwardText ∧
    TokenKind.string.scan (awkwardText.toList ++ " \"\"\n".toList)
      = some (awkwardText.toList, " \"\"\n".toList) ∧
    SourceOperand.ofToken ⟨.string, awkwardText, .start⟩ = .ok (.value (.string awkward)) := by
  have hjoined : Literal.Joined awkward := by
    rw [Literal.Joined]
    decide
  have htext : (Operand.string awkward).text = .ok awkwardText := by decide +kernel
  obtain ⟨printed, hprinted, -, hscan, -, hvalue⟩ :=
    literal_codec awkward " \"\"\n".toList ⟨none, "OpName", [], 1⟩ .start
  cases hprinted.symm.trans htext
  exact ⟨hjoined, htext, hscan .string, hvalue.2 hjoined⟩

end Operand
end ShiftBarrier
