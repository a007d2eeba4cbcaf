import ShiftBarrier.Text.Quoted

/-!
# String literals

A string literal of an assembly text is a sequence of code points, lone surrogates included.  It is
written between double quotes in ASCII: other characters become `\u` escapes of their UTF-16 units.

* `Literal.encode` writes a literal, `Literal.decode` reads one.
* `Literal.splitPairs` and `Literal.joinPairs` go from code points to UTF-16 units and back.
* `Literal.Fault` says what is wrong with a text that is no literal, and where.
-/

set_option autoImplicit false

namespace ShiftBarrier

/-- A Unicode code point; unlike a `Char` it may be a surrogate. -/
abbrev CodePoint := Fin 0x110000

namespace Literal

/-- The first unit of a surrogate pair. -/
def isHighSurrogate (n : Nat) : Bool := 0xd800 ≤ n && n < 0xdc00

/-- The second unit of a surrogate pair. -/
def isLowSurrogate (n : Nat) : Bool := 0xdc00 ≤ n && n < 0xe000

/-- The code point of a surrogate pair. -/
def joinPair (high low : Nat) : CodePoint :=
  Fin.ofNat 0x110000 (0x10000 + (high - 0xd800) * 0x400 + (low - 0xdc00))

/-- Joins every high surrogate with a low one that follows it directly. -/
def joinPairs : List CodePoint → List CodePoint
  | high :: low :: rest =>
    if isHighSurrogate high && isLowSurrogate low then joinPair high low :: joinPairs rest
    else high :: joinPairs (low :: rest)
  | short => short

/-- The UTF-16 units of a code point. -/
def splitPair (c : CodePoint) : List CodePoint :=
  if c.val < 0x10000 then [c]
  else
    [Fin.ofNat 0x110000 (0xd800 + (c.val - 0x10000) / 0x400),
      Fin.ofNat 0x110000 (0xdc00 + (c.val - 0x10000) % 0x400)]

/-- The UTF-16 units of a string. -/
def splitPairs (s : List CodePoint) : List CodePoint := s.flatMap splitPair

/-! ## Escapes

A literal is JSON.  What is read may have escapes that are never written, such as `\/` or a
character in hexadecimal that could stand for itself. -/

/-- The letter that stands for a control character after a backslash. -/
def escapeLetters : List (Char × Nat) :=
  [('"', 0x22), ('\\', 0x5c), ('n', 0x0a), ('r', 0x0d), ('t', 0x09), ('f', 0x0c), ('b', 0x08)]

/-- The written form of one UTF-16 unit. -/
def encodeUnit (u : CodePoint) : List Char :=
  match escapeLetters.find? (·.2 == u.val) with
  | some (letter, _) => ['\\', letter]
  | none =>
    if 0x20 ≤ u.val ∧ u.val ≤ 0x7e then [Char.ofNat u]
    else '\\' :: 'u' :: Text.hexDigits 4 u

/-- The literal with its quotes. -/
def encode (s : List CodePoint) : List Char :=
  '"' :: (splitPairs s).flatMap encodeUnit ++ ['"']

/-- What is wrong with a literal, at a position counted from its opening quote. -/
inductive Fault
  | escape (position : Nat)
  | unicodeEscape (position : Nat)
  | controlCharacter (position : Nat)
  | unterminated
  deriving DecidableEq, Repr

/-- A message with a place.  A literal is one line. -/
private def located (what : String) (position : Nat) : String :=
  s!"{what}: line 1 column {position + 1} (char {position})"

/-- The text of a fault. -/
def Fault.message : Fault → String
  | .escape p => located "Invalid \\escape" p
  | .unicodeEscape p => located "Invalid \\uXXXX escape" p
  | .controlCharacter p => located "Invalid control character at" p
  | .unterminated => located "Unterminated string starting at" 0

/-- The value of a hexadecimal digit. -/
def hexValue? (c : Char) : Option Nat :=
  if '0' ≤ c ∧ c ≤ '9' then some (c.toNat - '0'.toNat)
  else if 'a' ≤ c ∧ c ≤ 'f' then some (c.toNat - 'a'.toNat + 10)
  else if 'A' ≤ c ∧ c ≤ 'F' then some (c.toNat - 'A'.toNat + 10)
  else none

/-- The value of four hexadecimal digits. -/
def hexUnit? (a b c d : Char) : Option CodePoint := do
  return Fin.ofNat 0x110000
    ((((← hexValue? a) * 16 + (← hexValue? b)) * 16 + (← hexValue? c)) * 16 + (← hexValue? d))

/-- The character a single-letter escape stands for; a slash may be escaped too. -/
def unescape? (letter : Char) : Option CodePoint :=
  if letter == '/' then some (Fin.ofNat 0x110000 0x2f)
  else (escapeLetters.lookup letter).map (Fin.ofNat 0x110000)

/-- Reads the units up to the closing quote.  `position` is that of the next character. -/
def decodeUnits : List Char → Nat → Except Fault (List CodePoint)
  | [], _ => .error .unterminated
  | '"' :: _, _ => .ok []
  | '\\' :: 'u' :: rest, position =>
    match rest with
    | a :: b :: c :: d :: rest =>
      match hexUnit? a b c d with
      | some u => (decodeUnits rest (position + 6)).map (u :: ·)
      | none => .error (.unicodeEscape (position + 1))
    | _ => .error (.unicodeEscape (position + 1))
  | '\\' :: letter :: rest, position =>
    match unescape? letter with
    | some u => (decodeUnits rest (position + 2)).map (u :: ·)
    | none => .error (.escape position)
  | ['\\'], _ => .error .unterminated
  | c :: rest, position =>
    if c.toNat < 0x20 then .error (.controlCharacter position)
    else (decodeUnits rest (position + 1)).map (Fin.ofNat 0x110000 c.toNat :: ·)

/-- Reads a literal with its quotes. -/
def decode : List Char → Except Fault (List CodePoint)
  | '"' :: rest => (decodeUnits rest 1).map joinPairs
  | _ => .error .unterminated

end Literal
end ShiftBarrier
