/-!
# Tokens of an assembly text

* `TokenKind` lists the kinds of token, `TokenKind.byPriority` the order in which they are tried.
* `Scanner` splits a token off the front of a text; the scanner of each kind is `TokenKind.scan`.
* `Position` counts lines and columns from 1.
-/

set_option autoImplicit false

namespace ShiftBarrier

/-- The kinds of token.  The kinds of number are told apart by how they are written, not by what
they denote. -/
inductive TokenKind
  | id | equal | opcode | word | hexFloat | hex | float | int | string | newline
  deriving DecidableEq, Repr

namespace TokenKind

/-- The name of a kind in messages. -/
def name : TokenKind → String
  | .id => "ID"
  | .equal => "EQUAL"
  | .opcode => "OPCODE"
  | .word => "WORD"
  | .hexFloat => "HEX_FLOAT"
  | .hex => "HEX"
  | .float => "FLOAT"
  | .int => "INT"
  | .string => "ESCAPED_STRING"
  | .newline => "_NL"

/-- The kinds in the order in which they are tried: the first match wins, not the longest. -/
def byPriority : List TokenKind :=
  [.hexFloat, .opcode, .hex, .float, .int, .id, .word, .string, .equal, .newline]

end TokenKind

/-- A place in a text, as messages give it. -/
structure Position where
  line : Nat
  column : Nat
  deriving DecidableEq, Repr

namespace Position

/-- Where every text begins. -/
def start : Position := ⟨1, 1⟩

/-- Only a line feed ends a line. -/
def advance (p : Position) (text : List Char) : Position :=
  text.foldl (fun p c => if c == '\n' then ⟨p.line + 1, 1⟩ else ⟨p.line, p.column + 1⟩) p

end Position

/-- A token: its kind, the text it was read from and the place where that text begins. -/
structure Token where
  kind : TokenKind
  text : String
  position : Position
  deriving DecidableEq, Repr

/-! ## Scanners

The tokens are regular expressions.  A scanner gives the one match that is tried first, if there is
one; there is no going back into it. -/

/-- Splits a text into a lexeme at its front and the rest. -/
abbrev Scanner := List Char → Option (List Char × List Char)

namespace Scanner

/-- One character that satisfies `p`. -/
def one (p : Char → Bool) : Scanner
  | c :: cs => if p c then some ([c], cs) else none
  | [] => none

/-- The longest run of characters that satisfy `p`.  It may be empty, so it never fails. -/
def many (p : Char → Bool) : Scanner := fun cs => some (cs.takeWhile p, cs.dropWhile p)

/-- One scanner behind the other; nothing is taken unless both succeed. -/
def andThen (first second : Scanner) : Scanner := fun cs =>
  match first cs with
  | some (l, r) => (second r).map fun (l', r') => (l ++ l', r')
  | none => none

/-- The first scanner that succeeds.  The second is not tried once the first has matched: choices
are never revised. -/
def orElse (first second : Scanner) : Scanner := fun cs => (first cs).or (second cs)

/-- What `s` takes, or nothing. -/
def optional (s : Scanner) : Scanner := s.orElse fun cs => some ([], cs)

/-- A run of characters that satisfy `p`, which is not empty. -/
def many1 (p : Char → Bool) : Scanner := (one p).andThen (many p)

/-- One given character. -/
def char (c : Char) : Scanner := one (· == c)

/-- A string from behind its opening quote.  A backslash hides the character after it. -/
def stringTail : Scanner
  | '"' :: cs => some (['"'], cs)
  | '\\' :: c :: cs =>
    if c == '\n' then none else (stringTail cs).map fun (l, r) => ('\\' :: c :: l, r)
  | c :: cs => if c == '\n' then none else (stringTail cs).map fun (l, r) => (c :: l, r)
  | [] => none

/-- A run of line ends, each with or without a carriage return. -/
def lineEnds : List Char → List Char × List Char
  | '\n' :: cs => let (l, r) := lineEnds cs; ('\n' :: l, r)
  | '\r' :: '\n' :: cs => let (l, r) := lineEnds cs; ('\r' :: '\n' :: l, r)
  | cs => ([], cs)

/-- At least one line end.  Empty lines are part of the same token. -/
def lineEnds1 : Scanner := fun cs =>
  let (l, r) := lineEnds cs
  if l.isEmpty then none else some (l, r)

/-- A hexadecimal digit, in either case. -/
def isHexDigit (c : Char) : Bool := c.isDigit || ('a' ≤ c && c ≤ 'f') || ('A' ≤ c && c ≤ 'F')

/-- A character of a name: an ASCII letter or digit, or an underscore. -/
def isNameChar (c : Char) : Bool := c.isAlphanum || c == '_'

/-- The sign of a literal, which can only be a minus. -/
def minus : Scanner := optional (char '-')

/-- The sign of an exponent, which may be a plus too. -/
def sign : Scanner := optional ((char '-').orElse (char '+'))

/-- A run of decimal digits. -/
def digits : Scanner := many1 Char.isDigit

/-- An exponent: a mark, an optional sign, digits. -/
def exponent (isMark : Char → Bool) : Scanner := (one isMark).andThen (sign.andThen digits)

/-- A power of ten. -/
def decimalExponent : Scanner := exponent fun c => c == 'e' || c == 'E'

/-- A power of two, as hexadecimal floats have it. -/
def binaryExponent : Scanner := exponent fun c => c == 'p' || c == 'P'

/-- A hexadecimal integer.  Its prefix is in lower case, its digits are in either. -/
def hexInteger : Scanner :=
  minus.andThen ((char '0').andThen ((char 'x').andThen (many1 isHexDigit)))

end Scanner

open Scanner in
/-- The scanner of a kind of token.  `Scanner.many` never fails and choices are not revised, which
is enough here: no kind needs a shorter run than the longest for what follows to match. -/
def TokenKind.scan : TokenKind → Scanner
  | .id => (char '%').andThen (many1 isNameChar)
  | .equal => char '='
  | .opcode => (char 'O').andThen ((char 'p').andThen (many1 isNameChar))
  | .word =>
    (one fun c => c.isAlpha || c == '_').andThen (many fun c => isNameChar c || c == '|')
  | .hexFloat =>
    hexInteger.andThen ((optional ((char '.').andThen (many isHexDigit))).andThen binaryExponent)
  | .hex => hexInteger
  | .float =>
    minus.andThen (digits.andThen
      (((char '.').andThen ((many Char.isDigit).andThen (optional decimalExponent))).orElse
        decimalExponent))
  | .int => minus.andThen digits
  | .string => (char '"').andThen stringTail
  | .newline => lineEnds1

/-- Text between tokens: a run of spaces and tabs, or a comment up to the end of the line. -/
def Scanner.ignored : Scanner :=
  (Scanner.many1 fun c => c == ' ' || c == '\t').orElse
    ((Scanner.char ';').andThen (Scanner.many (· != '\n')))

end ShiftBarrier
