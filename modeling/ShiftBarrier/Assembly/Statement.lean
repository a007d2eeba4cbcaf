import ShiftBarrier.Assembly.Token.Lexeme
import ShiftBarrier.Error

/-!
# Statements of an assembly text

A text is read line by line: `%result = OpCode operand…`, the result being optional.

* `LineState` is how far a line has been read; it decides which tokens may follow.
* `Statement.ofText` splits a text into statements.
-/

set_option autoImplicit false

namespace ShiftBarrier

/-- A statement: an instruction as tokens. -/
structure Statement where
  result : Option String
  opcode : String
  operands : List Token
  /-- The line of the opcode. -/
  line : Nat
  deriving DecidableEq, Repr

/-! ## Lines -/

/-- How far a line has been read: nothing, a result, a result with its equals sign, an opcode with
operands. -/
inductive LineState
  | start
  | named (result : String)
  | assigned (result : String)
  /-- The operands read so far are in reverse. -/
  | operands (statement : Statement)

namespace LineState

/-- Whether a token of this kind may come next. -/
def accepts : LineState → TokenKind → Bool
  | .start, kind => kind == .id || kind == .opcode || kind == .newline
  | .named _, kind => kind == .equal
  | .assigned _, kind => kind == .opcode
  | .operands _, kind => kind != .equal && kind != .opcode

/-- The name of an id token, without its percent sign. -/
def idName (text : String) : String := String.ofList (text.toList.drop 1)

/-- The state after an accepted token, with the statement it completes. -/
def push : LineState → Token → LineState × Option Statement
  | .start, t =>
    match t.kind with
    | .id => (.named (idName t.text), none)
    | .opcode => (.operands ⟨none, t.text, [], t.position.line⟩, none)
    | _ => (.start, none)
  | .named result, _ => (.assigned result, none)
  | .assigned result, t => (.operands ⟨some result, t.text, [], t.position.line⟩, none)
  | .operands s, t =>
    if t.kind = .newline then (.start, some { s with operands := s.operands.reverse })
    else (.operands { s with operands := t :: s.operands }, none)

end LineState

/-! ## Texts

At every place the reader skips what is ignored, or else takes the first kind of token that matches
among those the line may go on with.  The fuel is the length of the text, of which every step takes
something off. -/

namespace Statement

/-- The first of the kinds whose scanner matches, with its lexeme and the rest of the text. -/
def firstMatch (kinds : List TokenKind) (text : List Char) :
    Option (TokenKind × List Char × List Char) :=
  kinds.findSome? fun kind => (kind.scan text).map (kind, ·)

/-- What is reported where no acceptable token matches. -/
def mismatch (position : Position) (c : Char) (text : List Char) : SyntaxFault :=
  match firstMatch TokenKind.byPriority text with
  | some (kind, lexeme, _) => .unexpectedToken ⟨kind, String.ofList lexeme, position⟩
  | none => .unexpectedCharacter c position

/-- Reads statements from a text no longer than the fuel. -/
def read : Nat → LineState → Position → List Char → Except SyntaxFault (List Statement)
  | _, _, _, [] => .ok []
  | 0, _, _, _ => .ok []
  | fuel + 1, state, position, c :: cs =>
    match Scanner.ignored (c :: cs) with
    | some (skipped, rest) => read fuel state (position.advance skipped) rest
    | none =>
      match firstMatch (TokenKind.byPriority.filter state.accepts) (c :: cs) with
      | none => .error (mismatch position c (c :: cs))
      | some (kind, lexeme, rest) =>
        let (state, complete) := state.push ⟨kind, String.ofList lexeme, position⟩
        (read fuel state (position.advance lexeme) rest).map (complete.toList ++ ·)

theorem length_lt_of_firstMatch {kinds : List TokenKind} {text : List Char} {kind : TokenKind}
    {lexeme rest : List Char} (h : firstMatch kinds text = some (kind, lexeme, rest)) :
    rest.length < text.length := by
  obtain ⟨_, _, hk⟩ := List.exists_of_findSome?_eq_some h
  obtain ⟨⟨l, r⟩, hscan, heq⟩ := Option.map_eq_some_iff.1 hk
  cases heq
  exact Scanner.length_rest_lt kind.splits_scan kind.consumes_scan hscan

/-- Fuel for the length of a text suffices: more of it changes nothing. -/
theorem read_eq_read_of_length_le {n m : Nat} {state : LineState} {p : Position}
    {text : List Char} (hn : text.length ≤ n) (hm : text.length ≤ m) :
    read n state p text = read m state p text := by
  induction n generalizing m state p text with
  | zero =>
    obtain rfl := List.length_eq_zero_iff.1 (Nat.le_zero.1 hn)
    simp [read]
  | succ n ih =>
    match text, m with
    | [], _ => simp [read]
    | c :: cs, m + 1 =>
      rw [read, read]
      split
      · next skipped rest h =>
        have := Scanner.length_rest_lt Scanner.splits_ignored Scanner.consumes_ignored h
        exact ih (by omega) (by omega)
      · split
        · rfl
        · next kind lexeme rest h =>
          have := length_lt_of_firstMatch h
          simp only [ih (show rest.length ≤ n by omega) (show rest.length ≤ m by omega)]

/-- The statements of a text.  A line feed is added to end the last line. -/
def ofText (source : String) : Except SyntaxFault (List Statement) :=
  let text := source.toList ++ ['\n']
  read text.length .start Position.start text

end Statement
end ShiftBarrier
