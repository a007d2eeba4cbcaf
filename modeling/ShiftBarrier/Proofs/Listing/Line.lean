import ShiftBarrier.Assembly.Numbering
import ShiftBarrier.Function
import ShiftBarrier.Proofs.Failure
import ShiftBarrier.Proofs.Listing.Token

/-!
# Reading a line again

* `Id.key` is the name under which an id is written, `Instruction.source` is what the line of an
  instruction says.
* `Id.Spelled`, `Operand.Printable` and `Instruction.Printable` say of ids, operands and
  instructions that their texts can be read again.
* `Instruction.Says` says of a line that it is read as an instruction, and
  `Instruction.Printable.says_of_text` that a printed line is.
* `Statement.readRest_line` reads one line of a text, and `Statement.ofText_unlines` all of them.
-/

set_option autoImplicit false

namespace ShiftBarrier

/-! ## Numbers -/

namespace Decimal

theorem toList_of_ofNat {n : Nat} {s : String} (h : ofNat n = .ok s) :
    s.toList = Nat.toDigits 10 n := by
  simp only [ofNat] at h
  split at h
  · cases h
  · split at h
    · cases h
      exact String.toList_ofList
    · cases h

theorem isDigit_of_mem {n : Nat} {c : Char} (h : c ∈ Nat.toDigits 10 n) : c.isDigit = true :=
  Nat.isDigit_of_mem_toDigits (by decide) (by decide) h

theorem many1_toDigits (n : Nat) {rest : List Char} (hrest : Separated rest) :
    Scanner.digits (Nat.toDigits 10 n ++ rest) = some (Nat.toDigits 10 n, rest) :=
  Scanner.many1_append Nat.toDigits_ne_nil (fun _ hc => isDigit_of_mem hc)
    (TokenKind.head?_of_separated hrest (by decide) (by decide))

/-- Digits do not start with a sign. -/
theorem toDigits_eq_cons (n : Nat) :
    ∃ c cs, Nat.toDigits 10 n = c :: cs ∧ c ≠ '-' ∧ c ≠ '+' := by
  obtain ⟨c, cs, heq⟩ := List.exists_cons_of_ne_nil (Nat.toDigits_ne_nil (n := n) (b := 10))
  have hc : c.isDigit = true := isDigit_of_mem (heq ▸ List.mem_cons_self)
  refine ⟨c, cs, heq, ?_, ?_⟩
  · rintro rfl
    exact absurd hc (by decide)
  · rintro rfl
    exact absurd hc (by decide)

/-- **A printed integer is read again as one token of its value.** -/
theorem reads_of_ofInt {n : Int} {s : String} (h : ofInt n = .ok s) :
    TokenKind.int.Reads s.toList ∧ Numeral.int s.toList = .ok n := by
  cases n with
  | ofNat n =>
    have hlist := toList_of_ofNat h
    have hvalue := toNat_toList_of_ofNat h
    -- the first character is a digit, so neither reader takes it for a sign
    obtain ⟨c, cs, heq, hminus, hplus⟩ := toDigits_eq_cons n
    refine ⟨TokenKind.reads_int fun rest hrest => ?_, ?_⟩
    · have hsign : Scanner.minus (s.toList ++ rest) = some ([], s.toList ++ rest) := by
        rw [hlist, heq]
        exact Scanner.optional_of_eq_none (Scanner.char_of_ne hminus _)
      rw [Scanner.andThen_of_eq_some hsign, hlist, many1_toDigits n hrest]
      rfl
    · have hsign : Numeral.splitSign s.toList = (false, s.toList) := by
        rw [hlist, heq, Numeral.splitSign.eq_def]
        split
        · next hcons => exact absurd (List.cons.inj hcons).1 hminus
        · next hcons => exact absurd (List.cons.inj hcons).1 hplus
        · rfl
      rw [Numeral.int, hsign]
      dsimp only
      rw [hvalue]
      rfl
  | negSucc n =>
    rw [ofInt] at h
    cases hs : ofNat (n + 1) with
    | error e => rw [hs] at h; cases h
    | ok digits =>
      rw [hs] at h
      cases h
      have hlist := toList_of_ofNat hs
      have htext : ("-" ++ digits).toList = '-' :: digits.toList := by
        rw [String.toList_append]
        rfl
      rw [htext]
      refine ⟨TokenKind.reads_int fun rest hrest => ?_, ?_⟩
      · have hsign : Scanner.minus ('-' :: (digits.toList ++ rest))
            = some (['-'], digits.toList ++ rest) :=
          Scanner.optional_of_eq_some (Scanner.char_self '-' _)
        rw [List.cons_append, Scanner.andThen_of_eq_some hsign, hlist, many1_toDigits _ hrest]
        rfl
      · rw [Numeral.int, Numeral.splitSign]
        dsimp only
        rw [toNat_toList_of_ofNat hs]
        rfl

end Decimal

/-! ## Ids and operands -/

namespace Id

/-- The name under which an id is written. -/
def key (i : Id) : String := i.name.getD (toString i.number)

theorem text_eq (i : Id) : i.text = "%" ++ i.key := rfl

/-- The ids that a text can name: 32-bit words, and names that are not made of digits alone. -/
inductive Spelled : Id → Prop
  | number {n : Nat} (hpos : 0 < n) (hle : n ≤ Settings.maxIdWord) : Spelled ⟨n, none⟩
  | name {n : Nat} {name : String} (hname : TokenKind.IsName name.toList)
      (hother : Numbering.isNumeric name = false) : Spelled ⟨n, some name⟩

variable {i : Id}

theorem Spelled.isName_key (h : i.Spelled) : TokenKind.IsName i.key.toList := by
  cases h with
  | @number n =>
    rw [key, Option.getD_none, Nat.toString_eq_ofList_toDigits, String.toList_ofList]
    refine ⟨Nat.toDigits_ne_nil, fun c hc => ?_⟩
    simp [Scanner.isNameChar, Char.isAlphanum, Decimal.isDigit_of_mem hc]
  | name hname => exact hname

theorem toList_text (i : Id) : i.text.toList = '%' :: i.key.toList := by
  rw [text_eq, String.toList_append]
  rfl

theorem idName_text (i : Id) : LineState.idName i.text = i.key := by
  rw [LineState.idName, toList_text, List.drop_one, List.tail_cons, String.ofList_toList]

end Id

/-- What is read for a word in the place of an operand. -/
def SourceOperand.Denotes (word : String) (operand : SourceOperand) : Prop :=
  ∃ kind : TokenKind, kind.Reads word.toList ∧ kind ≠ .newline ∧
    ∀ position, ofToken ⟨kind, word, position⟩ = .ok operand

namespace Operand

/-- What the text of an operand says. -/
def source : Operand → SourceOperand
  | .id i => .name i.key
  | operand => .value operand

/-- The operands whose texts are read as what they are. -/
inductive Printable : Operand → Prop
  | id {i : Id} (h : i.Spelled) : Printable (.id i)
  | int (n : Int) : Printable (.literal (.int n) none)
  | spelled {value : Number} {word : String}
      (h : SourceOperand.Denotes word (.value (.literal value (some word)))) :
      Printable (.literal value (some word))
  | enumerant {word : String} (h : TokenKind.word.Reads word.toList) : Printable (.enumerant word)
  | string {s : List CodePoint} (h : Literal.Joined s) : Printable (.string s)

variable {operand : Operand} {word : String}

theorem denotes_id {i : Id} (h : i.Spelled) : SourceOperand.Denotes i.text (.name i.key) := by
  refine ⟨.id, ?_, nofun, fun position => ?_⟩
  · rw [Id.toList_text]
    exact TokenKind.reads_id h.isName_key
  · rw [SourceOperand.ofToken]
    exact congrArg (fun name => Except.ok (SourceOperand.name name)) (Id.idName_text i)

/-- A hexadecimal numeral of any length is an integer. -/
theorem denotes_hex {digits : List Char} (hne : digits ≠ [])
    (hdigits : ∀ c ∈ digits, Scanner.isHexDigit c = true) :
    SourceOperand.Denotes (String.ofList ('0' :: 'x' :: digits))
      (.value (.literal (.int (Numeral.natOfHex digits)) none)) := by
  refine ⟨.hex, ?_, nofun, fun position => ?_⟩
  · rw [String.toList_ofList]
    exact TokenKind.reads_hex hne hdigits
  · rw [SourceOperand.ofToken]
    dsimp only
    rw [String.toList_ofList]
    rfl

theorem Printable.denotes (h : operand.Printable) (hword : operand.text = .ok word) :
    SourceOperand.Denotes word operand.source := by
  cases h with
  | id h =>
    cases hword
    exact denotes_id h
  | int n =>
    obtain ⟨hreads, hvalue⟩ := Decimal.reads_of_ofInt hword
    refine ⟨.int, hreads, nofun, fun position => ?_⟩
    rw [SourceOperand.ofToken]
    dsimp only
    rw [hvalue]
    rfl
  | spelled h =>
    cases hword
    exact h
  | enumerant h =>
    cases hword
    exact ⟨.word, h, nofun, fun position => rfl⟩
  | string h =>
    cases hword
    refine ⟨.string, ?_, nofun, fun position => ?_⟩
    · rw [String.toList_ofList]
      exact TokenKind.reads_string _
    · rw [SourceOperand.ofToken]
      dsimp only
      rw [String.toList_ofList, Literal.decode_encode h]
      rfl

end Operand

/-! ## Instructions -/

namespace Instruction

/-- The mnemonics of opcodes. -/
def IsMnemonic (opcode : String) : Prop :=
  ∃ name, opcode.toList = 'O' :: 'p' :: name ∧ TokenKind.IsName name

/-- The instructions whose lines can be read again. -/
structure Printable (i : Instruction) : Prop where
  opcode : IsMnemonic i.opcode
  type : ∀ id ∈ i.type, id.Spelled
  result : ∀ id ∈ i.result, id.Spelled
  operands : ∀ operand ∈ i.operands, operand.Printable
  /-- There is a result type if and only if there is one to be read. -/
  typed : i.type.isSome = (i.result.isSome && Opcode.hasResultType i.opcode)

/-- The names and values in the line of an instruction. -/
def sourceOperands (i : Instruction) : List SourceOperand :=
  i.type.toList.map (fun id => .name id.key) ++ i.operands.map Operand.source

/-- What the line of an instruction says. -/
def source (i : Instruction) (line : Nat) : SourceInstruction :=
  ⟨i.result.map Id.key, i.opcode, i.sourceOperands, line⟩

variable {i : Instruction} {text : String}

/-- The text before the first operand. -/
def head (i : Instruction) : List Char :=
  (i.result.elim [] fun r => '%' :: r.key.toList ++ [' ', '=', ' ']) ++ i.opcode.toList

theorem toList_intercalate_cons (first : String) (words : List String) :
    (String.intercalate " " (first :: words)).toList
      = first.toList ++ words.flatMap fun w => ' ' :: w.toList := by
  induction words generalizing first with
  | nil => simp
  | cons word words ih =>
    have hrest := ih word
    rw [String.toList_intercalate] at hrest ⊢
    rw [List.map_cons] at hrest ⊢
    rw [List.map_cons, List.intercalate_cons_cons, hrest, List.flatMap_cons, List.append_assoc]
    rfl

/-- A line that is read as an instruction: its head followed by words, which denote the operands. -/
structure Says (line : String) (i : Instruction) : Prop where
  opcode : IsMnemonic i.opcode
  result : ∀ id ∈ i.result, id.Spelled
  words : ∃ words, List.Forall₂ SourceOperand.Denotes words i.sourceOperands ∧
    line.toList = i.head ++ words.flatMap fun w => ' ' :: w.toList

/-- A printed line says what the instruction is. -/
theorem Printable.says_of_text (h : i.Printable) (htext : i.text = .ok text) : Says text i := by
  rw [Instruction.text, bind_eq_ok_iff] at htext
  obtain ⟨operands, hoperands, htext⟩ := htext
  cases htext
  refine ⟨h.opcode, h.result, i.type.toList.map Id.text ++ operands, ?_, ?_⟩
  · have htype := h.type
    refine List.rel_append ?_ ?_
    · cases htype' : i.type with
      | none => exact .nil
      | some id => exact .cons (Operand.denotes_id (htype id htype')) .nil
    · have hall := (List.forall₂_and_left _ _).2 ⟨h.operands, mapM_eq_ok_iff.1 hoperands⟩
      rw [List.forall₂_map_right_iff]
      exact hall.flip.imp fun _ _ hword => hword.1.denotes hword.2
  · rw [List.cons_append, toList_intercalate_cons, String.toList_append, head]
    cases i.result with
    | none => rfl
    | some id =>
      rw [String.toList_append, Id.toList_text]
      rfl

end Instruction

/-! ## Reading

A line is taken up by the reader token by token; each lemma reads one more part of the line. -/

namespace Statement

open Scanner TokenKind

variable {state : LineState} {position : Position} {text lexeme skipped rest : List Char}
  {kind : TokenKind}

theorem map_nil_append {α ε : Type} (x : Except ε (List α)) :
    x.map ((none : Option α).toList ++ ·) = x := by
  cases x <;> rfl

/-- Reads a text to its end. -/
def readRest (state : LineState) (position : Position) (text : List Char) :
    Except SyntaxFault (List Statement) := read text.length state position text

theorem ofText_eq (source : String) :
    ofText source = readRest .start Position.start (source.toList ++ ['\n']) := rfl

theorem readRest_ignored (h : ignored text = some (skipped, rest)) :
    readRest state position text = readRest state (position.advance skipped) rest := by
  have hlength := length_rest_lt splits_ignored consumes_ignored h
  match text with
  | [] => cases h
  | c :: cs =>
    rw [readRest, List.length_cons, read, h]
    exact read_eq_read_of_length_le (Nat.lt_succ_iff.1 hlength) (Nat.le_refl _)

theorem readRest_token
    (h : firstMatch (byPriority.filter state.accepts) text = some (kind, lexeme, rest)) :
    readRest state position text =
      (readRest (state.push ⟨kind, String.ofList lexeme, position⟩).1 (position.advance lexeme)
        rest).map ((state.push ⟨kind, String.ofList lexeme, position⟩).2.toList ++ ·) := by
  have hlength := length_lt_of_firstMatch h
  have hscan : kind.scan text ≠ none := by
    rw [(scan_of_firstMatch h).2]
    exact Option.some_ne_none _
  obtain ⟨c, cs, rfl, -⟩ := kind.starts_scan text hscan
  rw [readRest, List.length_cons, read, ignored_eq_none hscan, h]
  dsimp only
  rw [read_eq_read_of_length_le (Nat.lt_succ_iff.1 hlength) (Nat.le_refl _), readRest]

/-- A token behind a single blank. -/
theorem readRest_blank
    (h : firstMatch (byPriority.filter state.accepts) text = some (kind, lexeme, rest)) :
    readRest state position (' ' :: text) = readRest state (position.advance [' ']) text :=
  readRest_ignored (ignored_blank (by rw [(scan_of_firstMatch h).2]; exact Option.some_ne_none _))

/-- The end of a line completes its statement. -/
theorem readRest_newline (s : Statement) (position : Position) (rest : List Char) :
    ∃ position', readRest (.operands s) position ('\n' :: rest)
      = (readRest .start position' (lineEnds rest).2).map
          ({ s with operands := s.operands.reverse } :: ·) := by
  have hscan : TokenKind.newline.scan ('\n' :: rest)
      = some ('\n' :: (lineEnds rest).1, (lineEnds rest).2) := by
    simp [scan, lineEnds1, lineEnds]
  have hmatch : firstMatch (byPriority.filter (LineState.operands s).accepts) ('\n' :: rest)
      = some (.newline, '\n' :: (lineEnds rest).1, (lineEnds rest).2) :=
    firstMatch_append [.hexFloat, .hex, .float, .int, .id, .word, .string]
      (by decide) hscan
  exact ⟨_, readRest_token hmatch⟩

/-- What follows a word is a blank or the end of the line. -/
theorem separated_words (words : List String) (rest : List Char) :
    Separated (words.flatMap (fun w => ' ' :: w.toList) ++ '\n' :: rest) := by
  cases words with
  | nil => exact separated_newline rest
  | cons word words => exact separated_blank _

/-- The operands of a line are read one after the other. -/
theorem readRest_words {words : List String} {operands : List SourceOperand}
    (h : List.Forall₂ SourceOperand.Denotes words operands) (s : Statement) (position : Position)
    (rest : List Char) :
    ∃ tokens position', tokens.mapM SourceOperand.ofToken = .ok operands ∧
      readRest (.operands s) position
          (words.flatMap (fun w => ' ' :: w.toList) ++ '\n' :: rest)
        = (readRest .start position' (lineEnds rest).2).map
            ({ s with operands := s.operands.reverse ++ tokens } :: ·) := by
  induction h generalizing s position with
  | nil =>
    obtain ⟨position', hread⟩ := readRest_newline s position rest
    exact ⟨[], position', rfl, by rw [List.append_nil]; exact hread⟩
  | @cons word operand words operands hword _ ih =>
    obtain ⟨kind, hreads, hkind, hdenotes⟩ := hword
    have hmatch : firstMatch (byPriority.filter (LineState.operands s).accepts) _ = _ :=
      hreads _ (separated_words words rest)
    let token : Token := ⟨kind, word, position.advance [' ']⟩
    obtain ⟨tokens, position', htokens, hread⟩ := ih { s with operands := token :: s.operands }
      ((position.advance [' ']).advance word.toList)
    refine ⟨token :: tokens, position', ?_, ?_⟩
    · rw [List.mapM_cons, hdenotes, htokens]
      rfl
    · rw [List.flatMap_cons, List.cons_append, List.cons_append, List.append_assoc,
        readRest_blank hmatch, readRest_token hmatch, LineState.push, if_neg hkind,
        String.ofList_toList, map_nil_append, hread, List.reverse_cons, List.append_assoc]
      rfl

theorem scan_opcode {opcode : String} (h : Instruction.IsMnemonic opcode) {rest : List Char}
    (hrest : Separated rest) :
    TokenKind.opcode.scan (opcode.toList ++ rest) = some (opcode.toList, rest) := by
  obtain ⟨name, hopcode, hname⟩ := h
  rw [hopcode, scan, List.cons_append, List.cons_append, andThen_of_eq_some (char_self 'O' _),
    andThen_of_eq_some (char_self 'p' _), hname.scan_append hrest]
  rfl

/-- The result of a line and its equals sign. -/
theorem readRest_result {id : Id} (h : id.Spelled) {rest : List Char} {kind : TokenKind}
    {lexeme after : List Char} (hrest : firstMatch [.opcode] rest = some (kind, lexeme, after))
    (position : Position) :
    ∃ position', readRest .start position ('%' :: id.key.toList ++ [' ', '=', ' '] ++ rest)
      = readRest (.assigned id.key) position' rest := by
  have hid : firstMatch (byPriority.filter LineState.start.accepts)
      ('%' :: (id.key.toList ++ ' ' :: '=' :: ' ' :: rest))
      = some (.id, '%' :: id.key.toList, ' ' :: '=' :: ' ' :: rest) :=
    firstMatch_append [.opcode] (by decide)
      (h.isName_key.scan_id (separated_blank _))
  have hequal : firstMatch (byPriority.filter (LineState.named id.key).accepts)
      ('=' :: ' ' :: rest) = some (.equal, ['='], ' ' :: rest) :=
    firstMatch_of_eq_some (char_self '=' _)
  have hopcode : firstMatch (byPriority.filter (LineState.assigned id.key).accepts) rest
      = some (kind, lexeme, after) := hrest
  have hname : LineState.idName (String.ofList ('%' :: id.key.toList)) = id.key := by
    rw [LineState.idName, String.toList_ofList, List.drop_one, List.tail_cons, String.ofList_toList]
  have hlist : '%' :: id.key.toList ++ [' ', '=', ' '] ++ rest
      = '%' :: (id.key.toList ++ ' ' :: '=' :: ' ' :: rest) := by
    simp
  rw [hlist, readRest_token hid, LineState.push, hname, map_nil_append, readRest_blank hequal,
    readRest_token hequal, LineState.push, map_nil_append, readRest_blank hopcode]
  exact ⟨_, rfl⟩

/-- The first tokens of a line lead to its operands. -/
theorem readRest_head {i : Instruction} {line : String} (h : Instruction.Says line i)
    (position : Position) {rest : List Char} (hrest : Separated rest) :
    ∃ line position', readRest .start position (i.head ++ rest)
      = readRest (.operands ⟨i.result.map Id.key, i.opcode, [], line⟩) position' rest := by
  have hscan := scan_opcode h.opcode hrest
  have hresult := h.result
  rw [Instruction.head]
  cases hr : i.result with
  | none =>
    have hmatch : firstMatch (byPriority.filter LineState.start.accepts) (i.opcode.toList ++ rest)
        = some (.opcode, i.opcode.toList, rest) := firstMatch_of_eq_some hscan
    rw [Option.elim_none, List.nil_append, readRest_token hmatch, LineState.push,
      String.ofList_toList, map_nil_append]
    exact ⟨_, _, rfl⟩
  | some id =>
    have hmatch : firstMatch (byPriority.filter (LineState.assigned id.key).accepts)
        (i.opcode.toList ++ rest) = some (.opcode, i.opcode.toList, rest) :=
      firstMatch_of_eq_some hscan
    obtain ⟨position', hassigned⟩ := readRest_result (hresult id hr) hmatch position
    rw [Option.elim_some, List.append_assoc, hassigned, readRest_token hmatch, LineState.push,
      String.ofList_toList, map_nil_append]
    exact ⟨_, _, rfl⟩

/-- **A line is read as what it says.** -/
theorem readRest_line {i : Instruction} {line : String} (h : Instruction.Says line i)
    (position : Position) (rest : List Char) :
    ∃ s position', SourceInstruction.ofStatement s = .ok (i.source s.line) ∧
      readRest .start position (line.toList ++ '\n' :: rest)
        = (readRest .start position' (lineEnds rest).2).map (s :: ·) := by
  obtain ⟨words, hwords, htext⟩ := h.words
  obtain ⟨number, position₁, hhead⟩ := readRest_head h position (separated_words words rest)
  obtain ⟨tokens, position₂, htokens, hread⟩ := readRest_words hwords
    ⟨i.result.map Id.key, i.opcode, [], number⟩ position₁ rest
  refine ⟨⟨i.result.map Id.key, i.opcode, tokens, number⟩, position₂, ?_, ?_⟩
  · rw [SourceInstruction.ofStatement, htokens]
    rfl
  · rw [htext, List.append_assoc, hhead, hread]
    rfl

/-! ## Listings -/

/-- A line does not start with a line end. -/
theorem lineEnds_line {i : Instruction} {line : String} (h : Instruction.Says line i)
    (rest : List Char) : lineEnds (line.toList ++ rest) = ([], line.toList ++ rest) := by
  obtain ⟨words, -, htext⟩ := h.words
  obtain ⟨name, hopcode, -⟩ := h.opcode
  rw [htext, Instruction.head]
  cases i.result with
  | none =>
    rw [hopcode]
    rfl
  | some id => rfl

/-- The lines of a listing, each terminated, and the line feed that reading adds. -/
theorem readRest_lines {is : List Instruction} {lines : List String}
    (h : List.Forall₂ Instruction.Says lines is) (position : Position) :
    ∃ statements sources,
      readRest .start position (lineEnds (lines.flatMap (fun l => l.toList ++ ['\n']) ++ ['\n'])).2
        = .ok statements ∧
      statements.mapM SourceInstruction.ofStatement = .ok sources ∧
      List.Forall₂ (fun i s => ∃ line, s = i.source line) is sources := by
  induction h generalizing position with
  | nil => exact ⟨[], [], rfl, rfl, .nil⟩
  | @cons line i lines is hi _ ih =>
    obtain ⟨s, position', hs, hread⟩ := readRest_line hi position
      (lines.flatMap (fun l => l.toList ++ ['\n']) ++ ['\n'])
    obtain ⟨statements, sources, hrest, hsources, hall⟩ := ih position'
    refine ⟨s :: statements, i.source s.line :: sources, ?_, ?_, .cons ⟨s.line, rfl⟩ hall⟩
    · rw [List.flatMap_cons, List.append_assoc, List.append_assoc, List.singleton_append,
        lineEnds_line hi, hread, hrest]
      rfl
    · rw [List.mapM_cons, hs, hsources]
      rfl

/-- **A listing is read as what its lines say.** -/
theorem ofText_unlines {is : List Instruction} {lines : List String}
    (h : List.Forall₂ Instruction.Says lines is) :
    ∃ statements sources,
      ofText (if lines.isEmpty then "\n" else unlines lines) = .ok statements ∧
      statements.mapM SourceInstruction.ofStatement = .ok sources ∧
      List.Forall₂ (fun i s => ∃ line, s = i.source line) is sources := by
  obtain ⟨statements, sources, hread, hrest⟩ := readRest_lines h Position.start
  refine ⟨statements, sources, ?_, hrest⟩
  cases h with
  | nil =>
    cases hread
    rfl
  | @cons line i lines is hi _ =>
    have htext : (unlines (line :: lines)).toList
        = (line :: lines).flatMap fun l => l.toList ++ ['\n'] := by
      rw [unlines, String.toList_join, List.flatMap_map]
      exact List.flatMap_congr fun l _ => String.toList_append
    rw [List.isEmpty_cons, if_neg Bool.false_ne_true, ofText_eq, htext, ← hread, List.flatMap_cons,
      List.append_assoc, List.append_assoc, lineEnds_line hi]

end Statement
end ShiftBarrier
