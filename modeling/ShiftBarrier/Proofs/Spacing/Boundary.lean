import ShiftBarrier.Proofs.Listing.Line
import ShiftBarrier.Proofs.Spacing.Separator

/-!
# Reading piece by piece

What a text says does not depend on where in the text it is said, and the reader takes the text in
pieces that end where the next separator stands.

* `Statement.bare` and `LineState.bare` forget lines and columns, `Statement.spell` is what a text
  says from a state on, without positions.
* `Mode` is where the reader stands: in a line, or in the comment at its end.  `Mode.Step` lists
  the pieces of text that lead it on, and `Mode.Reaches` says where it comes to stand.
* `Mode.exists_step`: a text that says something can be read on.
* `Mode.Reaches.spell_congr`: what stands behind a piece may be replaced by what says the same.
-/

set_option autoImplicit false

namespace ShiftBarrier

/-- Blanks, which may stand anywhere between tokens. -/
def isBlank (c : Char) : Bool := c == ' ' || c == '\t'

/-! ## Positions

Positions show in messages only, so texts are compared by what they say without them. -/

/-- A token without its place. -/
def Token.bare (t : Token) : Token := { t with position := Position.start }

/-- A statement without its place. -/
def Statement.bare (s : Statement) : Statement :=
  { s with operands := s.operands.map Token.bare, line := Position.start.line }

namespace LineState

/-- What was read of a line, without its place. -/
def bare : LineState → LineState
  | .operands s => .operands s.bare
  | state => state

theorem accepts_bare (state : LineState) : state.bare.accepts = state.accepts := by
  cases state <;> rfl

theorem push_bare (state : LineState) (t : Token) :
    (state.push t).1.bare = (state.bare.push t.bare).1.bare ∧
      (state.push t).2.map Statement.bare = (state.bare.push t.bare).2.map Statement.bare := by
  cases state with
  | start => cases hkind : t.kind <;> simp [push, bare, hkind, Token.bare, Statement.bare]
  | named result => exact ⟨rfl, rfl⟩
  | assigned result => exact ⟨rfl, rfl⟩
  | operands s =>
    by_cases hkind : t.kind = .newline <;>
      simp [push, bare, hkind, Token.bare, Statement.bare, Function.comp_def]

theorem push_congr {state state' : LineState} (hstate : state.bare = state'.bare) (t t' : Token)
    (ht : t.bare = t'.bare) : (state.push t).1.bare = (state'.push t').1.bare ∧
      (state.push t).2.map Statement.bare = (state'.push t').2.map Statement.bare := by
  obtain ⟨hnext, hdone⟩ := state.push_bare t
  obtain ⟨hnext', hdone'⟩ := state'.push_bare t'
  rw [hstate, ht] at hnext hdone
  exact ⟨hnext.trans hnext'.symm, hdone.trans hdone'.symm⟩

end LineState

namespace Statement

open Scanner TokenKind

variable {state state' : LineState} {position position' : Position}
  {text skipped lexeme rest : List Char} {kind : TokenKind}

/-- The statements that were read, without their positions. -/
def said (read : Except SyntaxFault (List Statement)) : Option (List Statement) :=
  read.toOption.map (List.map bare)

theorem said_map (statements : List Statement) (read : Except SyntaxFault (List Statement)) :
    said (read.map (statements ++ ·)) = (said read).map (statements.map bare ++ ·) := by
  cases read <;> simp [said, Except.map, Except.toOption]

/-- The reader stops where nothing acceptable stands. -/
theorem said_mismatch {c : Char} {cs : List Char} (hignored : ignored (c :: cs) = none)
    (hmatch : firstMatch (byPriority.filter state.accepts) (c :: cs) = none) :
    said (readRest state position (c :: cs)) = none := by
  rw [readRest, List.length_cons, read, hignored, hmatch]
  rfl

/-- Positions do not matter. -/
theorem said_readRest (hstate : state.bare = state'.bare) :
    said (readRest state position text) = said (readRest state' position' text) := by
  induction hlength : text.length using Nat.strongRecOn
    generalizing text state state' position position' with
  | _ length ih =>
    subst hlength
    have haccepts : state.accepts = state'.accepts := by
      rw [← state.accepts_bare, hstate, state'.accepts_bare]
    cases hignored : ignored text with
    | some found =>
      obtain ⟨skipped, rest⟩ := found
      rw [readRest_ignored hignored, readRest_ignored hignored]
      exact ih _ (length_rest_lt splits_ignored consumes_ignored hignored) hstate rfl
    | none =>
      match text with
      | [] => rfl
      | c :: cs =>
        cases hmatch : firstMatch (byPriority.filter state.accepts) (c :: cs) with
        | none =>
          rw [said_mismatch hignored hmatch]
          rw [haccepts] at hmatch
          rw [said_mismatch hignored hmatch]
        | some found =>
          obtain ⟨kind, lexeme, rest⟩ := found
          have hmatch' := hmatch
          rw [haccepts] at hmatch'
          obtain ⟨hnext, hdone⟩ := LineState.push_congr hstate
            ⟨kind, String.ofList lexeme, position⟩ ⟨kind, String.ofList lexeme, position'⟩ rfl
          rw [readRest_token hmatch, readRest_token hmatch', said_map, said_map,
            ih _ (length_lt_of_firstMatch hmatch) hnext rfl, ← Option.toList_map,
            ← Option.toList_map, hdone]

/-- What a text says from a state on. -/
def spell (state : LineState) (text : List Char) : Option (List Statement) :=
  said (readRest state Position.start text)

/-! ## One piece of text after the other -/

theorem spell_token
    (h : firstMatch (byPriority.filter state.accepts) text = some (kind, lexeme, rest)) :
    let next := state.push ⟨kind, String.ofList lexeme, Position.start⟩
    spell state text = (spell next.1 rest).map (next.2.toList.map bare ++ ·) := by
  dsimp only
  rw [spell, readRest_token h, said_map]
  exact congrArg _ (said_readRest rfl)

theorem spell_ignored (h : ignored text = some (skipped, rest)) :
    spell state text = spell state rest := by
  rw [spell, readRest_ignored h]
  exact said_readRest rfl

theorem spell_dropWhile (state : LineState) (text : List Char) :
    spell state text = spell state (text.dropWhile isBlank) := by
  cases text with
  | nil => rfl
  | cons c text =>
    by_cases hc : isBlank c = true
    · have hrun : many1 isBlank (c :: text)
          = some (c :: text.takeWhile isBlank, text.dropWhile isBlank) := by
        rw [many1, andThen_of_eq_some (one_of_pos hc)]
        rfl
      have hskip : ignored (c :: text)
          = some (c :: text.takeWhile isBlank, text.dropWhile isBlank) :=
        congrArg (Option.or · _) hrun
      rw [List.dropWhile_cons_of_pos hc, spell_ignored hskip]
    · rw [List.dropWhile_cons_of_neg hc]

/-- A blank says nothing, alone or in front of other blanks. -/
theorem spell_blank {c : Char} (hc : isBlank c = true) (text : List Char) :
    spell state (c :: text) = spell state text := by
  rw [spell_dropWhile state (c :: text), List.dropWhile_cons_of_pos hc, ← spell_dropWhile]

/-- A comment says nothing. -/
theorem spell_comment (text : List Char) :
    spell state (';' :: text) = spell state (text.dropWhile (· != '\n')) := by
  have hskip : ignored (';' :: text)
      = some (';' :: text.takeWhile (· != '\n'), text.dropWhile (· != '\n')) := by
    rw [ignored, orElse, many1, andThen_of_eq_none (one_of_neg (by decide)), Option.none_or,
      andThen_of_eq_some (char_self ';' _)]
    rfl
  exact spell_ignored hskip

end Statement

/-- What the end of a line completes, if a line may end there. -/
def LineState.finished : LineState → Option (List Statement)
  | .start => some []
  | .operands s => some [{ s with operands := s.operands.reverse }.bare]
  | _ => none

/-- A line feed, with or without a carriage return. -/
def IsLineEnd (lexeme : List Char) : Prop := lexeme = ['\n'] ∨ lexeme = ['\r', '\n']

namespace Statement

open Scanner TokenKind

variable {state : LineState} {text lexeme rest : List Char}

/-- A run of line ends is read as one. -/
theorem spell_newline (h : TokenKind.newline.scan text = some (lexeme, rest)) :
    spell state text = state.finished.bind fun done => (spell .start rest).map (done ++ ·) := by
  obtain ⟨c, cs, rfl, hc⟩ := TokenKind.newline.starts_scan text
    (by rw [h]; exact Option.some_ne_none _)
  have hend : c = '\n' ∨ c = '\r' := by simpa [starts] using hc
  -- no token of another kind starts like this
  have hother : ∀ kinds : List TokenKind, .newline ∉ kinds →
      ∀ kind ∈ kinds, kind.starts c = false := by
    intro kinds hkinds kind hkind
    by_contra hstart
    rw [Bool.not_eq_false] at hstart
    exact hkinds (eq_newline_of_starts hend hstart ▸ hkind)
  have hignored : ignored (c :: cs) = none :=
    @ignored_eq_none .newline _ (by rw [h]; exact Option.some_ne_none _)
  cases state with
  | start =>
    have hmatch : firstMatch (byPriority.filter LineState.start.accepts) (c :: cs)
        = some (.newline, lexeme, rest) :=
      firstMatch_append [.opcode, .id] (hother _ (by decide)) h
    rw [spell_token hmatch]
    rfl
  | operands s =>
    have hmatch : firstMatch (byPriority.filter (LineState.operands s).accepts) (c :: cs)
        = some (.newline, lexeme, rest) :=
      firstMatch_append [.hexFloat, .hex, .float, .int, .id, .word, .string]
        (hother _ (by decide)) h
    rw [spell_token hmatch]
    rfl
  | named result =>
    refine said_mismatch hignored ?_
    exact firstMatch_of_eq_none
      (TokenKind.equal.starts_scan.eq_none (hother [.equal] (by decide) _ List.mem_cons_self) cs)
  | assigned result =>
    refine said_mismatch hignored ?_
    exact firstMatch_of_eq_none
      (TokenKind.opcode.starts_scan.eq_none (hother [.opcode] (by decide) _ List.mem_cons_self) cs)

/-- **The end of a line completes its statement**, and a line end behind it changes nothing. -/
theorem spell_lineEnd (h : IsLineEnd lexeme) (text : List Char) :
    spell state (lexeme ++ text)
      = state.finished.bind fun done => (spell .start text).map (done ++ ·) := by
  have hscan : TokenKind.newline.scan (lexeme ++ text)
      = some (lexeme ++ (lineEnds text).1, (lineEnds text).2) := by
    rcases h with rfl | rfl <;> simp [scan, lineEnds1, lineEnds]
  have hrest : spell .start text = spell .start (lineEnds text).2 := by
    by_cases hnil : (lineEnds text).1 = []
    · conv_lhs => rw [← lineEnds_append text, hnil, List.nil_append]
    · have hscan : TokenKind.newline.scan text = some (lineEnds text) := by
        simp [scan, lineEnds1, hnil]
      rw [spell_newline hscan]
      simp [LineState.finished]
  rw [spell_newline hscan, hrest]

end Statement

/-! ## Where the reader stands

The text is cut into the pieces the reader takes at once.  A change of the layout happens between
two pieces. -/

/-- Where the reader stands: in a line, or in the comment at its end. -/
inductive Mode
  | line (state : LineState)
  | comment (state : LineState)

namespace Mode

open Scanner TokenKind Statement

/-- What a text says from there on. -/
def spell : Mode → List Char → Option (List Statement)
  | .line state, text => Statement.spell state text
  | .comment state, text => Statement.spell state (text.dropWhile (· != '\n'))

/-- The pieces of text that lead the reader from one place to the next, with the text behind them
and the statements they complete. -/
inductive Step : Mode → List Char → List Char → Mode → List Statement → Prop
  | blank {state : LineState} {c : Char} {rest : List Char} (hc : isBlank c = true) :
      Step (.line state) [c] rest (.line state) []
  | comment {state : LineState} {rest : List Char} :
      Step (.line state) [';'] rest (.comment state) []
  | hidden {state : LineState} {c : Char} {rest : List Char} (hc : c ≠ '\n') :
      Step (.comment state) [c] rest (.comment state) []
  | lineEnd {state : LineState} {piece rest : List Char} {done : List Statement}
      (hpiece : IsLineEnd piece) (hdone : state.finished = some done) :
      Step (.line state) piece rest (.line .start) done
  | commentEnd {state : LineState} {rest : List Char} {done : List Statement}
      (hdone : state.finished = some done) :
      Step (.comment state) ['\n'] rest (.line .start) done
  | token {state : LineState} {kind : TokenKind} {piece rest : List Char}
      (hkind : kind ≠ .newline)
      (hmatch : firstMatch (byPriority.filter state.accepts) (piece ++ rest)
        = some (kind, piece, rest)) :
      Step (.line state) piece rest
        (.line (state.push ⟨kind, String.ofList piece, Position.start⟩).1) []

/-- The reader comes to stand in front of `behind` when it has read `front`. -/
inductive Reaches : Mode → List Char → List Char → Mode → Prop
  | refl (mode : Mode) (behind : List Char) : Reaches mode [] behind mode
  | step {mode next last : Mode} {piece front behind : List Char} {done : List Statement}
      (hstep : Step mode piece (front ++ behind) next done)
      (hrest : Reaches next front behind last) : Reaches mode (piece ++ front) behind last

variable {mode next last : Mode} {text piece front behind rest : List Char}
  {done : List Statement} {c : Char}

theorem push_eq_none {state : LineState} {t : Token} (h : t.kind ≠ .newline) :
    (state.push t).2 = none := by
  cases state with
  | start => cases hkind : t.kind <;> simp [LineState.push, hkind]
  | named result => rfl
  | assigned result => rfl
  | operands s => simp [LineState.push, h]

/-- A comment ends in front of the line feed. -/
theorem spell_comment_newline (state : LineState) (rest : List Char) :
    (comment state).spell (['\n'] ++ rest) = Statement.spell state (['\n'] ++ rest) := by
  simp [spell]

theorem Step.spell_eq (h : Step mode piece rest next done) :
    mode.spell (piece ++ rest) = (next.spell rest).map (done ++ ·) := by
  cases h with
  | blank hc => simp [spell, spell_blank hc]
  | comment => simp [spell, spell_comment]
  | hidden hc => simp [spell, hc]
  | lineEnd hpiece hdone => simp [spell, spell_lineEnd hpiece, hdone]
  | @commentEnd state _ _ hdone =>
    rw [spell_comment_newline, spell_lineEnd (.inl rfl), hdone]
    rfl
  | token hkind hmatch =>
    rw [spell, spell_token hmatch, push_eq_none hkind]
    rfl

theorem exists_finished {state : LineState} (hpiece : IsLineEnd piece)
    (h : Statement.spell state (piece ++ rest) ≠ none) : ∃ done, state.finished = some done := by
  rw [spell_lineEnd hpiece] at h
  by_contra hnone
  rw [← Option.ne_none_iff_exists', not_not] at hnone
  exact h (by rw [hnone]; rfl)

theorem exists_lineEnd (h : TokenKind.newline.scan text ≠ none) :
    ∃ piece rest, text = piece ++ rest ∧ IsLineEnd piece := by
  rw [scan, lineEnds1] at h
  fun_cases lineEnds text with
  | case1 cs => exact ⟨['\n'], cs, rfl, .inl rfl⟩
  | case2 cs => exact ⟨['\r', '\n'], cs, rfl, .inr rfl⟩
  | case3 =>
    next hfirst hsecond =>
    rw [lineEnds.eq_3 _ hfirst hsecond] at h
    exact absurd rfl h

theorem ignored_cons_eq_none {cs : List Char} (hblank : isBlank c ≠ true) (hc : c ≠ ';') :
    ignored (c :: cs) = none := by
  have hrun : many1 isBlank (c :: cs) = none := andThen_of_eq_none (one_of_neg hblank) _
  rw [ignored, orElse, andThen_of_eq_none (char_of_ne hc cs), Option.or_none]
  exact hrun

/-- A text that says something can be read on. -/
theorem exists_step (h : mode.spell text ≠ none) (hne : text ≠ []) :
    ∃ piece rest next done, text = piece ++ rest ∧ piece ≠ [] ∧ Step mode piece rest next done := by
  obtain ⟨c, cs, rfl⟩ := List.exists_cons_of_ne_nil hne
  cases mode with
  | comment state =>
    by_cases hc : c = '\n'
    · subst hc
      obtain ⟨done, hdone⟩ := exists_finished (.inl rfl) ((spell_comment_newline state cs) ▸ h)
      exact ⟨['\n'], cs, _, done, rfl, List.cons_ne_nil _ _, .commentEnd hdone⟩
    · exact ⟨[c], cs, _, [], rfl, List.cons_ne_nil _ _, .hidden hc⟩
  | line state =>
    by_cases hblank : isBlank c = true
    · exact ⟨[c], cs, _, [], rfl, List.cons_ne_nil _ _, .blank hblank⟩
    by_cases hc : c = ';'
    · subst hc
      exact ⟨[';'], cs, _, [], rfl, List.cons_ne_nil _ _, .comment⟩
    cases hmatch : firstMatch (byPriority.filter state.accepts) (c :: cs) with
    | none => exact absurd (said_mismatch (ignored_cons_eq_none hblank hc) hmatch) h
    | some found =>
      obtain ⟨kind, piece, rest⟩ := found
      have hscan := (scan_of_firstMatch hmatch).2
      by_cases hkind : kind = .newline
      · rw [hkind] at hscan
        obtain ⟨piece, rest, hsplit, hpiece⟩ :=
          exists_lineEnd (by rw [hscan]; exact Option.some_ne_none _)
        rw [hsplit] at h ⊢
        obtain ⟨done, hdone⟩ := exists_finished hpiece h
        exact ⟨piece, rest, _, done, rfl, by rcases hpiece with rfl | rfl <;> simp,
          .lineEnd hpiece hdone⟩
      · have hsplit := kind.splits_scan _ _ _ hscan
        rw [hsplit] at hmatch ⊢
        exact ⟨piece, rest, _, [], rfl, kind.consumes_scan _ _ _ hscan, .token hkind hmatch⟩

/-! ## What stands behind -/

/-- Every piece ends where the next separator stands. -/
theorem Step.cut (h : Step mode piece (front ++ behind) next done) (hc : c ∈ separators) :
    Step mode piece (front ++ c :: rest) next done := by
  cases h with
  | blank hblank => exact .blank hblank
  | comment => exact .comment
  | hidden hhidden => exact .hidden hhidden
  | lineEnd hpiece hdone => exact .lineEnd hpiece hdone
  | commentEnd hdone => exact .commentEnd hdone
  | token hkind hmatch => exact .token hkind (firstMatch_cut hkind hc hmatch)

/-- **What stands behind may be replaced by what says the same**, if it starts with a separator. -/
theorem Reaches.spell_congr (h : Reaches mode front behind last) (hc : c ∈ separators)
    (hbehind : last.spell (c :: rest) = last.spell behind) :
    mode.spell (front ++ c :: rest) = mode.spell (front ++ behind) := by
  induction h with
  | refl mode behind => exact hbehind
  | step hstep _ ih =>
    rw [List.append_assoc, List.append_assoc, hstep.spell_eq, (hstep.cut hc).spell_eq, ih hbehind]

end Mode
end ShiftBarrier
