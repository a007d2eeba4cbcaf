import Mathlib.Logic.Relation
import ShiftBarrier.Proofs.Spacing.Line

/-!
# Layout does not matter

Blanks, comments, empty lines and carriage returns can be added to a text, and it is read as the
same module.

* `Spacing.StartsLine` and `Spacing.EndsLine` are places in a text where a line starts or ends,
  `Spacing.Gap` is a place where blanks may be put.
* `Spacing.Edit` is one change of the layout, `Spacing.Relaid` any number of them.
* `Spacing.exists_reaches` says that the reader stops at the ends of lines.
* `Assembly.parse_relaid` is the result.
-/

set_option autoImplicit false

namespace ShiftBarrier
namespace Spacing

open Mode

/-! ## Changes of the layout

The places where a change is allowed are given by what the reader has come to, so there are none
within a token. -/

/-- A line starts behind this text. -/
def StartsLine (front : List Char) : Prop := front = [] ∨ front.getLast? = some '\n'

/-- A line ends between the two texts: a line feed follows, or a carriage return that belongs to
one. -/
def EndsLine (front behind : List Char) : Prop :=
  (∃ rest, behind = '\r' :: '\n' :: rest) ∨
    (∃ rest, behind = '\n' :: rest) ∧ front.getLast? ≠ some '\r'

/-- The places where blanks may be put: wherever the reader comes to stand between two tokens, and
where a line starts or ends. -/
inductive Gap (front behind : List Char) : Prop
  | between {mode : Mode} (h : Reaches (.line .start) front behind mode)
  | lineStart (h : StartsLine front)
  | lineEnd (h : EndsLine front behind)

/-- A comment, which may be of any characters but a line feed. -/
def IsComment (text : List Char) : Prop := ∃ hidden, text = ';' :: hidden ∧ '\n' ∉ hidden

/-- A line without tokens, with its end. -/
def IsEmptyLine (line : List Char) : Prop :=
  ∃ blanks comment ending, line = blanks ++ (comment ++ ending) ∧
    (∀ c ∈ blanks, isBlank c = true) ∧ (comment = [] ∨ IsComment comment) ∧ IsLineEnd ending

/-- A change of the layout: blanks between tokens, a comment in front of the end of a line, a line
without tokens, or a carriage return in front of a line feed. -/
inductive Edit : List Char → List Char → Prop
  | blanks {front blanks behind : List Char} (hgap : Gap front behind)
      (hblanks : ∀ c ∈ blanks, isBlank c = true) :
      Edit (front ++ behind) (front ++ (blanks ++ behind))
  | comment {front comment behind : List Char} (hend : EndsLine front behind)
      (hcomment : IsComment comment) : Edit (front ++ behind) (front ++ (comment ++ behind))
  | line {front line behind : List Char} (hstart : StartsLine front) (hline : IsEmptyLine line) :
      Edit (front ++ behind) (front ++ (line ++ behind))
  | carriageReturn {front behind : List Char} (hend : EndsLine front ('\n' :: behind)) :
      Edit (front ++ '\n' :: behind) (front ++ '\r' :: '\n' :: behind)

/-- A text and the same text laid out differently.  The last line ends where the text ends. -/
def Relaid (source source' : String) : Prop :=
  Relation.ReflTransGen Edit (source.toList ++ ['\n']) (source'.toList ++ ['\n'])

variable {mode next last : Mode} {front tail piece behind rest text text' : List Char}
  {done : List Statement}

/-! ## The reader stops at the ends of lines -/

/-- A line starts or ends between the two texts. -/
def IsBreak (front behind : List Char) : Prop :=
  front.getLast? = some '\n' ∨ EndsLine front behind

theorem isBreak_append (hne : front ≠ []) (h : IsBreak (piece ++ front) behind) :
    IsBreak front behind := by
  rwa [IsBreak, EndsLine, List.getLast?_append_of_ne_nil _ hne] at h

/-- No line ends within a token. -/
theorem not_isBreak_of_token {kind : TokenKind} (hkind : kind ≠ .newline)
    (hscan : kind.scan text = some (front ++ tail, rest)) (htail : tail ≠ []) :
    ¬ IsBreak front (tail ++ rest) := by
  obtain ⟨hmem, hlast⟩ := TokenKind.line_of_scan hkind hscan
  obtain ⟨c, tail, rfl⟩ := List.exists_cons_of_ne_nil htail
  rw [List.mem_append, not_or] at hmem
  rintro (hfront | ⟨rest', hrest⟩ | ⟨⟨rest', hrest⟩, -⟩)
  · exact hmem.1 (List.mem_of_getLast? hfront)
  · rw [List.cons_append, List.cons.injEq] at hrest
    obtain ⟨rfl, hrest⟩ := hrest
    cases tail with
    | nil => exact hlast (by simp)
    | cons d tail =>
      rw [List.cons_append, List.cons.injEq] at hrest
      exact hmem.2 (by simp [hrest.1])
  · rw [List.cons_append, List.cons.injEq] at hrest
    exact hmem.2 (by simp [hrest.1])

/-- No line ends within a piece of text that the reader takes at once. -/
theorem not_isBreak_of_step (h : Step mode (front ++ tail) rest next done) (hfront : front ≠ [])
    (htail : tail ≠ []) : ¬ IsBreak front (tail ++ rest) := by
  have hlength : 2 ≤ (front ++ tail).length := by
    have hfront := List.length_pos_iff.2 hfront
    have htail := List.length_pos_iff.2 htail
    rw [List.length_append]
    omega
  generalize hpiece : front ++ tail = piece at h hlength
  cases h with
  | blank => simp at hlength
  | comment => simp at hlength
  | hidden => simp at hlength
  | commentEnd => simp at hlength
  | lineEnd hend =>
    rcases hend with rfl | rfl
    · simp at hlength
    · -- the line feed belongs to the carriage return in front of it
      obtain ⟨c, front, rfl⟩ := List.exists_cons_of_ne_nil hfront
      obtain ⟨d, tail, rfl⟩ := List.exists_cons_of_ne_nil htail
      obtain ⟨rfl, hpiece⟩ := List.cons.inj hpiece
      obtain ⟨rfl, rfl, rfl⟩ : front = [] ∧ d = '\n' ∧ tail = [] := by
        simpa [List.append_eq_singleton_iff] using hpiece
      simp [IsBreak, EndsLine]
  | token hkind hmatch =>
    rw [← hpiece] at hmatch
    exact not_isBreak_of_token hkind (Statement.scan_of_firstMatch hmatch).2 htail

theorem next_eq_of_step (h : Step mode piece rest next done) (hlast : piece.getLast? = some '\n') :
    next = .line .start := by
  cases h with
  | blank hc =>
    obtain rfl := Option.some.inj hlast
    exact absurd hc (by decide)
  | comment => simp at hlast
  | hidden hc => exact absurd (by simpa using hlast) hc
  | commentEnd => rfl
  | lineEnd => rfl
  | token hkind hmatch =>
    have hscan := (Statement.scan_of_firstMatch hmatch).2
    exact absurd (List.mem_of_getLast? hlast) (TokenKind.line_of_scan hkind hscan).1

/-- **The reader comes to every place where a line starts or ends.** -/
theorem exists_reaches (hread : mode.spell (front ++ behind) ≠ none)
    (hbreak : IsBreak front behind) : ∃ last, Reaches mode front behind last ∧
      (front.getLast? = some '\n' → last = .line .start) := by
  induction hlength : front.length using Nat.strongRecOn generalizing mode front with
  | _ length ih =>
    by_cases hnil : front = []
    · subst hnil
      exact ⟨mode, .refl mode behind, nofun⟩
    obtain ⟨piece, rest, next, done, hsplit, hpiece, hstep⟩ :=
      exists_step hread (List.append_ne_nil_of_left_ne_nil hnil _)
    -- the piece does not go beyond the place
    obtain ⟨front, rfl, rfl⟩ : ∃ front', front = piece ++ front' ∧ rest = front' ++ behind := by
      rcases List.append_eq_append_iff.1 hsplit with ⟨tail, rfl, rfl⟩ | ⟨front', rfl, rfl⟩
      · by_cases htail : tail = []
        · exact ⟨[], by simp [htail], by simp [htail]⟩
        · exact absurd hbreak (not_isBreak_of_step hstep hnil htail)
      · exact ⟨front', rfl, rfl⟩
    by_cases hfront : front = []
    · subst hfront
      refine ⟨next, .step hstep (.refl next behind), fun hlast => ?_⟩
      rw [List.append_nil] at hlast
      exact next_eq_of_step hstep hlast
    · rw [List.append_assoc, hstep.spell_eq, Ne, Option.map_eq_none_iff] at hread
      have hlt : front.length < length := by
        have hpos := List.length_pos_iff.2 hpiece
        rw [← hlength, List.length_append]
        omega
      obtain ⟨last, hrest, hmode⟩ := ih _ hlt hread (isBreak_append hfront hbreak) rfl
      refine ⟨last, .step hstep hrest, fun hlast => hmode ?_⟩
      rwa [List.getLast?_append_of_ne_nil _ hfront] at hlast

/-! ## What changes of the layout leave alone -/

theorem Gap.exists_reaches (h : Gap front behind)
    (hread : (Mode.line .start).spell (front ++ behind) ≠ none) :
    ∃ last, Reaches (.line .start) front behind last := by
  have hbreak : IsBreak front behind → ∃ last, Reaches (.line .start) front behind last := by
    intro hbreak
    obtain ⟨last, hlast, -⟩ := Spacing.exists_reaches hread hbreak
    exact ⟨last, hlast⟩
  cases h with
  | between h => exact ⟨_, h⟩
  | lineStart h =>
    rcases h with rfl | h
    · exact ⟨_, .refl _ behind⟩
    · exact hbreak (.inl h)
  | lineEnd h => exact hbreak (.inr h)

/-- The reader is in no comment and in no statement when a line starts. -/
theorem StartsLine.reaches (h : StartsLine front)
    (hread : (Mode.line .start).spell (front ++ behind) ≠ none) :
    Reaches (.line .start) front behind (.line .start) := by
  rcases h with rfl | h
  · exact .refl _ behind
  · obtain ⟨last, hlast, hmode⟩ := Spacing.exists_reaches hread (.inl h)
    rwa [hmode h] at hlast

theorem mem_separators_of_isBlank {c : Char} (hc : isBlank c = true) : c ∈ separators := by
  obtain rfl | rfl : c = ' ' ∨ c = '\t' := by simpa [isBlank] using hc
  · decide
  · decide

theorem spell_blanks {blanks : List Char} (h : ∀ c ∈ blanks, isBlank c = true) (mode : Mode)
    (behind : List Char) : mode.spell (blanks ++ behind) = mode.spell behind := by
  induction blanks with
  | nil => rfl
  | cons c blanks ih =>
    obtain ⟨hc, hblanks⟩ := List.forall_mem_cons.1 h
    have hstep : Step mode [c] (blanks ++ behind) mode [] := by
      cases mode with
      | line state => exact .blank hc
      | comment state =>
        refine .hidden ?_
        rintro rfl
        exact absurd hc (by decide)
    rw [← ih hblanks]
    exact hstep.spell_eq.trans Option.map_id'

/-- With or without a carriage return. -/
theorem spell_carriageReturn (mode : Mode) (behind : List Char) :
    mode.spell ('\r' :: '\n' :: behind) = mode.spell ('\n' :: behind) := by
  cases mode with
  | line state =>
    exact (Statement.spell_lineEnd (.inr rfl) behind).trans
      (Statement.spell_lineEnd (.inl rfl) behind).symm
  | comment state => rfl

/-- In front of the end of a line there may be anything that is hidden. -/
theorem spell_dropWhile_of_endsLine (h : EndsLine front behind) (mode : Mode) :
    mode.spell (behind.dropWhile (· != '\n')) = mode.spell behind := by
  rcases h with ⟨rest, rfl⟩ | ⟨⟨rest, rfl⟩, -⟩
  · exact (spell_carriageReturn mode rest).symm
  · rfl

/-- A comment may stand in front of the end of a line, also behind another comment. -/
theorem spell_comment {comment : List Char} (hcomment : IsComment comment)
    (hend : EndsLine front behind) (mode : Mode) :
    mode.spell (comment ++ behind) = mode.spell behind := by
  obtain ⟨hidden, rfl, hmem⟩ := hcomment
  have hhidden : ∀ c ∈ hidden, (c != '\n') = true := by
    intro c hc
    rw [bne_iff_ne]
    rintro rfl
    exact hmem hc
  cases mode with
  | line state =>
    refine (Statement.spell_comment _).trans ?_
    rw [List.append_eq, List.dropWhile_append_of_pos hhidden]
    exact spell_dropWhile_of_endsLine hend (.line state)
  | comment state =>
    have hall : ∀ c ∈ ';' :: hidden, (c != '\n') = true :=
      List.forall_mem_cons.2 ⟨rfl, hhidden⟩
    rw [spell, spell, List.dropWhile_append_of_pos hall]

theorem IsEmptyLine.exists_separator {line : List Char} (h : IsEmptyLine line) :
    ∃ c rest, line = c :: rest ∧ c ∈ separators := by
  obtain ⟨blanks, comment, ending, rfl, hblanks, hcomment, hending⟩ := h
  cases blanks with
  | cons c blanks =>
    exact ⟨c, _, rfl, mem_separators_of_isBlank (hblanks c List.mem_cons_self)⟩
  | nil =>
    rcases hcomment with rfl | ⟨hidden, rfl, -⟩
    · rcases hending with rfl | rfl
      · exact ⟨'\n', _, rfl, by decide⟩
      · exact ⟨'\r', _, rfl, by decide⟩
    · exact ⟨';', _, rfl, by decide⟩

/-- An empty line completes nothing. -/
theorem IsEmptyLine.spell_eq {line : List Char} (h : IsEmptyLine line) (behind : List Char) :
    (Mode.line .start).spell (line ++ behind) = (Mode.line .start).spell behind := by
  obtain ⟨blanks, comment, ending, rfl, hblanks, hcomment, hending⟩ := h
  have hcomment' : (Mode.line .start).spell (comment ++ (ending ++ behind))
      = (Mode.line .start).spell (ending ++ behind) := by
    rcases hcomment with rfl | hcomment
    · rfl
    · have hend : EndsLine [] (ending ++ behind) := by
        rcases hending with rfl | rfl
        · exact .inr ⟨⟨behind, rfl⟩, nofun⟩
        · exact .inl ⟨behind, rfl⟩
      exact spell_comment hcomment hend _
  rw [List.append_assoc, spell_blanks hblanks, List.append_assoc, hcomment']
  exact (Statement.spell_lineEnd hending behind).trans Option.map_id'

/-- **A change of the layout does not change what the text says.** -/
theorem Edit.spell_eq (h : Edit text text') (hread : Statement.spell .start text ≠ none) :
    Statement.spell .start text' = Statement.spell .start text := by
  cases h with
  | @blanks front blanks behind hgap hblanks =>
    obtain ⟨last, hlast⟩ := hgap.exists_reaches hread
    cases blanks with
    | nil => rfl
    | cons c blanks =>
      exact hlast.spell_congr (mem_separators_of_isBlank (hblanks c List.mem_cons_self))
        (spell_blanks hblanks last behind)
  | @comment front comment behind hend hcomment =>
    obtain ⟨last, hlast⟩ := (Gap.lineEnd hend).exists_reaches hread
    have hsame := spell_comment hcomment hend last
    obtain ⟨hidden, rfl, -⟩ := hcomment
    exact hlast.spell_congr (by decide) hsame
  | @line front line behind hstart hline =>
    have hlast := hstart.reaches hread
    have hsame := hline.spell_eq behind
    obtain ⟨c, rest, rfl, hc⟩ := hline.exists_separator
    exact hlast.spell_congr hc hsame
  | @carriageReturn front behind hend =>
    obtain ⟨last, hlast⟩ := (Gap.lineEnd hend).exists_reaches hread
    exact hlast.spell_congr (by decide) (spell_carriageReturn last behind)

theorem spell_eq_of_edits (h : Relation.ReflTransGen Edit text text')
    (hread : Statement.spell .start text ≠ none) :
    Statement.spell .start text' = Statement.spell .start text := by
  induction h with
  | refl => rfl
  | tail _ hedit ih => exact (hedit.spell_eq (ih ▸ hread)).trans ih

end Spacing

namespace Assembly

/-- **Layout does not matter.**  Where one text is read, so is every text that differs from it by
blanks between tokens or at the ends of lines, by comments, empty lines and carriage returns, and
the module is the same. -/
theorem parse_relaid {settings : Settings} {source source' : String} {m : Module}
    (h : Spacing.Relaid source source') (hparse : parse settings source = .ok m) :
    parse settings source' = .ok m := by
  obtain ⟨statements, is, hspell, hbuild⟩ := parse_eq_ok_iff.1 hparse
  refine parse_eq_ok_iff.2 ⟨statements, is, ?_, hbuild⟩
  rw [Spacing.spell_eq_of_edits h (by rw [hspell]; exact Option.some_ne_none _), hspell]

/-- Two lines with no more blanks than they need. -/
def tightText : String := "%1=OpTypeInt 32 0\n%2=OpConstant %1 5"

/-- The same lines with a blank, a comment, a carriage return and an empty line. -/
def looseText : String := "%1 =OpTypeInt 32 0;\"%\r\n\t; %2\n%2=OpConstant %1 5"

/-- The module of both texts. -/
def tightModule : Module :=
  { globals :=
      [{ opcode := "OpTypeInt", result := some ⟨1, none⟩,
         operands := [.literal (.int 32) none, .literal (.int 0) none], serial := 0 },
       { opcode := "OpConstant", type := some ⟨1, none⟩, result := some ⟨2, none⟩,
         operands := [.literal (.int 5) none], serial := 1 }]
    bound := 3
    nextSerial := 2 }

open Spacing Mode in
theorem parse_relaid_sample : Relaid tightText looseText ∧
    parse {} tightText = .ok tightModule ∧ parse {} looseText = .ok tightModule := by
  have hparse : parse {} tightText = .ok tightModule := toOption_eq_some_iff.1 (by decide +kernel)
  let first := "%1=OpTypeInt 32 0".toList
  let second := "%2=OpConstant %1 5\n".toList
  let empty := "\t; %2\n".toList
  let comment := ";\"%".toList
  have hline : Edit ((first ++ ['\n']) ++ second) ((first ++ ['\n']) ++ (empty ++ second)) :=
    .line (.inr rfl)
      ⟨['\t'], "; %2".toList, ['\n'], rfl, List.forall_mem_singleton.2 rfl,
        .inr ⟨_, rfl, by decide⟩, .inl rfl⟩
  have hreturn : Edit (first ++ '\n' :: (empty ++ second))
      (first ++ '\r' :: '\n' :: (empty ++ second)) :=
    .carriageReturn (.inr ⟨⟨_, rfl⟩, by decide⟩)
  have hcomment : Edit (first ++ '\r' :: '\n' :: (empty ++ second))
      (first ++ (comment ++ '\r' :: '\n' :: (empty ++ second))) :=
    .comment (.inl ⟨_, rfl⟩) ⟨_, rfl, by decide⟩
  let behind := "=OpTypeInt 32 0".toList ++ (comment ++ '\r' :: '\n' :: (empty ++ second))
  have hid : Step (.line .start) ['%', '1'] ([] ++ behind) (.line (.named "1")) [] :=
    @Step.token .start .id _ _ nofun rfl
  have hblank : Edit (['%', '1'] ++ behind) (['%', '1'] ++ ([' '] ++ behind)) :=
    .blanks (.between (.step hid (.refl _ _))) (List.forall_mem_singleton.2 rfl)
  have hrelaid : Relaid tightText looseText :=
    .tail (.tail (.tail (.single hline) hreturn) hcomment) hblank
  exact ⟨hrelaid, hparse, parse_relaid hrelaid hparse⟩

end Assembly
end ShiftBarrier
