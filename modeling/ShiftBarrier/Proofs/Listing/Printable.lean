import ShiftBarrier.Proofs.Listing.Layout
import ShiftBarrier.Proofs.Listing.Names

/-!
# Modules whose listings can be read again

* `Module.Printable` is what a module must be like for that.
* `Assembly.printable_of_parse` says that every module that is read is so.  The induction goes over
  the tokens of the text first (`Statement.lexed_of_read`), then over its instructions
  (`Assembly.Builder.Tidy`).
-/

set_option autoImplicit false

namespace ShiftBarrier

/-- An instruction whose line can be read again and that mentions none but the given ids. -/
structure Instruction.Within (ids : List Id) (i : Instruction) : Prop where
  printable : i.Printable
  mentions : ∀ id ∈ i.mentions, id ∈ ids

theorem Instruction.Within.withSerial {ids : List Id} {i : Instruction} (h : i.Within ids)
    (serial : Nat) : ({ i with serial } : Instruction).Within ids :=
  ⟨⟨h.printable.opcode, h.printable.type, h.printable.result, h.printable.operands,
    h.printable.typed⟩, h.mentions⟩

/-- A module whose listing can be read again, with its ids. -/
structure Module.Printable (ids : List Id) (m : Module) : Prop where
  vocabulary : Vocabulary m.bound ids
  arranged : m.Arranged
  within : ∀ i ∈ m.listed, i.Within ids

/-! ## Tokens -/

open Scanner TokenKind

/-- A token of a text, in the place of an operand. -/
structure Token.Lexed (t : Token) : Prop where
  kind : t.kind ∈ operandKinds ∧ t.kind ≠ .newline
  scan : ∃ rest, t.kind.scan (t.text.toList ++ rest) = some (t.text.toList, rest)

/-- A statement of a text. -/
structure Statement.Lexed (s : Statement) : Prop where
  result : ∀ name ∈ s.result, IsName name.toList
  opcode : Instruction.IsMnemonic s.opcode
  operands : ∀ t ∈ s.operands, t.Lexed

namespace LineState

/-- A line of which the first tokens have been read. -/
inductive Lexed : LineState → Prop
  | start : Lexed .start
  | named {name : String} (h : IsName name.toList) : Lexed (.named name)
  | assigned {name : String} (h : IsName name.toList) : Lexed (.assigned name)
  | operands {s : Statement} (h : s.Lexed) : Lexed (.operands s)

theorem isName_idName {text : String} {rest : List Char}
    (h : TokenKind.id.scan (text.toList ++ rest) = some (text.toList, rest)) :
    IsName (idName text).toList := by
  obtain ⟨name, heq, hname⟩ := scan_id_eq_some h
  rw [idName, heq, String.toList_ofList]
  exact hname

theorem isMnemonic_of_scan {text : String} {rest : List Char}
    (h : TokenKind.opcode.scan (text.toList ++ rest) = some (text.toList, rest)) :
    Instruction.IsMnemonic text := by
  obtain ⟨l₁, l₂, r₁, h₁, h₂, heq⟩ := andThen_eq_some h
  obtain ⟨l₃, name, r₂, h₃, h₄, rfl⟩ := andThen_eq_some h₂
  obtain ⟨c, rfl, -, hc⟩ := one_eq_some h₁
  obtain ⟨d, rfl, -, hd⟩ := one_eq_some h₃
  refine ⟨name, ?_, (many1_eq_some h₄).2⟩
  rw [heq, eq_of_beq hc, eq_of_beq hd]
  rfl

/-- An accepted token leaves a line lexed, and so is the statement that it completes. -/
theorem Lexed.push {state : LineState} (h : state.Lexed) {t : Token}
    (haccepts : state.accepts t.kind = true) {rest : List Char}
    (hscan : t.kind.scan (t.text.toList ++ rest) = some (t.text.toList, rest)) :
    (state.push t).1.Lexed ∧ ∀ s ∈ (state.push t).2, s.Lexed := by
  obtain ⟨kind, text, position⟩ := t
  dsimp only at haccepts hscan
  cases h with
  | start =>
    cases kind with
    | id => exact ⟨.named (isName_idName hscan), nofun⟩
    | opcode => exact ⟨.operands ⟨nofun, isMnemonic_of_scan hscan, nofun⟩, nofun⟩
    | newline => exact ⟨.start, nofun⟩
    | _ => cases haccepts
  | named hname => exact ⟨.assigned hname, nofun⟩
  | @assigned name hname =>
    have hkind : kind = .opcode := by simpa [accepts] using haccepts
    subst hkind
    refine ⟨.operands ⟨fun r hr => ?_, isMnemonic_of_scan hscan, nofun⟩, nofun⟩
    cases hr
    exact hname
  | @operands s hs =>
    by_cases hkind : kind = .newline
    · rw [LineState.push, if_pos hkind]
      refine ⟨.start, fun s' hs' => ?_⟩
      cases hs'
      exact ⟨hs.result, hs.opcode, fun t ht => hs.operands t (List.mem_reverse.1 ht)⟩
    · rw [LineState.push, if_neg hkind]
      have hmem : kind ∈ operandKinds := by
        cases kind with
        | equal => cases haccepts
        | opcode => cases haccepts
        | _ => decide
      refine ⟨.operands ⟨hs.result, hs.opcode,
        List.forall_mem_cons.2 ⟨⟨⟨hmem, hkind⟩, rest, hscan⟩, hs.operands⟩⟩, fun s' hs' => ?_⟩
      cases hs'

end LineState

namespace Statement

/-- The statements of a text are made of its tokens. -/
theorem lexed_of_read {fuel : Nat} {state : LineState} {position : Position} {text : List Char}
    {statements : List Statement} (hstate : state.Lexed)
    (h : read fuel state position text = .ok statements) : ∀ s ∈ statements, s.Lexed := by
  induction fuel generalizing state position text statements with
  | zero =>
    cases text <;> cases h <;> exact fun s hs => absurd hs List.not_mem_nil
  | succ fuel ih =>
    match text with
    | [] =>
      cases h
      exact fun s hs => absurd hs List.not_mem_nil
    | c :: cs =>
      rw [read] at h
      split at h
      · exact ih hstate h
      · split at h
        · cases h
        · next kind lexeme rest hmatch =>
          obtain ⟨hkind, hscan⟩ := scan_of_firstMatch hmatch
          have haccepts := (List.mem_filter.1 hkind).2
          rw [kind.splits_scan _ _ _ hscan, ← String.toList_ofList (l := lexeme)] at hscan
          have hlexed := hstate.push (t := ⟨kind, String.ofList lexeme, position⟩) haccepts hscan
          dsimp only at h
          cases hrest : read fuel (state.push ⟨kind, String.ofList lexeme, position⟩).1
              (position.advance lexeme) rest with
          | error e => rw [hrest] at h; cases h
          | ok later =>
            rw [hrest] at h
            cases h
            intro s hs
            rcases List.mem_append.1 hs with hs | hs
            · exact hlexed.2 s (Option.mem_toList.1 hs)
            · exact ih hlexed.1 hrest s hs

end Statement

/-! ## Source instructions -/

/-- What a token in the place of an operand denotes can be printed. -/
theorem Token.Lexed.ofToken {t : Token} (h : t.Lexed) {operand : SourceOperand}
    (htoken : SourceOperand.ofToken t = .ok operand) :
    (∃ name, operand = .name name ∧ IsName name.toList) ∨
      ∃ value, operand = .value value ∧ value.Printable := by
  obtain ⟨⟨hkind, hline⟩, rest, hscan⟩ := h
  obtain ⟨kind, text, position⟩ := t
  dsimp only at hkind hline hscan
  have hspelled : kind = .hexFloat ∨ kind = .float → ∀ value, (∀ position,
      SourceOperand.ofToken ⟨kind, text, position⟩ = .ok (.value (.literal value (some text)))) →
      Operand.Printable (.literal value (some text)) := by
    intro hfloat value hdenotes
    exact .spelled ⟨kind, reads_of_scan (.inr hfloat) hscan, hline, hdenotes⟩
  rw [SourceOperand.ofToken] at htoken
  cases kind with
  | id =>
    cases htoken
    exact .inl ⟨_, rfl, LineState.isName_idName hscan⟩
  | hexFloat =>
    cases htoken
    exact .inr ⟨_, rfl, hspelled (.inl rfl) _ fun _ => rfl⟩
  | hex =>
    cases htoken
    exact .inr ⟨_, rfl, .int _⟩
  | float =>
    cases htoken
    exact .inr ⟨_, rfl, hspelled (.inr rfl) _ fun _ => rfl⟩
  | int =>
    rw [bind_eq_ok_iff] at htoken
    obtain ⟨n, -, heq⟩ := htoken
    cases heq
    exact .inr ⟨_, rfl, .int n⟩
  | string =>
    rw [bind_eq_ok_iff] at htoken
    obtain ⟨s, hs, heq⟩ := htoken
    cases heq
    exact .inr ⟨_, rfl, .string (Literal.joined_of_decode (mapError_eq_ok_iff.1 hs))⟩
  | word =>
    cases htoken
    exact .inr ⟨_, rfl, .enumerant (reads_of_scan (.inl rfl) hscan)⟩
  | equal => exact absurd hkind (by decide)
  | opcode => exact absurd hkind (by decide)
  | newline => exact absurd rfl hline

/-- A source instruction of a text. -/
structure SourceInstruction.Lexed (i : SourceInstruction) : Prop where
  opcode : Instruction.IsMnemonic i.opcode
  names : ∀ name ∈ i.references, IsName name.toList
  values : ∀ value, SourceOperand.value value ∈ i.operands → value.Printable

theorem SourceInstruction.lexed_of_ofStatement {s : Statement} (hs : s.Lexed)
    {i : SourceInstruction} (h : ofStatement s = .ok i) : i.Lexed := by
  rw [ofStatement, bind_eq_ok_iff] at h
  obtain ⟨operands, hoperands, h⟩ := h
  cases h
  have hall : ∀ operand ∈ operands, (∃ name, operand = .name name ∧ IsName name.toList) ∨
      ∃ value, operand = .value value ∧ value.Printable := by
    intro operand hmem
    obtain ⟨t, ht, htoken⟩ := exists_of_mem_result hoperands hmem
    exact (hs.operands t ht).ofToken htoken
  refine ⟨hs.opcode, fun name hname => ?_, fun value hvalue => ?_⟩
  · rcases List.mem_append.1 hname with hname | hname
    · exact hs.result name (Option.mem_toList.1 hname)
    · obtain ⟨operand, hmem, heq⟩ := List.mem_filterMap.1 hname
      rcases hall operand hmem with ⟨name', rfl, hname'⟩ | ⟨value, rfl, -⟩
      · cases heq
        exact hname'
      · cases heq
  · rcases hall _ hvalue with ⟨name, heq, -⟩ | ⟨value', heq, hvalue'⟩
    · cases heq
    · cases heq
      exact hvalue'

namespace Assembly

/-- Resolving the names of a source instruction makes an instruction that can be printed. -/
theorem within_of_resolve {n : Numbering} {i : SourceInstruction} (hi : i.Lexed)
    (hnames : i.NamesOnly) {ids : List Id} (hids : ∀ name ∈ i.references, n.id name ∈ ids)
    (hspelled : ∀ id ∈ ids, id.Spelled) {j : Instruction} (h : resolve n i = .ok j) :
    j.Within ids := by
  have hj := resolve_eq_ok_iff.1 h
  have hmentions : ∀ id ∈ j.mentions, id ∈ ids := by
    intro id hid
    obtain ⟨name, hmem, rfl⟩ := exists_name_of_mention hnames h hid
    exact hids name hmem
  have hoperands : ∀ operand ∈ i.operands.map (resolveOperand n), operand.Printable := by
    refine List.forall_mem_map.2 fun operand hmem => ?_
    cases operand with
    | name name =>
      refine .id (hspelled _ (hids name (List.mem_append_right _ ?_)))
      exact List.mem_filterMap.2 ⟨_, hmem, rfl⟩
    | value value => exact hi.values value hmem
  refine ⟨⟨hj.opcode ▸ hi.opcode, fun id hid => ?_, fun id hid => ?_, fun operand hmem => ?_,
    hj.typed⟩, hmentions⟩
  · exact hspelled id (hmentions id
      (List.mem_append_right _ (List.mem_append_left _ (Option.mem_toList.2 hid))))
  · exact hspelled id (hmentions id (List.mem_append_left _ (Option.mem_toList.2 hid)))
  · exact hoperands operand (hj.operands ▸ List.mem_append_right _ hmem)

end Assembly

/-! ## Modules -/

/-- A function that is arranged and mentions none but the given ids. -/
structure Function.Tidy (ids : List Id) (f : Function) : Prop where
  arranged : f.Arranged
  within : ∀ i ∈ f.instructions, i.Within ids
  labels : ∀ id ∈ f.labels, id ∈ ids

theorem Block.within_opening {ids : List Id} (hspelled : ∀ id ∈ ids, id.Spelled) {label : Id}
    (h : label ∈ ids) : (opening label).Within ids := by
  have hnone : ∀ id ∈ (none : Option Id), id.Spelled := nofun
  have hmentions : ∀ id ∈ (opening label).mentions, id ∈ ids := by
    simpa [opening, Instruction.mentions, Instruction.uses, Instruction.inputs] using h
  have hmnemonic : Instruction.IsMnemonic "OpLabel" :=
    ⟨"Label".toList, by decide, by decide, List.all_eq_true.1 rfl⟩
  have huntyped : Opcode.hasResultType "OpLabel" = false := by decide
  refine ⟨⟨hmnemonic, hnone, fun id hid => ?_, List.forall_mem_nil _,
    by simp [opening, huntyped]⟩, hmentions⟩
  cases hid
  exact hspelled _ h

theorem Function.within_ending (ids : List Id) : ending.Within ids :=
  ⟨⟨⟨"FunctionEnd".toList, by decide, by decide, List.all_eq_true.1 rfl⟩, nofun, nofun, nofun,
    by decide⟩, nofun⟩

theorem Function.Tidy.within_listed {ids : List Id} (hspelled : ∀ id ∈ ids, id.Spelled)
    {f : Function} (h : f.Tidy ids) : ∀ i ∈ f.listed, i.Within ids := by
  intro i hi
  rcases Function.mem_listed.1 hi with hi | ⟨label, hlabel, rfl⟩ | rfl
  · exact h.within i hi
  · exact Block.within_opening hspelled (h.labels label hlabel)
  · exact within_ending ids

namespace Function.Tidy

variable {ids : List Id} {f : Function} {i : Instruction}

theorem addLabel (h : f.Tidy ids) {label : Id} (hlabel : label ∈ ids)
    (hnew : f.hasBlock label = false) :
    Function.Tidy ids { f with blocks := f.blocks ++ [{ label }] } := by
  have hlabels : Function.labels { f with blocks := f.blocks ++ [{ label }] }
      = f.labels ++ [label] := by
    simp [Function.labels]
  refine ⟨⟨h.arranged.definition, h.arranged.result, h.arranged.params, ?_, ?_⟩, ?_, ?_⟩
  · exact List.forall_mem_append.2
      ⟨h.arranged.body, List.forall_mem_singleton.2 (List.forall_mem_nil _)⟩
  · rw [hlabels, List.map_append, List.nodup_append]
    refine ⟨h.arranged.labels, List.nodup_singleton _, fun n hn k hk heq => ?_⟩
    rw [heq, List.mem_singleton.1 hk] at hn
    exact hasBlock_eq_false_iff.1 hnew hn
  · have hsame : Function.instructions { f with blocks := f.blocks ++ [{ label }] }
        = f.instructions := by
      simp [instructions]
    rw [hsame]
    exact h.within
  · rw [hlabels]
    exact List.forall_mem_append.2 ⟨h.labels, List.forall_mem_singleton.2 hlabel⟩

theorem addParam (h : f.Tidy ids) (hi : i.Within ids) (hopcode : i.opcode = "OpFunctionParameter")
    (hblocks : f.blocks = []) : Function.Tidy ids { f with params := f.params ++ [i] } := by
  have hwithin := h.within
  rw [instructions, hblocks, List.flatMap_nil, List.append_nil] at hwithin
  refine ⟨⟨h.arranged.definition, h.arranged.result, ?_, h.arranged.body, h.arranged.labels⟩, ?_,
    h.labels⟩
  · exact List.forall_mem_append.2 ⟨h.arranged.params, List.forall_mem_singleton.2 hopcode⟩
  · rw [instructions, hblocks, List.flatMap_nil, List.append_nil, ← List.cons_append]
    exact List.forall_mem_append.2 ⟨hwithin, List.forall_mem_singleton.2 hi⟩

theorem addBody (h : f.Tidy ids) (hi : i.Within ids) (hopcode : i.opcode ∉ Opcode.structural)
    (hblocks : f.blocks ≠ []) :
    Function.Tidy ids { f with blocks := Assembly.Builder.appendToLast f.blocks i } := by
  refine ⟨⟨h.arranged.definition, h.arranged.result, h.arranged.params, ?_, ?_⟩, ?_, ?_⟩
  · have hbody := h.arranged.body
    obtain ⟨bs, b, heq⟩ := List.eq_nil_or_concat' f.blocks |>.resolve_left hblocks
    rw [heq] at hbody ⊢
    rw [Assembly.Builder.appendToLast_concat]
    obtain ⟨hbs, hb⟩ := List.forall_mem_append.1 hbody
    refine List.forall_mem_append.2 ⟨hbs, List.forall_mem_singleton.2 ?_⟩
    exact List.forall_mem_append.2
      ⟨List.forall_mem_singleton.1 hb, List.forall_mem_singleton.2 hopcode⟩
  · rw [Function.labels, Assembly.Builder.labels_appendToLast]
    exact h.arranged.labels
  · rw [instructions, Assembly.Builder.instructions_appendToLast hblocks, ← List.append_assoc]
    exact List.forall_mem_append.2 ⟨h.within, List.forall_mem_singleton.2 hi⟩
  · rw [Function.labels, Assembly.Builder.labels_appendToLast]
    exact h.labels

end Function.Tidy

namespace Assembly.Builder

/-- What every step of a construction keeps.  An open function counts as one of the functions. -/
structure Tidy (start : Module) (ids : List Id) (b : Builder) : Prop where
  frame : b.built.bound = start.bound ∧ b.built.settings = start.settings
  preamble : ∀ i ∈ b.built.preamble, Opcode.isPreamble i.opcode = true ∧ i.Within ids
  globals : ∀ i ∈ b.built.globals, (Opcode.isPreamble i.opcode = false ∧ i.opcode ≠ "OpFunction" ∧
    i.opcode ≠ "OpFunctionEnd") ∧ i.Within ids
  functions : ∀ f ∈ b.built.functions ++ b.current.toList, f.Tidy ids
  nodup : ((b.built.functions ++ b.current.toList).map (·.id.number)).Nodup

variable {start : Module} {ids : List Id} {b b' : Builder} {j : Instruction}

theorem Tidy.addDefinition {id : Id} (h : Tidy start ids b) (hcurrent : b.current = none)
    (hj : j.Within ids) (hopcode : j.opcode = "OpFunction") (hresult : j.result = some id)
    (hnew : b.built.hasFunction id = false) :
    Tidy start ids ⟨(b.built.adopt j).2, some { id, definition := (b.built.adopt j).1 }⟩ := by
  have hfunctions := h.functions
  have hnodup := h.nodup
  rw [hcurrent, Option.toList_none, List.append_nil] at hfunctions hnodup
  have harranged : Function.Arranged { id, definition := (b.built.adopt j).1 } :=
    ⟨hopcode, hresult, List.forall_mem_nil _, List.forall_mem_nil _, List.nodup_nil⟩
  refine ⟨h.frame, h.preamble, h.globals, ?_, ?_⟩
  · refine List.forall_mem_append.2
      ⟨hfunctions, List.forall_mem_singleton.2 ⟨harranged, ?_, List.forall_mem_nil _⟩⟩
    exact List.forall_mem_singleton.2 (hj.withSerial _)
  · rw [List.map_append, List.nodup_append]
    refine ⟨hnodup, List.nodup_singleton _, fun n hn k hk heq => ?_⟩
    rw [heq, List.mem_singleton.1 hk] at hn
    exact Module.hasFunction_eq_false_iff.1 hnew hn

/-- A step that changes the open function alone. -/
theorem Tidy.withCurrent {f f' : Function} (h : Tidy start ids b) (hcurrent : b.current = some f)
    (hf' : f.Tidy ids → f'.Tidy ids) (hid : f'.id = f.id) {built : Module}
    (hbuilt : built = { b.built with nextSerial := built.nextSerial }) :
    Tidy start ids { built, current := some f' } := by
  rw [hbuilt]
  have hfunctions := h.functions
  have hnodup := h.nodup
  rw [hcurrent, Option.toList_some] at hfunctions hnodup
  obtain ⟨hold, hf⟩ := List.forall_mem_append.1 hfunctions
  refine ⟨h.frame, h.preamble, h.globals, ?_, ?_⟩
  · exact List.forall_mem_append.2
      ⟨hold, List.forall_mem_singleton.2 (hf' (List.forall_mem_singleton.1 hf))⟩
  · rw [List.map_append] at hnodup ⊢
    simpa [hid] using hnodup

theorem Tidy.added (h : Tidy start ids b) (hj : j.Within ids) (hadd : Added b j b') :
    Tidy start ids b' := by
  have hadopted : (b.built.adopt j).1.Within ids := hj.withSerial _
  have hfunctions := h.functions
  have hnodup := h.nodup
  cases hadd with
  | preamble hcurrent hopcode =>
    rw [hcurrent] at hfunctions hnodup
    refine ⟨h.frame, ?_, h.globals, hfunctions, hnodup⟩
    exact List.forall_mem_append.2 ⟨h.preamble, List.forall_mem_singleton.2 ⟨hopcode, hadopted⟩⟩
  | global hcurrent hopcode hfunction hend =>
    rw [hcurrent] at hfunctions hnodup
    refine ⟨h.frame, h.preamble, ?_, hfunctions, hnodup⟩
    exact List.forall_mem_append.2
      ⟨h.globals, List.forall_mem_singleton.2 ⟨⟨hopcode, hfunction, hend⟩, hadopted⟩⟩
  | definition hcurrent hopcode hresult hnew =>
    exact h.addDefinition hcurrent hj hopcode hresult hnew
  | ending hcurrent =>
    rw [hcurrent, Option.toList_some] at hfunctions hnodup
    refine ⟨h.frame, h.preamble, h.globals, ?_, ?_⟩
    · rwa [Option.toList_none, List.append_nil]
    · rwa [Option.toList_none, List.append_nil]
  | label hcurrent _ hresult hnew =>
    have hmem := hj.mentions _ (List.mem_append_left _ (Option.mem_toList.2 hresult))
    exact h.withCurrent hcurrent (fun hf => hf.addLabel hmem hnew) rfl rfl
  | param hcurrent hopcode hblocks =>
    exact h.withCurrent hcurrent (fun hf => hf.addParam hadopted hopcode hblocks) rfl rfl
  | body hcurrent hopcode hblocks =>
    exact h.withCurrent hcurrent (fun hf => hf.addBody hadopted hopcode hblocks) rfl rfl

end Assembly.Builder

namespace Assembly

/-- Reserving ids changes the bound alone. -/
theorem foldl_reserve_eq (ids : List Id) (m : Module) :
    ids.foldl Module.reserve m = { m with bound := (ids.foldl Module.reserve m).bound } := by
  induction ids generalizing m with
  | nil => rfl
  | cons id ids ih =>
    rw [List.foldl_cons, ih]
    rfl

theorem Builder.tidy_start (settings : Settings) (reserved ids : List Id) :
    Builder.Tidy (reserved.foldl Module.reserve (Module.empty settings)) ids
      { built := reserved.foldl Module.reserve (Module.empty settings) } := by
  refine ⟨⟨rfl, rfl⟩, ?_, ?_, ?_, ?_⟩
  all_goals rw [foldl_reserve_eq]
  · exact nofun
  · exact nofun
  · exact nofun
  · exact List.nodup_nil

theorem Builder.Tidy.printable {start m : Module} {ids : List Id}
    (h : Builder.Tidy start ids { built := m }) (hvocabulary : Vocabulary start.bound ids) :
    m.Printable ids := by
  have hfunctions := h.functions
  have hnodup := h.nodup
  rw [Option.toList_none, List.append_nil] at hfunctions hnodup
  refine ⟨h.frame.1 ▸ hvocabulary, ⟨fun i hi => (h.preamble i hi).1, fun i hi => (h.globals i hi).1,
    fun f hf => (hfunctions f hf).arranged, hnodup⟩, fun i hi => ?_⟩
  rcases List.mem_append.1 hi with hi | hi
  · rcases List.mem_append.1 hi with hi | hi
    · exact (h.preamble i hi).2
    · exact (h.globals i hi).2
  · obtain ⟨f, hf, hi⟩ := List.mem_flatMap.1 hi
    exact (hfunctions f hf).within_listed hvocabulary.spelled i hi

/-- **The listing of a module that is read can be read again.** -/
theorem printable_of_parse {settings : Settings} {source : String} {m : Module}
    (h : parse settings source = .ok m) : m.settings = settings ∧ ∃ ids, m.Printable ids := by
  rw [parse, bind_eq_ok_iff] at h
  obtain ⟨statements, hstatements, h⟩ := h
  rw [bind_eq_ok_iff] at h
  obtain ⟨is, his, h⟩ := h
  rw [mapError_eq_ok_iff] at his hstatements
  have hlexed : ∀ i ∈ is, i.Lexed ∧ i.NamesOnly := by
    intro i hi
    obtain ⟨s, hs, hstatement⟩ := exists_of_mem_result his hi
    exact ⟨SourceInstruction.lexed_of_ofStatement
      (Statement.lexed_of_read .start hstatements s hs) hstatement,
      SourceInstruction.namesOnly_of_ofStatement hstatement⟩
  obtain ⟨n, hn, -⟩ := bind_eq_ok_iff.1 h
  let start := n.ids.foldl Module.reserve (Module.empty settings)
  let ids := (is.flatMap SourceInstruction.references).map n.id
  have hvocabulary : Vocabulary start.bound ids := by
    refine Numbering.vocabulary hn (Module.bound_foldl_reserve _ _).2 fun name hname => ?_
    obtain ⟨i, hi, hname⟩ := List.mem_flatMap.1 hname
    exact ⟨(hlexed i hi).1.names name hname, Numbering.mem_names hn hi hname⟩
  have htidy : Builder.Tidy start ids { built := m } := by
    refine build_invariant _ h hn (Builder.tidy_start settings n.ids ids)
      fun i hi j b b' hj hadd hb => hb.added ?_ hadd
    refine within_of_resolve (hlexed i hi).1 (hlexed i hi).2 (fun name hname => ?_)
      hvocabulary.spelled hj
    exact List.mem_map_of_mem (List.mem_flatMap.2 ⟨i, hi, hname⟩)
  refine ⟨?_, ids, htidy.printable hvocabulary⟩
  rw [htidy.frame.2]
  exact congrArg Module.settings (foldl_reserve_eq n.ids (Module.empty settings))

end Assembly
end ShiftBarrier
