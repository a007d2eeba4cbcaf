import ShiftBarrier.Proofs.Listing.Diagnosis
import ShiftBarrier.Proofs.Listing.Printable

/-!
# The grammar of a text

A text is a row of instructions outside of functions and of functions.  A function is its header,
its parameters, its blocks and its end; a block is a label and what follows it.

* `Draft` is a text cut into these parts.  The last function may still be open.
* `Draft.Sound` holds the rules of the grammar.
* `Draft.Placed` says that a construction has put every instruction of a draft where it belongs.
* `Draft.Step` are the ways for one more instruction to fit, `Draft.Misplaced` the ways not to fit.
* `Assembly.build_grammar` puts them together: a text is built if and only if it follows the
  grammar, every instruction finds its one place, and otherwise the first instruction that does not
  fit is blamed.

The induction is over the text, one instruction after the other (`Draft.exists_of_sound`,
`Draft.built_or_stopped`).
-/

set_option autoImplicit false

namespace ShiftBarrier

/-! ## Resolved instructions -/

/-- The operand is an id, or a name for one. -/
def SourceOperand.IsId : SourceOperand → Prop
  | .name _ => True
  | .value operand => operand.id?.isSome

/-- An instruction with a result starts with its type, unless its opcode has none. -/
def SourceInstruction.Typed (i : SourceInstruction) : Prop :=
  i.result.isSome → Opcode.hasResultType i.opcode → ∃ operand ∈ i.operands.head?, operand.IsId

namespace Assembly

variable {ids : Numbering} {i : SourceInstruction}

theorem resolve_cases (ids : Numbering) (i : SourceInstruction) :
    (i.Typed ∧ ∃ j, resolve ids i = .ok j ∧ j.opcode = i.opcode ∧ j.result = i.result.map ids.id ∧
      j.content = j) ∨
    (¬ i.Typed ∧ resolve ids i = .error (.syntaxFault (.missingResultType i.opcode i.line))) := by
  obtain ⟨result, opcode, operands, line⟩ := i
  rw [resolve]
  cases result with
  | none => exact .inl ⟨fun h => (Bool.false_ne_true h).elim, _, rfl, rfl, rfl, rfl⟩
  | some name =>
    dsimp only
    split
    · next htype =>
      cases operands with
      | nil =>
        refine .inr ⟨fun h => ?_, rfl⟩
        obtain ⟨_, hmem, -⟩ := h rfl htype
        cases hmem
      | cons operand operands =>
        rw [List.map_cons]
        cases operand with
        | name type => exact .inl ⟨fun _ _ => ⟨_, rfl, trivial⟩, _, rfl, rfl, rfl, rfl⟩
        | value operand =>
          cases operand with
          | id type => exact .inl ⟨fun _ _ => ⟨_, rfl, rfl⟩, _, rfl, rfl, rfl, rfl⟩
          | _ =>
            refine .inr ⟨fun h => ?_, rfl⟩
            obtain ⟨_, hmem, hid⟩ := h rfl htype
            cases hmem
            cases hid
    · next htype => exact .inl ⟨fun _ h => absurd h htype, _, rfl, rfl, rfl, rfl⟩

theorem exists_resolve (h : i.Typed) :
    ∃ j, resolve ids i = .ok j ∧ j.opcode = i.opcode ∧ j.result = i.result.map ids.id ∧
      j.content = j := by
  rcases resolve_cases ids i with ⟨-, hresolve⟩ | ⟨h', -⟩
  · exact hresolve
  · exact absurd h h'

/-! ## Texts in parts

The grammar is said of drafts, not of texts: a draft shows its parts, and the rules are about
these. -/

/-- A block as it is written. -/
structure BlockText where
  label : SourceInstruction
  body : List SourceInstruction := []

/-- A function as it is written, up to its end. -/
structure FunctionText where
  header : SourceInstruction
  params : List SourceInstruction := []
  blocks : List BlockText := []

/-- An instruction outside of functions, or a function with its end. -/
inductive Part
  | outside (i : SourceInstruction)
  | function (f : FunctionText) (ending : SourceInstruction)

/-- A text in parts, and the function that is still open. -/
structure Draft where
  parts : List Part := []
  opened : Option FunctionText := none

/-- The text of a block. -/
def BlockText.written (b : BlockText) : List SourceInstruction := b.label :: b.body

/-- The text of a function, up to its end. -/
def FunctionText.written (f : FunctionText) : List SourceInstruction :=
  f.header :: f.params ++ f.blocks.flatMap BlockText.written

namespace Part

/-- The text of a part. -/
def written : Part → List SourceInstruction
  | .outside i => [i]
  | .function f ending => f.written ++ [ending]

/-- The instruction, if the part is one. -/
def outside? : Part → Option SourceInstruction
  | .outside i => some i
  | .function _ _ => none

/-- The function, if the part is one. -/
def function? : Part → Option FunctionText
  | .outside _ => none
  | .function f _ => some f

/-- The instruction that ends the function, if the part is one. -/
def ending? : Part → Option SourceInstruction
  | .outside _ => none
  | .function _ ending => some ending

end Part

namespace Draft

/-- The text of a draft. -/
def written (d : Draft) : List SourceInstruction :=
  d.parts.flatMap Part.written ++ d.opened.toList.flatMap FunctionText.written

/-- What stands outside of functions, in order. -/
def outside (d : Draft) : List SourceInstruction := d.parts.filterMap Part.outside?

/-- What ends the functions, in order. -/
def endings (d : Draft) : List SourceInstruction := d.parts.filterMap Part.ending?

/-- The functions that were ended. -/
def closed (d : Draft) : List FunctionText := d.parts.filterMap Part.function?

/-- All functions, the open one last. -/
def functions (d : Draft) : List FunctionText := d.closed ++ d.opened.toList

end Draft

/-- The numbers of the results of instructions. -/
def resultNumbers (ids : Numbering) (is : List SourceInstruction) : List Nat :=
  is.filterMap fun i => i.result.map fun name => (ids.id name).number

/-- The rules for a function. -/
@[mk_iff]
structure FunctionText.Sound (ids : Numbering) (f : FunctionText) : Prop where
  header : f.header.opcode = "OpFunction" ∧ f.header.result.isSome
  params : ∀ i ∈ f.params, i.opcode = "OpFunctionParameter"
  labels : ∀ b ∈ f.blocks, b.label.opcode = "OpLabel" ∧ b.label.result.isSome
  bodies : ∀ b ∈ f.blocks, ∀ i ∈ b.body, i.opcode ∉ Opcode.structural
  /-- No two blocks have the same label. -/
  distinct : (resultNumbers ids (f.blocks.map BlockText.label)).Nodup

/-- The rules of the grammar. -/
@[mk_iff]
structure Draft.Sound (ids : Numbering) (d : Draft) : Prop where
  typed : ∀ i ∈ d.written, i.Typed
  outside : ∀ i ∈ d.outside, i.opcode ≠ "OpFunction" ∧ i.opcode ≠ "OpFunctionEnd"
  endings : ∀ i ∈ d.endings, i.opcode = "OpFunctionEnd"
  functions : ∀ f ∈ d.functions, f.Sound ids
  /-- No two functions have the same id. -/
  distinct : (resultNumbers ids (d.functions.map FunctionText.header)).Nodup

/-! ## Places -/

/-- The instructions that were made from those of a text, in their order. -/
def Resolved (ids : Numbering) (is : List SourceInstruction) (js : List Instruction) : Prop :=
  is.mapM (resolve ids) = .ok js

/-- A block holds the instructions that follow its label. -/
structure BlockText.Placed (ids : Numbering) (t : BlockText) (b : Block) : Prop where
  label : t.label.result.map ids.id = some b.label
  body : Resolved ids t.body b.instructions

/-- Every instruction of a function is where it belongs. -/
structure FunctionText.Placed (ids : Numbering) (t : FunctionText) (f : Function) : Prop where
  id : t.header.result.map ids.id = some f.id
  header : resolve ids t.header = .ok f.definition
  params : Resolved ids t.params f.params
  blocks : List.Forall₂ (BlockText.Placed ids) t.blocks f.blocks

/-- Every instruction of a draft is where it belongs, and nothing else is there. -/
structure Draft.Placed (ids : Numbering) (d : Draft) (b : Builder) : Prop where
  preamble : Resolved ids (d.outside.filter fun i => Opcode.isPreamble i.opcode) b.built.preamble
  globals : Resolved ids (d.outside.filter fun i => !Opcode.isPreamble i.opcode) b.built.globals
  functions : List.Forall₂ (FunctionText.Placed ids) d.closed b.built.functions
  opened : Option.Rel (FunctionText.Placed ids) d.opened b.current

theorem resolved_nil : Resolved ids [] [] := rfl

theorem Resolved.concat {is : List SourceInstruction} {js : List Instruction} {j : Instruction}
    (h : Resolved ids is js) (hi : resolve ids i = .ok j) :
    Resolved ids (is ++ [i]) (js ++ [j]) := by
  rw [Resolved, mapM_eq_ok_iff] at h ⊢
  exact List.rel_append h (.cons hi .nil)

/-! ## One more instruction

`Step` and `Misplaced` are two complete lists of cases that exclude each other.  The first is how a
draft grows, the second why it cannot. -/

namespace Draft

variable {d d' : Draft} {e : Error}

/-- The ways for an instruction to continue a draft. -/
inductive Step (ids : Numbering) : Draft → SourceInstruction → Draft → Prop
  | outside {parts : List Part} {i : SourceInstruction} (htyped : i.Typed)
      (hfunction : i.opcode ≠ "OpFunction") (hend : i.opcode ≠ "OpFunctionEnd") :
      Step ids ⟨parts, none⟩ i ⟨parts ++ [.outside i], none⟩
  | header {parts : List Part} {i : SourceInstruction} {name : String} (htyped : i.Typed)
      (hopcode : i.opcode = "OpFunction") (hresult : i.result = some name)
      (hnew : (ids.id name).number ∉
        resultNumbers ids ((Draft.mk parts none).closed.map FunctionText.header)) :
      Step ids ⟨parts, none⟩ i ⟨parts, some { header := i }⟩
  | param {parts : List Part} {f : FunctionText} {i : SourceInstruction} (htyped : i.Typed)
      (hopcode : i.opcode = "OpFunctionParameter") (hblocks : f.blocks = []) :
      Step ids ⟨parts, some f⟩ i ⟨parts, some { f with params := f.params ++ [i] }⟩
  | label {parts : List Part} {f : FunctionText} {i : SourceInstruction} {name : String}
      (htyped : i.Typed) (hopcode : i.opcode = "OpLabel") (hresult : i.result = some name)
      (hnew : (ids.id name).number ∉ resultNumbers ids (f.blocks.map BlockText.label)) :
      Step ids ⟨parts, some f⟩ i ⟨parts, some { f with blocks := f.blocks ++ [{ label := i }] }⟩
  | body {parts : List Part} {f : FunctionText} {blocks : List BlockText} {b : BlockText}
      {i : SourceInstruction} (htyped : i.Typed) (hopcode : i.opcode ∉ Opcode.structural)
      (hblocks : f.blocks = blocks ++ [b]) :
      Step ids ⟨parts, some f⟩ i
        ⟨parts, some { f with blocks := blocks ++ [{ b with body := b.body ++ [i] }] }⟩
  | ending {parts : List Part} {f : FunctionText} {i : SourceInstruction} (htyped : i.Typed)
      (hopcode : i.opcode = "OpFunctionEnd") :
      Step ids ⟨parts, some f⟩ i ⟨parts ++ [.function f i], none⟩

/-- The ways for an instruction not to continue a draft, and what is reported. -/
inductive Misplaced (ids : Numbering) (d : Draft) (i : SourceInstruction) : Error → Prop
  | nestedFunction (hopcode : i.opcode = "OpFunction") (hopened : d.opened.isSome) :
      Misplaced ids d i (.syntaxFault (.nestedFunction i.line))
  | functionWithoutResult (hopcode : i.opcode = "OpFunction") (hopened : d.opened = none)
      (hresult : i.result = none) :
      Misplaced ids d i (.syntaxFault (.functionWithoutResult i.line))
  | functionTwice {name : String} (hopcode : i.opcode = "OpFunction") (hopened : d.opened = none)
      (hresult : i.result = some name)
      (hold : (ids.id name).number ∈ resultNumbers ids (d.closed.map FunctionText.header)) :
      Misplaced ids d i (.moduleFault (.functionTwice (ids.id name) i.line))
  | strayEnd (hopcode : i.opcode = "OpFunctionEnd") (hopened : d.opened = none) :
      Misplaced ids d i (.syntaxFault (.strayFunctionEnd i.line))
  | lateParameter {f : FunctionText} (hopcode : i.opcode = "OpFunctionParameter")
      (hopened : d.opened = some f) (hblocks : f.blocks ≠ []) :
      Misplaced ids d i (.syntaxFault (.lateParameter i.line))
  | labelWithoutResult (hopcode : i.opcode = "OpLabel") (hopened : d.opened.isSome)
      (hresult : i.result = none) :
      Misplaced ids d i (.syntaxFault (.labelWithoutResult i.line))
  | blockTwice {f : FunctionText} {name : String} (hopcode : i.opcode = "OpLabel")
      (hopened : d.opened = some f) (hresult : i.result = some name)
      (hold : (ids.id name).number ∈ resultNumbers ids (f.blocks.map BlockText.label)) :
      Misplaced ids d i (.moduleFault (.blockTwice (ids.id name) i.line))
  | outsideBlock {f : FunctionText} (hopcode : i.opcode ∉ Opcode.structural)
      (hopened : d.opened = some f) (hblocks : f.blocks = []) :
      Misplaced ids d i (.syntaxFault (.outsideBlock i.opcode i.line))

/-- What is reported of an instruction that does not continue a draft: first that it lacks its
type. -/
def Fault (ids : Numbering) (d : Draft) (i : SourceInstruction) (e : Error) : Prop :=
  (¬ i.Typed ∧ e = .syntaxFault (.missingResultType i.opcode i.line)) ∨
    (i.Typed ∧ d.Misplaced ids i e)

/-! ### The text of a draft -/

theorem Step.written_eq (h : Step ids d i d') : d'.written = d.written ++ [i] := by
  cases h with
  | param _ _ hblocks => simp [written, FunctionText.written, hblocks]
  | body _ _ hblocks => simp [written, FunctionText.written, BlockText.written, hblocks]
  | _ => simp [written, Part.written, FunctionText.written, BlockText.written]

theorem eq_empty_of_written (h : d.written = []) : d = {} := by
  obtain ⟨parts, opened⟩ := d
  rw [written, List.append_eq_nil_iff, List.flatMap_eq_nil_iff, List.flatMap_eq_nil_iff] at h
  obtain ⟨hparts, hopened⟩ := h
  cases opened with
  | some f => exact absurd (hopened f List.mem_cons_self) (List.cons_ne_nil _ _)
  | none =>
    cases parts with
    | nil => rfl
    | cons part parts =>
      have hpart := hparts part List.mem_cons_self
      cases part with
      | outside i => cases hpart
      | function f ending => exact absurd hpart (List.append_ne_nil_of_right_ne_nil _ (by simp))

/-! ### The rules -/

theorem nodup_concat_iff {is : List SourceInstruction} :
    (resultNumbers ids (is ++ [i])).Nodup ↔ (resultNumbers ids is).Nodup ∧
      ∀ name ∈ i.result, (ids.id name).number ∉ resultNumbers ids is := by
  have hconcat : resultNumbers ids (is ++ [i]) =
      resultNumbers ids is ++ (i.result.map fun name => (ids.id name).number).toList := by
    cases hresult : i.result <;> simp [resultNumbers, hresult]
  rw [hconcat]
  cases i.result with
  | none => simp
  | some name =>
    simp only [Option.map_some, Option.toList_some, List.nodup_append, List.nodup_singleton,
      List.forall_mem_singleton, true_and, List.forall_mem_ne', Option.mem_some_iff, forall_eq']

section Parts

variable {parts : List Part} {f : FunctionText} {ending : SourceInstruction}

theorem sound_outside_iff : Sound ids ⟨parts ++ [.outside i], none⟩ ↔
    Sound ids ⟨parts, none⟩ ∧ i.Typed ∧ i.opcode ≠ "OpFunction" ∧ i.opcode ≠ "OpFunctionEnd" := by
  simp only [sound_iff, written, outside, endings, closed, functions, List.flatMap_append,
    List.flatMap_singleton, List.filterMap_append, List.filterMap_cons, List.filterMap_nil,
    Part.written, Part.outside?, Part.ending?, Part.function?, Option.toList_none,
    List.flatMap_nil, List.append_nil, List.forall_mem_append, List.forall_mem_singleton]
  tauto

theorem sound_opened_iff : Sound ids ⟨parts, some f⟩ ↔
    Sound ids ⟨parts, none⟩ ∧ (∀ i ∈ f.written, i.Typed) ∧ f.Sound ids ∧
      ∀ name ∈ f.header.result, (ids.id name).number ∉
        resultNumbers ids ((Draft.mk parts none).closed.map FunctionText.header) := by
  simp only [sound_iff, written, outside, endings, closed, functions, Option.toList_some,
    Option.toList_none,
    List.flatMap_singleton, List.flatMap_nil, List.append_nil, List.map_append, List.map_cons,
    List.map_nil, List.forall_mem_append, List.forall_mem_singleton, nodup_concat_iff]
  tauto

theorem sound_closed_iff : Sound ids ⟨parts ++ [.function f ending], none⟩ ↔
    Sound ids ⟨parts, some f⟩ ∧ ending.Typed ∧ ending.opcode = "OpFunctionEnd" := by
  simp only [sound_iff, written, outside, endings, closed, functions, List.flatMap_append,
    List.flatMap_singleton, List.filterMap_append, List.filterMap_cons, List.filterMap_nil,
    Part.written, Part.outside?, Part.ending?, Part.function?, Option.toList_none,
    Option.toList_some, List.flatMap_nil, List.append_nil, List.forall_mem_append,
    List.forall_mem_singleton]
  tauto

/-- One more instruction in the open function. -/
theorem sound_opened_congr {f' : FunctionText} (htyped : i.Typed)
    (hwritten : f'.written = f.written ++ [i]) (hheader : f'.header = f.header)
    (hsound : f'.Sound ids ↔ f.Sound ids) :
    Sound ids ⟨parts, some f'⟩ ↔ Sound ids ⟨parts, some f⟩ := by
  rw [sound_opened_iff, sound_opened_iff, hwritten, hheader, hsound, List.forall_mem_append,
    List.forall_mem_singleton, and_iff_left htyped]

end Parts

section FunctionText

variable {f : FunctionText}

theorem sound_param_iff (hopcode : i.opcode = "OpFunctionParameter") :
    FunctionText.Sound ids { f with params := f.params ++ [i] } ↔ f.Sound ids := by
  simp only [FunctionText.sound_iff, List.forall_mem_append, List.forall_mem_singleton, hopcode,
    and_true]

theorem sound_label_iff {name : String} (hopcode : i.opcode = "OpLabel")
    (hresult : i.result = some name)
    (hnew : (ids.id name).number ∉ resultNumbers ids (f.blocks.map BlockText.label)) :
    FunctionText.Sound ids { f with blocks := f.blocks ++ [{ label := i }] } ↔ f.Sound ids := by
  simp only [FunctionText.sound_iff, List.forall_mem_append, List.forall_mem_singleton,
    List.map_append, List.map_cons, List.map_nil, nodup_concat_iff, hopcode, hresult, hnew,
    Option.isSome_some, Option.mem_some_iff, forall_eq', List.not_mem_nil, IsEmpty.forall_iff,
    implies_true, and_true, not_false_eq_true]

theorem sound_body_iff {blocks : List BlockText} {b : BlockText}
    (hopcode : i.opcode ∉ Opcode.structural) (hblocks : f.blocks = blocks ++ [b]) :
    FunctionText.Sound ids { f with blocks := blocks ++ [{ b with body := b.body ++ [i] }] } ↔
      f.Sound ids := by
  simp only [FunctionText.sound_iff, hblocks, List.forall_mem_append, List.forall_mem_singleton,
    List.map_append, List.map_cons, List.map_nil, hopcode, not_false_eq_true, and_true]

end FunctionText

/-- An instruction that fits keeps the rules, and none of them was broken before. -/
theorem Step.sound_iff (h : Step ids d i d') : d'.Sound ids ↔ d.Sound ids := by
  cases h with
  | outside htyped hfunction hend =>
    rw [sound_outside_iff]
    exact and_iff_left ⟨htyped, hfunction, hend⟩
  | @header _ _ name htyped hopcode hresult hnew =>
    rw [sound_opened_iff]
    refine and_iff_left ⟨?_, ?_, ?_⟩
    · exact List.forall_mem_singleton.2 htyped
    · exact ⟨⟨hopcode, by simp [hresult]⟩, nofun, nofun, nofun, List.nodup_nil⟩
    · rintro _ hname
      cases hresult.symm.trans hname
      exact hnew
  | param htyped hopcode hblocks =>
    refine sound_opened_congr htyped ?_ rfl (sound_param_iff hopcode)
    simp [FunctionText.written, hblocks]
  | label htyped hopcode hresult hnew =>
    refine sound_opened_congr htyped ?_ rfl (sound_label_iff hopcode hresult hnew)
    simp [FunctionText.written, BlockText.written]
  | body htyped hopcode hblocks =>
    refine sound_opened_congr htyped ?_ rfl (sound_body_iff hopcode hblocks)
    simp [FunctionText.written, BlockText.written, hblocks]
  | ending htyped hopcode =>
    rw [sound_closed_iff]
    exact and_iff_left ⟨htyped, hopcode⟩

/-- A function that follows the rules and is still open is a header to which parameters, labels and
bodies were added. -/
theorem exists_step_opened {parts : List Part} {f : FunctionText}
    (h : Sound ids ⟨parts, some f⟩) : ∃ d j, Step ids d j ⟨parts, some f⟩ := by
  obtain ⟨-, htyped, hf, hnew⟩ := sound_opened_iff.1 h
  obtain ⟨header, params, blocks⟩ := f
  rcases List.eq_nil_or_concat' blocks with rfl | ⟨blocks, ⟨label, body⟩, rfl⟩
  · rcases List.eq_nil_or_concat' params with rfl | ⟨params, param, rfl⟩
    · obtain ⟨name, hname⟩ := Option.isSome_iff_exists.1 hf.header.2
      exact ⟨_, header, .header (htyped header List.mem_cons_self) hf.header.1 hname
        (hnew name hname)⟩
    · exact ⟨⟨parts, some ⟨header, params, []⟩⟩, param,
        .param (htyped param (by simp [FunctionText.written])) (hf.params param (by simp)) rfl⟩
  · obtain ⟨hopcode, hresult⟩ := hf.labels ⟨label, body⟩ (by simp)
    obtain ⟨name, hname⟩ := Option.isSome_iff_exists.1 hresult
    rcases List.eq_nil_or_concat' body with rfl | ⟨body, i, rfl⟩
    · have hdistinct := hf.distinct
      rw [List.map_append] at hdistinct
      exact ⟨⟨parts, some ⟨header, params, blocks⟩⟩, label,
        .label (htyped label (by simp [FunctionText.written, BlockText.written])) hopcode hname
          ((nodup_concat_iff.1 hdistinct).2 name hname)⟩
    · have hmem : i ∈ FunctionText.written ⟨header, params, blocks ++ [⟨label, body ++ [i]⟩]⟩ := by
        simp [FunctionText.written, BlockText.written]
      exact ⟨_, i, .body (f := ⟨header, params, blocks ++ [⟨label, body⟩]⟩) (b := ⟨label, body⟩)
        (htyped i hmem) (hf.bodies ⟨label, body ++ [i]⟩ (by simp) i (by simp)) rfl⟩

/-- A draft that follows the rules was made by adding one instruction after the other. -/
theorem exists_step {is : List SourceInstruction} (h : d.Sound ids)
    (hwritten : d.written = is ++ [i]) :
    ∃ d₀ : Draft, Step ids d₀ i d ∧ d₀.written = is := by
  have hstep : ∃ d₀ j, Step ids d₀ j d := by
    obtain ⟨parts, opened⟩ := d
    cases opened with
    | some f => exact exists_step_opened h
    | none =>
      rcases List.eq_nil_or_concat' parts with rfl | ⟨parts, part, rfl⟩
      · exact absurd hwritten.symm (List.append_ne_nil_of_right_ne_nil _ (List.cons_ne_nil _ _))
      · cases part with
        | outside j =>
          obtain ⟨-, htyped, hfunction, hend⟩ := sound_outside_iff.1 h
          exact ⟨_, j, .outside htyped hfunction hend⟩
        | function f ending =>
          obtain ⟨-, htyped, hopcode⟩ := sound_closed_iff.1 h
          exact ⟨_, ending, .ending htyped hopcode⟩
  obtain ⟨d₀, j, hstep⟩ := hstep
  obtain ⟨rfl, heq⟩ := List.append_inj' (hstep.written_eq.symm.trans hwritten) rfl
  cases heq
  exact ⟨d₀, hstep, rfl⟩

/-! ## Construction

Every step of a draft is one step of the construction, which puts the instruction where the draft
has it. -/

/-- The ids of things that were put in place. -/
theorem resultNumbers_eq {α β : Type} {R : α → β → Prop} {source : α → SourceInstruction}
    {id : β → Id} (hR : ∀ t p, R t p → (source t).result.map ids.id = some (id p)) {ts : List α}
    {ps : List β} (h : List.Forall₂ R ts ps) :
    resultNumbers ids (ts.map source) = ps.map fun p => (id p).number := by
  induction h with
  | nil => rfl
  | @cons t p ts ps htp _ ih =>
    obtain ⟨name, hname, hid⟩ := Option.map_eq_some_iff.1 (hR t p htp)
    rw [List.map_cons, List.map_cons, ← ih, ← hid]
    simp [resultNumbers, hname]

section Placed

variable {s : Builder} {m : Module} {f : Function} {t : FunctionText}

theorem numbers_of_placed (h : d.Placed ids s) :
    resultNumbers ids (d.closed.map FunctionText.header) = s.built.functions.map (·.id.number) :=
  resultNumbers_eq (fun _ _ hplaced => hplaced.id) h.functions

theorem labels_of_placed (h : t.Placed ids f) :
    resultNumbers ids (t.blocks.map BlockText.label) = f.labels.map Id.number := by
  rw [resultNumbers_eq (fun _ _ hplaced => hplaced.label) h.blocks, Function.labels, List.map_map]
  rfl

theorem blocks_eq_nil_iff (h : t.Placed ids f) : f.blocks = [] ↔ t.blocks = [] := by
  rw [← List.length_eq_zero_iff, ← h.blocks.length_eq, List.length_eq_zero_iff]

/-- An instruction outside of functions. -/
theorem leads_outside {parts : List Part} {j : Instruction}
    (hs : Placed ids ⟨parts, none⟩ s) (hj : resolve ids i = .ok j) (hcontent : j.content = j)
    (hopcode : j.opcode = i.opcode) (hfunction : i.opcode ≠ "OpFunction")
    (hend : i.opcode ≠ "OpFunctionEnd") :
    ∃ s', Builder.Leads s [j] s' ∧ Placed ids ⟨parts ++ [.outside i], none⟩ s' := by
  obtain ⟨⟨preamble, globals, functions, bound, settings, nextSerial⟩, current⟩ := s
  obtain ⟨hpreamble, hglobals, hfunctions, hopened⟩ := hs
  cases hopened
  have houtside : Draft.outside ⟨parts ++ [.outside i], none⟩
      = Draft.outside ⟨parts, none⟩ ++ [i] := by
    simp [Draft.outside, Part.outside?]
  have hclosed : Draft.closed ⟨parts ++ [.outside i], none⟩ = Draft.closed ⟨parts, none⟩ := by
    simp [Draft.closed, Part.function?]
  cases hkind : Opcode.isPreamble i.opcode with
  | true =>
    refine ⟨_, Builder.leads_preamble (hopcode ▸ hkind), ?_, ?_, hclosed ▸ hfunctions, .none⟩
    · simpa [houtside, hkind, hcontent] using hpreamble.concat hj
    · simpa [houtside, hkind] using hglobals
  | false =>
    refine ⟨_, Builder.leads_global (hopcode ▸ hkind) (hopcode ▸ hfunction) (hopcode ▸ hend),
      ?_, ?_, hclosed ▸ hfunctions, .none⟩
    · simpa [houtside, hkind] using hpreamble
    · simpa [houtside, hkind, hcontent] using hglobals.concat hj

/-- The end of a function. -/
theorem leads_end {parts : List Part} {j : Instruction} (hs : Placed ids ⟨parts, some t⟩ s)
    (hopcode : j.opcode = "OpFunctionEnd") :
    ∃ s', Builder.Leads s [j] s' ∧ Placed ids ⟨parts ++ [.function t i], none⟩ s' := by
  obtain ⟨⟨preamble, globals, functions, bound, settings, nextSerial⟩, current⟩ := s
  obtain ⟨hpreamble, hglobals, hfunctions, hopened⟩ := hs
  have houtside : Draft.outside ⟨parts ++ [.function t i], none⟩ = Draft.outside ⟨parts, none⟩ := by
    simp [Draft.outside, Part.outside?]
  have hclosed : Draft.closed ⟨parts ++ [.function t i], none⟩
      = Draft.closed ⟨parts, none⟩ ++ [t] := by
    simp [Draft.closed, Part.function?]
  cases hopened with
  | some hf =>
    refine ⟨_, Builder.leads_ending hopcode, houtside ▸ hpreamble, houtside ▸ hglobals, ?_, .none⟩
    rw [hclosed]
    exact List.rel_append hfunctions (.cons hf .nil)

theorem exists_concat {α β : Type} {R : α → β → Prop} {as : List α} {a : α} {bs : List β}
    (h : List.Forall₂ R (as ++ [a]) bs) :
    ∃ bs' b, bs = bs' ++ [b] ∧ List.Forall₂ R as bs' ∧ R a b := by
  rw [← List.forall₂_reverse_iff, List.reverse_append, List.reverse_singleton,
    List.singleton_append, List.forall₂_cons_left_iff] at h
  obtain ⟨b, rest, hb, hrest, heq⟩ := h
  refine ⟨rest.reverse, b, ?_, ?_, hb⟩
  · rw [← List.reverse_inj, heq, List.reverse_append, List.reverse_reverse]
    rfl
  · rwa [← List.forall₂_reverse_iff, List.reverse_reverse]

/-- A change of the open function alone. -/
theorem Placed.opened_congr {parts : List Part} {o o' : Option FunctionText}
    {c c' : Option Function} (h : Placed ids ⟨parts, o⟩ ⟨m, c⟩)
    (hopened : Option.Rel (FunctionText.Placed ids) o' c') : Placed ids ⟨parts, o'⟩ ⟨m, c'⟩ :=
  ⟨h.preamble, h.globals, h.functions, hopened⟩

/-- An instruction that fits is put where it belongs. -/
theorem Step.leads (h : Step ids d i d') (hs : d.Placed ids s) :
    ∃ j s', resolve ids i = .ok j ∧ Builder.Leads s [j] s' ∧ d'.Placed ids s' := by
  have htyped : i.Typed := by cases h <;> assumption
  obtain ⟨j, hj, hopcode, hresult, hcontent⟩ := @exists_resolve ids _ htyped
  have hnumbers := numbers_of_placed hs
  obtain ⟨m, current⟩ := s
  refine ⟨j, ?_⟩
  cases h with
  | outside _ hfunction hend =>
    obtain ⟨s', hleads, hs'⟩ := leads_outside hs hj hcontent hopcode hfunction hend
    exact ⟨s', hj, hleads, hs'⟩
  | ending _ hend =>
    obtain ⟨s', hleads, hs'⟩ := leads_end hs (hopcode.trans hend)
    exact ⟨s', hj, hleads, hs'⟩
  | header _ hfunction hname hnew =>
    cases hs.opened
    rw [hname] at hresult
    rw [hnumbers] at hnew
    refine ⟨_, hj, Builder.leads_definition (hopcode.trans hfunction) hresult hnew,
      hs.opened_congr (.some ⟨?_, ?_, resolved_nil, .nil⟩)⟩
    · rw [hname]
      rfl
    · rw [hcontent]
      exact hj
  | param _ hparam hblocks =>
    cases hs.opened with
    | some hf =>
      refine ⟨_, hj, Builder.leads_param (hopcode.trans hparam) ((blocks_eq_nil_iff hf).2 hblocks),
        hs.opened_congr (.some ⟨hf.id, hf.header, ?_, hf.blocks⟩)⟩
      rw [hcontent]
      exact hf.params.concat hj
  | label _ hlabel hname hnew =>
    cases hs.opened with
    | some hf =>
      rw [hname] at hresult
      rw [labels_of_placed hf] at hnew
      refine ⟨_, hj, Builder.leads_opening (hopcode.trans hlabel) hresult hnew,
        hs.opened_congr (.some ⟨hf.id, hf.header, hf.params, ?_⟩)⟩
      refine List.rel_append hf.blocks (.cons ⟨?_, resolved_nil⟩ .nil)
      rw [hname]
      rfl
  | body _ hbody hblocks =>
    cases hs.opened with
    | @some _ f hf =>
      obtain ⟨id, definition, params, bs⟩ := f
      have hplaced := hf.blocks
      rw [hblocks] at hplaced
      obtain ⟨blocks', block, rfl, hrest, hblock⟩ := exists_concat hplaced
      refine ⟨_, hj, Builder.leads_body (f := ⟨id, definition, params, []⟩) (hopcode ▸ hbody),
        hs.opened_congr (.some ⟨hf.id, hf.header, hf.params, ?_⟩)⟩
      refine List.rel_append hrest (.cons ⟨hblock.label, ?_⟩ .nil)
      rw [hcontent]
      exact hblock.body.concat hj

end Placed

/-! ## Instructions that do not fit

The other way round, a construction that goes on has a draft that goes on, and one that stops has a
draft that is misplaced there. -/

/-- How a construction takes one instruction of a text. -/
def take (ids : Numbering) (b : Builder) (i : SourceInstruction) : Except Error Builder := do
  b.add (← resolve ids i) i.line

section Stops

variable {b : Builder} {t : FunctionText} {j : Instruction}

theorem hasFunction_iff (h : d.Placed ids b.content) {id : Id} :
    b.built.hasFunction id = true ↔
      id.number ∈ resultNumbers ids (d.closed.map FunctionText.header) := by
  have hnumbers : b.content.built.functions.map (·.id.number) =
      b.built.functions.map (·.id.number) := by
    simp [Builder.content, Module.content, Function.content]
  rw [numbers_of_placed h, hnumbers]
  have hiff := not_congr (@Module.hasFunction_eq_false_iff b.built id)
  rwa [Bool.not_eq_false, not_not] at hiff

theorem hasBlock_iff {f : Function} (h : t.Placed ids f.content) {label : Id} :
    f.hasBlock label = true ↔
      label.number ∈ resultNumbers ids (t.blocks.map BlockText.label) := by
  have hlabels : f.content.labels = f.labels := by
    simp [Function.content, Function.labels, Block.content]
  rw [labels_of_placed h, hlabels]
  have hiff := not_congr (@Function.hasBlock_eq_false_iff f label)
  rwa [Bool.not_eq_false, not_not] at hiff

/-- The open function of a draft is that of the construction. -/
theorem Placed.current (h : d.Placed ids b.content) :
    Option.Rel (fun t f => FunctionText.Placed ids t f.content) d.opened b.current := by
  have hrel := h.opened
  rw [Builder.content] at hrel
  generalize d.opened = opened at hrel ⊢
  cases hcurrent : b.current with
  | none =>
    rw [hcurrent] at hrel
    cases hrel
    exact .none
  | some f =>
    rw [hcurrent] at hrel
    cases hrel with
    | some hplaced => exact .some hplaced

theorem current_eq_none (h : d.Placed ids b.content) (hopened : d.opened = none) :
    b.current = none := by
  have hrel := h.current
  rw [hopened] at hrel
  generalize b.current = current at hrel
  cases hrel
  rfl

theorem exists_current (h : d.Placed ids b.content) (hopened : d.opened = some t) :
    ∃ f, b.current = some f ∧ t.Placed ids f.content := by
  have hrel := h.current
  rw [hopened] at hrel
  generalize b.current = current at hrel
  cases hrel with
  | some hplaced => exact ⟨_, rfl, hplaced⟩

theorem opened_eq_none (h : d.Placed ids b.content) (hcurrent : b.current = none) :
    d.opened = none := by
  have hrel := h.current
  rw [hcurrent] at hrel
  generalize d.opened = opened at hrel
  cases hrel
  rfl

theorem exists_opened {f : Function} (h : d.Placed ids b.content) (hcurrent : b.current = some f) :
    ∃ t, d.opened = some t ∧ t.Placed ids f.content := by
  have hrel := h.current
  rw [hcurrent] at hrel
  generalize d.opened = opened at hrel
  cases hrel with
  | some hplaced => exact ⟨_, rfl, hplaced⟩

theorem blocks_content_eq_nil_iff {f : Function} (h : t.Placed ids f.content) :
    f.blocks = [] ↔ t.blocks = [] := by
  rw [← blocks_eq_nil_iff h, Function.content, List.map_eq_nil_iff]

/-- An instruction that is put in place fits. -/
theorem exists_step_of_added {b' : Builder} (hb : d.Placed ids b.content) (htyped : i.Typed)
    (hopcode : j.opcode = i.opcode) (hresult : j.result = i.result.map ids.id)
    (h : b.Added j b') : ∃ d', Step ids d i d' := by
  obtain ⟨parts, opened⟩ := d
  cases h with
  | preamble hcurrent hkind =>
    obtain rfl : opened = none := opened_eq_none hb hcurrent
    obtain ⟨hfunction, hend, -⟩ :=
      Opcode.not_mem_structural_iff.1 (Opcode.not_mem_structural_of_isPreamble hkind)
    exact ⟨_, .outside htyped (hopcode ▸ hfunction) (hopcode ▸ hend)⟩
  | global hcurrent _ hfunction hend =>
    obtain rfl : opened = none := opened_eq_none hb hcurrent
    exact ⟨_, .outside htyped (hopcode ▸ hfunction) (hopcode ▸ hend)⟩
  | definition hcurrent hfunction hid hnew =>
    obtain rfl : opened = none := opened_eq_none hb hcurrent
    obtain ⟨name, hname, rfl⟩ := Option.map_eq_some_iff.1 (hresult.symm.trans hid)
    refine ⟨_, .header htyped (hopcode ▸ hfunction) hname fun hold => ?_⟩
    exact Bool.eq_false_iff.1 hnew ((hasFunction_iff hb).2 hold)
  | ending hcurrent hend =>
    obtain ⟨t, rfl, -⟩ := exists_opened hb hcurrent
    exact ⟨_, .ending htyped (hopcode ▸ hend)⟩
  | label hcurrent hlabel hid hnew =>
    obtain ⟨t, rfl, hf⟩ := exists_opened hb hcurrent
    obtain ⟨name, hname, rfl⟩ := Option.map_eq_some_iff.1 (hresult.symm.trans hid)
    refine ⟨_, .label htyped (hopcode ▸ hlabel) hname fun hold => ?_⟩
    exact Bool.eq_false_iff.1 hnew ((hasBlock_iff hf).2 hold)
  | param hcurrent hparam hblocks =>
    obtain ⟨t, rfl, hf⟩ := exists_opened hb hcurrent
    exact ⟨_, .param htyped (hopcode ▸ hparam) ((blocks_content_eq_nil_iff hf).1 hblocks)⟩
  | body hcurrent hbody hblocks =>
    obtain ⟨t, rfl, hf⟩ := exists_opened hb hcurrent
    have hne : t.blocks ≠ [] := mt (blocks_content_eq_nil_iff hf).2 hblocks
    obtain ⟨blocks, block, heq⟩ := (List.eq_nil_or_concat' t.blocks).resolve_left hne
    exact ⟨_, .body htyped (hopcode ▸ hbody) heq⟩

/-- An instruction that is refused does not fit. -/
theorem misplaced_of_refused (hb : d.Placed ids b.content) (hopcode : j.opcode = i.opcode)
    (hresult : j.result = i.result.map ids.id) (h : b.Refused j i.line e) :
    Misplaced ids d i e := by
  cases h with
  | nestedFunction hcurrent hfunction =>
    obtain ⟨t, hopened, -⟩ := exists_opened hb hcurrent
    exact .nestedFunction (hopcode ▸ hfunction) (Option.isSome_of_eq_some hopened)
  | functionWithoutResult hcurrent hfunction hnone =>
    have hname := Option.map_eq_none_iff.1 (hresult.symm.trans hnone)
    exact .functionWithoutResult (hopcode ▸ hfunction) (opened_eq_none hb hcurrent) hname
  | functionTwice hcurrent hfunction hid hold =>
    obtain ⟨name, hname, rfl⟩ := Option.map_eq_some_iff.1 (hresult.symm.trans hid)
    exact .functionTwice (hopcode ▸ hfunction) (opened_eq_none hb hcurrent) hname
      ((hasFunction_iff hb).1 hold)
  | strayEnd hcurrent hend => exact .strayEnd (hopcode ▸ hend) (opened_eq_none hb hcurrent)
  | labelWithoutResult hcurrent hlabel hnone =>
    obtain ⟨t, hopened, -⟩ := exists_opened hb hcurrent
    have hname := Option.map_eq_none_iff.1 (hresult.symm.trans hnone)
    exact .labelWithoutResult (hopcode ▸ hlabel) (Option.isSome_of_eq_some hopened) hname
  | blockTwice hcurrent hlabel hid hold =>
    obtain ⟨t, hopened, hf⟩ := exists_opened hb hcurrent
    obtain ⟨name, hname, rfl⟩ := Option.map_eq_some_iff.1 (hresult.symm.trans hid)
    exact .blockTwice (hopcode ▸ hlabel) hopened hname ((hasBlock_iff hf).1 hold)
  | lateParameter hcurrent hparam hblocks =>
    obtain ⟨t, hopened, hf⟩ := exists_opened hb hcurrent
    exact .lateParameter (hopcode ▸ hparam) hopened (mt (blocks_content_eq_nil_iff hf).2 hblocks)
  | outsideBlock hcurrent hbody hblocks =>
    obtain ⟨t, hopened, hf⟩ := exists_opened hb hcurrent
    rw [hopcode] at hbody ⊢
    exact .outsideBlock hbody hopened ((blocks_content_eq_nil_iff hf).1 hblocks)

/-- An instruction fits, or the construction stops there. -/
theorem fits_or_stops (hb : d.Placed ids b.content) (i : SourceInstruction) :
    (∃ d', Step ids d i d') ∨ ∃ e, take ids b i = .error e ∧ d.Fault ids i e := by
  rcases resolve_cases ids i with ⟨htyped, j, hj, hopcode, hresult, -⟩ | ⟨huntyped, herror⟩
  · rcases Builder.added_or_refused b j i.line with ⟨b', hadded⟩ | ⟨e, hrefused⟩
    · exact .inl (exists_step_of_added hb htyped hopcode hresult hadded)
    · refine .inr ⟨e, ?_, .inr ⟨htyped, misplaced_of_refused hb hopcode hresult hrefused⟩⟩
      rw [take, hj]
      exact hrefused.add_eq
  · refine .inr ⟨_, ?_, .inl ⟨huntyped, rfl⟩⟩
    rw [take, herror]
    rfl

/-- An instruction that fits is taken. -/
theorem Step.exists_take (h : Step ids d i d') (hb : d.Placed ids b.content) :
    ∃ b', take ids b i = .ok b' ∧ d'.Placed ids b'.content := by
  obtain ⟨j, s', hj, hleads, hs'⟩ := h.leads hb
  obtain ⟨b', hadds, hcontent⟩ := hleads b rfl
  cases hadds with
  | cons hadd hrest =>
    cases hrest
    refine ⟨b', ?_, hcontent ▸ hs'⟩
    rw [take, hj]
    exact hadd i.line

end Stops

/-! ## Whole texts

By induction over the text, it is built and has a sound draft, or it stops at its first misplaced
instruction.  The end of the text is one more place to stop at: a function may be open. -/

section Run

variable {start : Builder} {is : List SourceInstruction}

theorem foldlM_concat {α β ε : Type} {f : β → α → Except ε β} {xs : List α} {x : α} {y : β} :
    (xs ++ [x]).foldlM f y = (xs.foldlM f y >>= fun z => f z x) := by
  simp [List.foldlM_append]

/-- A draft that follows the rules can be built. -/
theorem exists_of_sound (hstart : Placed ids {} start.content) (h : d.Sound ids)
    (hwritten : d.written = is) :
    ∃ b, is.foldlM (take ids) start = .ok b ∧ d.Placed ids b.content := by
  induction is using List.reverseRecOn generalizing d with
  | nil =>
    obtain rfl := eq_empty_of_written hwritten
    exact ⟨start, rfl, hstart⟩
  | append_singleton is i ih =>
    obtain ⟨d₀, hstep, hwritten₀⟩ := exists_step h hwritten
    obtain ⟨b, hb, hplaced⟩ := ih (hstep.sound_iff.1 h) hwritten₀
    obtain ⟨b', hb', hplaced'⟩ := hstep.exists_take hplaced
    refine ⟨b', ?_, hplaced'⟩
    rw [foldlM_concat, hb]
    exact hb'

/-- A text is built, or its first instruction that does not fit stops the construction. -/
theorem built_or_stopped (hstart : Placed ids {} start.content) (is : List SourceInstruction) :
    (∃ (d : Draft) (b : Builder), d.written = is ∧ d.Sound ids ∧
      is.foldlM (take ids) start = .ok b ∧ d.Placed ids b.content) ∨
    ∃ (before : List SourceInstruction) (i : SourceInstruction) (after : List SourceInstruction)
      (d : Draft) (e : Error), is = before ++ i :: after ∧ d.written = before ∧ d.Sound ids ∧
      d.Fault ids i e ∧ (before ++ [i]).foldlM (take ids) start = .error e ∧
      is.foldlM (take ids) start = .error e := by
  induction is using List.reverseRecOn with
  | nil => exact .inl ⟨{}, start, rfl, ⟨nofun, nofun, nofun, nofun, List.nodup_nil⟩, rfl, hstart⟩
  | append_singleton is i ih =>
    rcases ih with ⟨d, b, rfl, hsound, hb, hplaced⟩ |
      ⟨before, j, after, d, e, rfl, hwritten, hsound, hfault, hstop, herror⟩
    · rcases fits_or_stops hplaced i with ⟨d', hstep⟩ | ⟨e, herror, hfault⟩
      · obtain ⟨b', hb', hplaced'⟩ := hstep.exists_take hplaced
        refine .inl ⟨d', b', hstep.written_eq, hstep.sound_iff.2 hsound, ?_, hplaced'⟩
        rw [foldlM_concat, hb]
        exact hb'
      · have hstop : (d.written ++ [i]).foldlM (take ids) start = .error e := by
          rw [foldlM_concat, hb]
          exact herror
        exact .inr ⟨d.written, i, [], d, e, rfl, rfl, hsound, hfault, hstop, hstop⟩
    · refine .inr ⟨before, j, after ++ [i], d, e, by simp, hwritten, hsound, hfault, hstop, ?_⟩
      rw [foldlM_concat, herror]
      rfl

end Run

/-- A fault is one of the input, and it is reported with the line of the instruction. -/
theorem Fault.reported (h : d.Fault ids i e) :
    e.IsInputFault ∧ e.diagnostic?.bind Diagnostic.line = some (i.line : Int) := by
  rcases h with ⟨-, rfl⟩ | ⟨-, hmisplaced⟩
  · exact ⟨.syntaxFault _, rfl⟩
  · cases hmisplaced with
    | functionTwice | blockTwice => exact ⟨.moduleFault _, rfl⟩
    | _ => exact ⟨.syntaxFault _, rfl⟩

end Draft

theorem placed_start (settings : Settings) (ids : Numbering) :
    Draft.Placed ids {} (Builder.content
      { built := ids.ids.foldl Module.reserve (Module.empty settings) }) := by
  rw [foldl_reserve_eq]
  exact ⟨rfl, rfl, .nil, .none⟩

/-- **A text is built if and only if it follows the grammar**, and then every instruction is put in
the one place it belongs to.  Otherwise the first instruction is blamed with which the text no
longer begins like one that follows it; if there is none, a function has no end. -/
theorem build_grammar (settings : Settings) {is : List SourceInstruction}
    (hids : Numbering.ofInstructions is = .ok ids) :
    ((∃ m, build settings is = .ok m) ↔
      ∃ d : Draft, d.opened = none ∧ d.written = is ∧ d.Sound ids) ∧
    (∀ m, build settings is = .ok m → ∀ d : Draft, d.opened = none → d.written = is →
      d.Sound ids → d.Placed ids ⟨m.content, none⟩) ∧
    ∀ e, build settings is = .error e →
      (∃ (before : List SourceInstruction) (i : SourceInstruction)
        (after : List SourceInstruction) (d : Draft), is = before ++ i :: after ∧
        d.written = before ∧ d.Sound ids ∧
        (∀ d' : Draft, d'.written = before ++ [i] → ¬ d'.Sound ids) ∧
        d.Fault ids i e ∧ e.IsInputFault ∧
        e.diagnostic?.bind Diagnostic.line = some (i.line : Int)) ∨
      ∃ (d : Draft) (t : FunctionText) (id : Id), d.opened = some t ∧ d.written = is ∧
        d.Sound ids ∧ t.header.result.map ids.id = some id ∧
        e = .syntaxFault (.unfinishedFunction id) ∧
        e.diagnostic?.bind Diagnostic.line = none := by
  have hstart := placed_start settings ids
  generalize hinit : ({ built := ids.ids.foldl Module.reserve (Module.empty settings) } : Builder)
    = start at hstart
  have hbuild : build settings is = (is.foldlM (Draft.take ids) start >>= Builder.finish) := by
    rw [build, hids, ← hinit]
    rfl
  rw [hbuild]
  refine ⟨⟨?_, ?_⟩, ?_, ?_⟩
  · rintro ⟨m, hm⟩
    obtain ⟨b, hb, hfinish⟩ := bind_eq_ok_iff.1 hm
    rcases Draft.built_or_stopped hstart is with ⟨d, b', hwritten, hsound, hb', hplaced⟩ |
      ⟨_, _, _, _, _, _, _, _, _, _, herror⟩
    · cases hb.symm.trans hb'
      refine ⟨d, ?_, hwritten, hsound⟩
      cases hopened : d.opened with
      | none => rfl
      | some t =>
        obtain ⟨f, hcurrent, -⟩ := Draft.exists_current hplaced hopened
        rw [Builder.finish, hcurrent] at hfinish
        cases hfinish
    · cases hb.symm.trans herror
  · rintro ⟨d, hopened, hwritten, hsound⟩
    obtain ⟨b, hb, hplaced⟩ := Draft.exists_of_sound hstart hsound hwritten
    refine ⟨b.built, bind_eq_ok_iff.2 ⟨b, hb, ?_⟩⟩
    rw [Builder.finish, Draft.current_eq_none hplaced hopened]
  · intro m hm d hopened hwritten hsound
    obtain ⟨b, hb, hfinish⟩ := bind_eq_ok_iff.1 hm
    obtain ⟨b', hb', hplaced⟩ := Draft.exists_of_sound hstart hsound hwritten
    cases hb.symm.trans hb'
    have hcurrent := Draft.current_eq_none hplaced hopened
    rw [Builder.finish, hcurrent] at hfinish
    cases hfinish
    rwa [Builder.content, hcurrent] at hplaced
  · intro e he
    rcases Draft.built_or_stopped hstart is with ⟨d, b, hwritten, hsound, hb, hplaced⟩ |
      ⟨before, i, after, d, e', hsplit, hwritten, hsound, hfault, hstop, herror⟩
    · rw [hb] at he
      change b.finish = .error e at he
      cases hopened : d.opened with
      | none =>
        rw [Builder.finish, Draft.current_eq_none hplaced hopened] at he
        cases he
      | some t =>
        obtain ⟨f, hcurrent, hf⟩ := Draft.exists_current hplaced hopened
        rw [Builder.finish, hcurrent] at he
        cases he
        exact .inr ⟨d, t, f.id, hopened, hwritten, hsound, hf.id, rfl, rfl⟩
    · rw [herror] at he
      cases he
      obtain ⟨hinput, hline⟩ := hfault.reported
      refine .inl ⟨before, i, after, d, hsplit, hwritten, hsound, ?_, hfault, hinput, hline⟩
      intro d' hwritten' hsound'
      obtain ⟨b, hb, -⟩ := Draft.exists_of_sound hstart hsound' hwritten'
      cases hb.symm.trans hstop

/-- A function with one block, on six lines. -/
def functionSample : List SourceInstruction :=
  [⟨some "void", "OpTypeVoid", [], 1⟩,
    ⟨some "type", "OpTypeFunction", [.name "void"], 2⟩,
    ⟨some "main", "OpFunction", [.name "void", .value (.enumerant "None"), .name "type"], 3⟩,
    ⟨some "entry", "OpLabel", [], 4⟩, ⟨none, "OpReturn", [], 5⟩, ⟨none, "OpFunctionEnd", [], 6⟩]

theorem build_grammar_sample :
    ∃ ids, Numbering.ofInstructions functionSample = .ok ids ∧
      (∃ m, build {} functionSample = .ok m) ∧
      ∃ d : Draft, d.opened = none ∧ d.written = functionSample ∧ d.Sound ids :=
  ⟨_, rfl, ⟨_, rfl⟩, (@build_grammar _ {} functionSample rfl).1.1 ⟨_, rfl⟩⟩

/-- No line is blamed for a function without an end. -/
theorem unfinished_function_unplaced :
    (∃ ids, Numbering.ofInstructions (functionSample.take 3) = .ok ids) ∧
      ∃ e, build {} (functionSample.take 3) = .error e ∧ e.IsInputFault ∧
        e.diagnostic?.bind Diagnostic.line = none :=
  ⟨⟨_, rfl⟩, _, rfl, .syntaxFault _, rfl⟩

end Assembly
end ShiftBarrier
