import ShiftBarrier.Proofs.Grammar
import ShiftBarrier.Proofs.Listing.RoundTrip

/-!
# What a listing keeps of a text

The listing of a module that was read from a text is a text again.  Its instructions are those of
the first text, section by section, apart from two that the module does not store: the line that
opens a block keeps its result only, and the line that ends a function keeps nothing.

* `SourceInstruction.Reread` compares an instruction of a text with that of its listing: numbers of
  ids lose their leading zeros, and everything else stays.
* `Assembly.Draft.sections` is a text in the order of its listing, and `Assembly.Draft.kept` is what
  of it is listed.
* `Assembly.reread_of_parse` compares a text with the listing of its module; by
  `Assembly.listing_drops_operands` the two lines do make a difference.
-/

set_option autoImplicit false

namespace ShiftBarrier

/-! ## Instructions that say the same -/

/-- The same name, or the same number without its leading zeros. -/
inductive Respelled : String → String → Prop
  | same (name : String) : Respelled name name
  | number {name : String} {k : Nat} (hnumeric : Numbering.isNumeric name = true)
      (hk : Decimal.toNat name.toList = .ok k) : Respelled name (toString k)

/-- The same name, or exactly the same value. -/
inductive SourceOperand.Reread : SourceOperand → SourceOperand → Prop
  | name {name name' : String} (h : Respelled name name') : Reread (.name name) (.name name')
  | value (operand : Operand) : Reread (.value operand) (.value operand)

/-- An instruction and what its line in a listing is read as. -/
structure SourceInstruction.Reread (i j : SourceInstruction) : Prop where
  opcode : j.opcode = i.opcode
  result : Option.Rel Respelled i.result j.result
  operands : List.Forall₂ SourceOperand.Reread i.operands j.operands

namespace Assembly

/-- The instructions of a text. -/
def Consists (text : String) (is : List SourceInstruction) : Prop :=
  ∃ statements, Statement.ofText text = .ok statements ∧
    statements.mapM SourceInstruction.ofStatement = .ok is

/-! ## The order of a listing

A listing puts the header first, then the globals, then the functions.  Within each of these the
order is that of the text. -/

/-- What a listing shows of a block: all but the operands of its label. -/
def BlockText.kept (b : BlockText) : List SourceInstruction :=
  { b.label with operands := [] } :: b.body

/-- What a listing shows of a function, up to its end. -/
def FunctionText.kept (f : FunctionText) : List SourceInstruction :=
  f.header :: f.params ++ f.blocks.flatMap BlockText.kept

namespace Part

/-- The lines of a function. -/
def inFunction : Part → List SourceInstruction
  | .outside _ => []
  | .function f ending => f.written ++ [ending]

/-- What is kept of the lines of a function. -/
def kept : Part → List SourceInstruction
  | .outside _ => []
  | .function f ending => f.kept ++ [{ ending with result := none, operands := [] }]

end Part

namespace Draft

/-- The lines outside of functions in the order of a listing: header, then globals. -/
def outer (d : Draft) : List SourceInstruction :=
  d.outside.filter (fun i => Opcode.isPreamble i.opcode) ++
    d.outside.filter fun i => !Opcode.isPreamble i.opcode

/-- **The lines of a text in the order of its listing**, section by section. -/
def sections (d : Draft) : List SourceInstruction := d.outer ++ d.parts.flatMap Part.inFunction

/-- What of them is listed. -/
def kept (d : Draft) : List SourceInstruction := d.outer ++ d.parts.flatMap Part.kept

variable {d : Draft} {parts : List Part}

/-- No line is missing from the sections, and none is there twice. -/
theorem sections_perm (hopened : d.opened = none) : d.sections.Perm d.written := by
  have hparts : ∀ parts : List Part,
      (parts.filterMap Part.outside? ++ parts.flatMap Part.inFunction).Perm
        (parts.flatMap Part.written) := by
    intro parts
    induction parts with
    | nil => exact .refl _
    | cons part parts ih =>
      cases part with
      | outside i => exact ih.cons i
      | function f ending =>
        rw [List.filterMap_cons_none (by rfl), List.flatMap_cons, List.flatMap_cons]
        exact List.perm_append_comm_assoc _ _ _ |>.trans (ih.append_left _)
  have hfilter : d.outer.Perm d.outside := List.filter_append_perm _ _
  rw [written, hopened, Option.toList_none, List.flatMap_nil, List.append_nil]
  exact (hfilter.append_right _).trans (hparts d.parts)

/-- The two lines that are not stored are all that can lose anything. -/
theorem kept_eq_sections (hlabels : ∀ f ∈ d.closed, ∀ b ∈ f.blocks, b.label.operands = [])
    (hendings : ∀ i ∈ d.endings, i.result = none ∧ i.operands = []) : d.kept = d.sections := by
  rw [kept, sections]
  congr 1
  refine List.flatMap_congr fun part hpart => ?_
  cases part with
  | outside i => rfl
  | function f ending =>
    have hf : f ∈ d.closed := List.mem_filterMap.2 ⟨_, hpart, rfl⟩
    obtain ⟨hresult, hoperands⟩ := hendings ending (List.mem_filterMap.2 ⟨_, hpart, rfl⟩)
    have hending : ({ ending with result := none, operands := [] } : SourceInstruction)
        = ending := by
      rw [← hresult, ← hoperands]
    have hblocks : f.blocks.flatMap BlockText.kept = f.blocks.flatMap BlockText.written := by
      refine List.flatMap_congr fun b hb => ?_
      rw [BlockText.kept, BlockText.written, ← hlabels f hf b hb]
    rw [Part.kept, Part.inFunction, hending, FunctionText.kept, hblocks, FunctionText.written]

end Draft

/-! ## Listed instructions -/

variable {ids : Numbering} {i : SourceInstruction} {j : Instruction}

/-- The instruction of a module has everything that was written. -/
structure Shows (ids : Numbering) (i : SourceInstruction) (j : Instruction) : Prop where
  opcode : j.opcode = i.opcode
  result : j.result = i.result.map ids.id
  operands : j.type.toList.map Operand.id ++ j.operands = i.operands.map (resolveOperand ids)

theorem shows_of_resolve (h : resolve ids i = .ok j) : Shows ids i j :=
  have hj := resolve_eq_ok_iff.1 h
  ⟨hj.opcode, hj.result, hj.operands⟩

theorem Resolved.shows {is : List SourceInstruction} {js : List Instruction}
    (h : Resolved ids is js) : List.Forall₂ (Shows ids) is js :=
  (mapM_eq_ok_iff.1 h).imp fun _ _ => shows_of_resolve

theorem BlockText.Placed.shows {t : BlockText} {b : Block} (h : t.Placed ids b)
    (hopcode : t.label.opcode = "OpLabel") : List.Forall₂ (Shows ids) t.kept b.listed :=
  .cons ⟨hopcode.symm, h.label.symm, rfl⟩ h.body.shows

theorem FunctionText.Placed.shows {t : FunctionText} {f : Function} (h : t.Placed ids f)
    (hsound : t.Sound ids) {ending : SourceInstruction}
    (hending : ending.opcode = "OpFunctionEnd") :
    List.Forall₂ (Shows ids) (Part.function t ending).kept f.listed := by
  have hblocks : List.Forall₂ (Shows ids) (t.blocks.flatMap BlockText.kept)
      (f.blocks.flatMap Block.listed) := by
    have hlabelled := (List.forall₂_and_left _ _).2 ⟨hsound.labels, h.blocks⟩
    exact List.rel_flatMap hlabelled fun b b' hb => hb.2.shows hb.1.1
  refine List.rel_append (List.rel_append ?_ hblocks) (.cons ⟨hending.symm, rfl, rfl⟩ .nil)
  exact .cons (shows_of_resolve h.header) h.params.shows

theorem Draft.Placed.shows {d : Draft} {m : Module} (h : d.Placed ids ⟨m, none⟩)
    (hsound : d.Sound ids) : List.Forall₂ (Shows ids) d.kept m.listed := by
  have hfunctions : ∀ (parts : List Part) (fs : List Function),
      (∀ f ∈ parts.filterMap Part.function?, f.Sound ids) →
      (∀ i ∈ parts.filterMap Part.ending?, i.opcode = "OpFunctionEnd") →
      List.Forall₂ (FunctionText.Placed ids) (parts.filterMap Part.function?) fs →
      List.Forall₂ (Shows ids) (parts.flatMap Part.kept) (fs.flatMap Function.listed) := by
    intro parts
    induction parts with
    | nil =>
      rintro fs - - h
      cases h
      exact .nil
    | cons part parts ih =>
      intro fs hsound hendings h
      cases part with
      | outside i => exact ih fs hsound hendings h
      | function t ending =>
        cases h with
        | cons hf hfs =>
          refine List.rel_append ?_ (ih _ (List.forall_mem_of_forall_mem_cons hsound)
            (List.forall_mem_of_forall_mem_cons hendings) hfs)
          exact hf.shows (hsound t List.mem_cons_self) (hendings ending List.mem_cons_self)
  refine List.rel_append (List.rel_append h.preamble.shows h.globals.shows) ?_
  refine hfunctions d.parts m.functions (fun f hf => ?_) hsound.endings h.functions
  exact hsound.functions f (List.mem_append_left _ hf)

/-! ## Reading the listing

The text and its listing are compared line by line, in the order of the listing. -/

/-- The id of a name is written like it. -/
theorem respelled_key {is : List SourceInstruction} (hids : Numbering.ofInstructions is = .ok ids)
    {name : String} (hname : name ∈ ids.entries.map Prod.fst) :
    Respelled name (ids.id name).key := by
  rcases Numbering.id_spec hids hname with ⟨hnumeric, k, hk, -, -, hid⟩ | ⟨-, hid⟩
  · rw [hid]
    exact .number hnumeric hk
  · rw [Id.key_of_name hid]
    exact .same name

/-- A resolved operand is read as what it was. -/
theorem reread_resolveOperand {operand : SourceOperand}
    (hvalue : ∀ value, operand = .value value → value.id? = none)
    (hname : ∀ name, operand = .name name → Respelled name (ids.id name).key) :
    SourceOperand.Reread operand (resolveOperand ids operand).source := by
  cases operand with
  | name name => exact .name (hname name rfl)
  | value value =>
    have hsource : (resolveOperand ids (.value value)).source = .value value := by
      have hid := hvalue value rfl
      cases value with
      | id id => cases hid
      | _ => rfl
    rw [hsource]
    exact .value value

/-- **A shown instruction is read as what it was.** -/
theorem Shows.reread (h : Shows ids i j) (hvalues : i.NamesOnly)
    (hnames : ∀ name ∈ i.references, Respelled name (ids.id name).key) (line : Nat) :
    i.Reread (j.source line) := by
  have hsource : j.sourceOperands = i.operands.map fun operand =>
      (resolveOperand ids operand).source := by
    have hmap := congrArg (List.map Operand.source) h.operands
    rw [List.map_append, List.map_map, List.map_map] at hmap
    exact hmap
  refine ⟨h.opcode, ?_, ?_⟩
  · have hresult : (j.source line).result = (i.result.map ids.id).map Id.key := by
      rw [← h.result]
      rfl
    rw [hresult]
    cases hname : i.result with
    | none => exact .none
    | some name => exact .some (hnames name (List.mem_append_left _ (by simp [hname])))
  · show List.Forall₂ _ _ j.sourceOperands
    rw [hsource, List.forall₂_map_right_iff, List.forall₂_same]
    intro operand hoperand
    refine reread_resolveOperand (fun value heq => ?_) fun name heq => ?_
    · exact hvalues value (heq ▸ hoperand)
    · refine hnames name (List.mem_append_right _ (List.mem_filterMap.2 ⟨operand, hoperand, ?_⟩))
      rw [heq]
      rfl

/-- What is kept of a function was written there. -/
theorem exists_of_mem_kept {f : FunctionText} {ending : SourceInstruction}
    (h : i ∈ (Part.function f ending).kept) :
    ∃ i' ∈ (Part.function f ending).written,
      i.references ⊆ i'.references ∧ i.operands ⊆ i'.operands := by
  rw [Part.kept, FunctionText.kept, List.mem_append, List.mem_append, List.mem_singleton] at h
  rcases h with (hheader | hblock) | rfl
  · refine ⟨i, ?_, List.Subset.refl _, List.Subset.refl _⟩
    exact List.mem_append_left _ (List.mem_append_left _ hheader)
  · obtain ⟨b, hb, hi⟩ := List.mem_flatMap.1 hblock
    have hwritten : b.written ⊆ (Part.function f ending).written := fun j hj =>
      List.mem_append_left _ (List.mem_append_right _ (List.mem_flatMap.2 ⟨b, hb, hj⟩))
    rcases List.mem_cons.1 hi with rfl | hbody
    · refine ⟨b.label, hwritten List.mem_cons_self, ?_, List.nil_subset _⟩
      exact List.append_subset.2 ⟨List.subset_append_left _ _, List.nil_subset _⟩
    · exact ⟨i, hwritten (List.mem_cons_of_mem _ hbody), List.Subset.refl _, List.Subset.refl _⟩
  · exact ⟨ending, List.mem_append_right _ List.mem_cons_self, List.nil_subset _,
      List.nil_subset _⟩

/-- What is kept of a line was in the text. -/
theorem Draft.exists_of_mem_kept {d : Draft} (h : i ∈ d.kept) :
    ∃ i' ∈ d.written, i.references ⊆ i'.references ∧ i.operands ⊆ i'.operands := by
  rcases List.mem_append.1 h with houter | hkept
  · have houtside : i ∈ d.outside := by
      rcases List.mem_append.1 houter with hi | hi <;> exact List.mem_of_mem_filter hi
    obtain ⟨part, hpart, heq⟩ := List.mem_filterMap.1 houtside
    cases part with
    | function f ending => cases heq
    | outside j =>
      cases heq
      refine ⟨i, List.mem_append_left _ (List.mem_flatMap.2 ⟨_, hpart, List.mem_cons_self⟩), ?_⟩
      exact ⟨List.Subset.refl _, List.Subset.refl _⟩
  · obtain ⟨part, hpart, hi⟩ := List.mem_flatMap.1 hkept
    cases part with
    | outside j => cases hi
    | function f ending =>
      obtain ⟨i', hi', hsubset⟩ := Assembly.exists_of_mem_kept hi
      exact ⟨i', List.mem_append_left _ (List.mem_flatMap.2 ⟨_, hpart, hi'⟩), hsubset⟩

/-- A text that is read was cut into its parts. -/
theorem exists_draft {settings : Settings} {is : List SourceInstruction} {m : Module}
    (h : build settings is = .ok m) :
    ∃ (ids : Numbering) (d : Draft), Numbering.ofInstructions is = .ok ids ∧ d.opened = none ∧
      d.written = is ∧ d.Sound ids ∧ d.Placed ids ⟨m.content, none⟩ := by
  rw [build, bind_eq_ok_iff] at h
  obtain ⟨ids, hids, h⟩ := h
  obtain ⟨done, hdone, hfinish⟩ := bind_eq_ok_iff.1 h
  rcases Draft.built_or_stopped (placed_start settings ids) is with
    ⟨d, b, hwritten, hsound, hb, hplaced⟩ | ⟨_, _, _, _, _, _, _, _, _, _, herror⟩
  · cases hdone.symm.trans hb
    rw [Builder.finish_eq_ok_iff.1 hfinish] at hplaced
    refine ⟨ids, d, hids, ?_, hwritten, hsound, hplaced⟩
    cases hopened : d.opened with
    | none => rfl
    | some t =>
      have hrel := hplaced.opened
      rw [hopened] at hrel
      cases hrel
  · cases hdone.symm.trans herror

/-- Composes two relations between lists. -/
theorem forall₂_trans {α β γ : Type} {R : α → β → Prop} {S : β → γ → Prop} {T : α → γ → Prop}
    {as : List α} {bs : List β} {cs : List γ} (hR : List.Forall₂ R as bs)
    (hS : List.Forall₂ S bs cs) (hT : ∀ a ∈ as, ∀ b c, R a b → S b c → T a c) :
    List.Forall₂ T as cs := by
  induction hR generalizing cs with
  | nil =>
    cases hS
    exact .nil
  | cons hab _ ih =>
    cases hS with
    | cons hbc hrest =>
      exact .cons (hT _ List.mem_cons_self _ _ hab hbc)
        (ih hrest fun a ha => hT a (List.mem_cons_of_mem _ ha))

/-- **What a listing keeps of a text**: section by section, the instructions of the text with all
their operands, apart from those of the lines that open blocks and end functions.  If those have
none, and a line that ends a function has no result, nothing is lost. -/
theorem reread_of_parse {settings : Settings} {source text : String} {m : Module}
    (hparse : parse settings source = .ok m) (htext : m.text = .ok text) :
    ∃ (is js : List SourceInstruction) (ids : Numbering) (d : Draft),
      Consists source is ∧ Consists text js ∧ Numbering.ofInstructions is = .ok ids ∧
      d.opened = none ∧ d.written = is ∧ d.Sound ids ∧ d.sections.Perm is ∧
      List.Forall₂ SourceInstruction.Reread d.kept js ∧
      ((∀ f ∈ d.closed, ∀ b ∈ f.blocks, b.label.operands = []) →
        (∀ i ∈ d.endings, i.result = none ∧ i.operands = []) →
        List.Forall₂ SourceInstruction.Reread d.sections js) := by
  obtain ⟨-, names, hprintable⟩ := printable_of_parse hparse
  rw [parse, bind_eq_ok_iff] at hparse
  obtain ⟨statements, hstatements, hparse⟩ := hparse
  obtain ⟨is, his, hbuild⟩ := bind_eq_ok_iff.1 hparse
  rw [mapError_eq_ok_iff] at hstatements his
  obtain ⟨ids, d, hids, hopened, hwritten, hsound, hplaced⟩ := exists_draft hbuild
  obtain ⟨statements', js, hstatements', hjs', hjs⟩ := hprintable.exists_sources htext
  have hshown : List.Forall₂ (fun i j => Shows ids i j.content) d.kept m.listed := by
    have hcontent := hplaced.shows hsound
    rwa [Module.listed_content, List.forall₂_map_right_iff] at hcontent
  have hkept : List.Forall₂ SourceInstruction.Reread d.kept js := by
    refine forall₂_trans hshown hjs fun i hi j s hj hs => ?_
    obtain ⟨line, rfl⟩ := hs
    obtain ⟨i', hi', hreferences, hoperands⟩ := Draft.exists_of_mem_kept hi
    rw [hwritten] at hi'
    obtain ⟨statement, -, hstatement⟩ := exists_of_mem_result his hi'
    have hvalues := SourceInstruction.namesOnly_of_ofStatement hstatement
    refine hj.reread (fun operand hoperand => hvalues operand (hoperands hoperand)) ?_ line
    intro name hname
    exact respelled_key hids (Numbering.mem_names hids hi' (hreferences hname))
  refine ⟨is, js, ids, d, ⟨statements, hstatements, his⟩,
    ⟨statements', hstatements', hjs'⟩, hids, hopened, hwritten, hsound,
    hwritten ▸ Draft.sections_perm hopened, hkept, fun hlabels hendings => ?_⟩
  rw [← Draft.kept_eq_sections hlabels hendings]
  exact hkept

/-! ### Examples -/

/-- Two types, one of them with leading zeros and a hexadecimal width. -/
def respelledText : String := "%void = OpTypeVoid\n  %007 = OpTypeInt 0x20 0\n"

/-- The module of that text. -/
def respelledModule : Module :=
  { globals :=
      [{ opcode := "OpTypeVoid", result := some ⟨1, some "void"⟩, serial := 0 },
       { opcode := "OpTypeInt", result := some ⟨7, none⟩,
         operands := [.literal (.int 32) none, .literal (.int 0) none], serial := 1 }]
    bound := 8
    nextSerial := 2 }

theorem reread_of_parse_sample :
    parse {} respelledText = .ok respelledModule ∧
      respelledModule.text = .ok "%void = OpTypeVoid\n%7 = OpTypeInt 32 0\n" ∧
      ∃ (js : List SourceInstruction) (d : Draft), Consists respelledText d.written ∧
        Consists "%void = OpTypeVoid\n%7 = OpTypeInt 32 0\n" js ∧
        List.Forall₂ SourceInstruction.Reread d.kept js := by
  have hparse : parse {} respelledText = .ok respelledModule :=
    toOption_eq_some_iff.1 (by decide +kernel)
  have htext : respelledModule.text = .ok "%void = OpTypeVoid\n%7 = OpTypeInt 32 0\n" :=
    toOption_eq_some_iff.1 (by decide +kernel)
  obtain ⟨_, js, _, d, his, hjs, -, -, rfl, -, -, hkept, -⟩ := reread_of_parse hparse htext
  exact ⟨hparse, htext, js, d, his, hjs, hkept⟩

/-- A label with an operand, and the end of a function with a result and operands. -/
def droppingText : String :=
  "%1 = OpTypeVoid\n%2 = OpTypeFunction %1\n%3 = OpFunction %1 None %2\n%4 = OpLabel %2\n" ++
  "OpReturn\n%5 = OpFunctionEnd %1 7\n"

/-- The listing of that text. -/
def droppedText : String :=
  "%1 = OpTypeVoid\n%2 = OpTypeFunction %1\n%3 = OpFunction %1 None %2\n%4 = OpLabel\n" ++
  "OpReturn\nOpFunctionEnd\n"

/-- **Two lines lose what is written in them.** -/
theorem listing_drops_operands :
    ∃ m, parse {} droppingText = .ok m ∧ m.text = .ok droppedText := by
  have hlisting : (parse {} droppingText).toOption.bind (fun m => m.text.toOption)
      = some droppedText := by
    decide +kernel
  obtain ⟨m, hparse, htext⟩ := Option.bind_eq_some_iff.1 hlisting
  exact ⟨m, toOption_eq_some_iff.1 hparse, toOption_eq_some_iff.1 htext⟩

end Assembly
end ShiftBarrier
