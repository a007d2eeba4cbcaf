import ShiftBarrier.Proofs.Building
import ShiftBarrier.Proofs.Renumbering

/-!
# The lines of a listing

A listing regroups a module: first the header, then the globals, then one function after the other.
Read in this order, the instructions find their way back to where they were.

* `Module.listed` is the instructions of a listing, those that open blocks and end functions
  included; `Module.lines_eq` says that the listing is their texts.
* `Module.Arranged` says that every instruction stands where its opcode belongs.
* `Assembly.Builder.leads_listed` builds an arranged module from its listed instructions.
-/

set_option autoImplicit false

namespace ShiftBarrier

/-! ## Listed instructions -/

namespace Block

/-- The instruction that opens a block. -/
def opening (label : Id) : Instruction := { opcode := "OpLabel", result := some label }

/-- The instructions of a block as they are listed. -/
def listed (b : Block) : List Instruction := opening b.label :: b.instructions

end Block

namespace Function

/-- The instruction that ends a function. -/
def ending : Instruction := { opcode := "OpFunctionEnd" }

/-- The instructions of a function as they are listed. -/
def listed (f : Function) : List Instruction :=
  f.definition :: f.params ++ f.blocks.flatMap Block.listed ++ [ending]

end Function

/-- The instructions of a listing, in order. -/
def Module.listed (m : Module) : List Instruction :=
  m.preamble ++ m.globals ++ m.functions.flatMap Function.listed

theorem Function.mem_listed {f : Function} {i : Instruction} :
    i ∈ f.listed ↔
      i ∈ f.instructions ∨ (∃ label ∈ f.labels, i = Block.opening label) ∨ i = ending := by
  have hblocks : i ∈ f.blocks.flatMap Block.listed ↔
      i ∈ f.blocks.flatMap Block.instructions ∨ ∃ label ∈ f.labels, i = Block.opening label := by
    simp only [List.mem_flatMap, Block.listed, List.mem_cons, labels, List.mem_map]
    grind
  rw [listed, instructions, List.mem_append, List.mem_append, List.mem_singleton, hblocks,
    List.mem_append, ← or_assoc, or_assoc]

theorem Module.mem_listed {m : Module} {i : Instruction} :
    i ∈ m.listed ↔ i ∈ m.instructions ∨ (∃ label ∈ m.labels, i = Block.opening label) ∨
      (∃ f ∈ m.functions, i = Function.ending) := by
  have hfunctions : i ∈ m.functions.flatMap Function.listed ↔
      i ∈ m.functions.flatMap Function.instructions ∨
        (∃ label ∈ m.labels, i = Block.opening label) ∨
        (∃ f ∈ m.functions, i = Function.ending) := by
    simp only [List.mem_flatMap, Function.mem_listed, labels]
    grind
  have hinstructions : i ∈ m.instructions ↔ i ∈ m.preamble ++ m.globals ∨
      i ∈ m.functions.flatMap Function.instructions := List.mem_append
  rw [listed, List.mem_append, hfunctions, hinstructions, or_assoc]

theorem mapM_flatMap {ε α β γ : Type} (f : β → Except ε γ) (g : α → List β) (xs : List α) :
    (xs.flatMap g).mapM f = (do return (← xs.mapM fun x => (g x).mapM f).flatten) := by
  induction xs with
  | nil => rfl
  | cons x xs ih =>
    rw [List.flatMap_cons, List.mapM_append, ih, List.mapM_cons]
    simp

theorem Block.lines_eq (b : Block) : b.lines = b.listed.mapM Instruction.text := by
  have hopening : (Block.opening b.label).text = .ok (b.label.text ++ " = OpLabel") := by
    have hequal : " = " ++ "OpLabel" = " = OpLabel" := rfl
    rw [← hequal, ← String.append_assoc]
    rfl
  rw [lines, listed, List.mapM_cons, hopening]
  rfl

theorem Function.lines_eq (f : Function) : f.lines = f.listed.mapM Instruction.text := by
  have hending : [ending].mapM Instruction.text = pure ["OpFunctionEnd"] := rfl
  rw [lines, listed, List.mapM_append, List.mapM_append, mapM_flatMap, hending,
    funext Block.lines_eq]
  simp

/-- **The lines of a listing are the texts of the listed instructions.** -/
theorem Module.lines_eq (m : Module) : m.lines = m.listed.mapM Instruction.text := by
  simp [lines, listed, List.mapM_append, mapM_flatMap, funext Function.lines_eq]

/-! ## Contents and other numbers -/

section Map

variable {ρ : Equiv.Perm Nat}

theorem Function.listed_content (f : Function) :
    f.content.listed = f.listed.map Instruction.content := by
  simp only [listed, content, List.map_append, List.map_cons, List.map_nil, List.map_flatMap,
    List.flatMap_map]
  rfl

theorem Module.listed_content (m : Module) :
    m.content.listed = m.listed.map Instruction.content := by
  simp only [listed, content, List.map_append, List.map_flatMap, List.flatMap_map,
    Function.listed_content]

theorem Function.listed_renumber (f : Function) :
    (f.renumber ρ).listed = f.listed.map (Instruction.renumber ρ) := by
  simp only [listed, renumber, List.map_append, List.map_cons, List.map_nil, List.map_flatMap,
    List.flatMap_map]
  rfl

theorem Module.listed_renumber (m : Module) :
    (m.renumber ρ).listed = m.listed.map (Instruction.renumber ρ) := by
  simp only [listed, renumber, List.map_append, List.map_flatMap, List.flatMap_map,
    Function.listed_renumber]

/-- Modules that say the same have the same listing. -/
theorem Module.text_eq_of_listed {m m' : Module}
    (h : m'.listed.mapM Instruction.text = m.listed.mapM Instruction.text) : m'.text = m.text := by
  rw [text, text, lines_eq, lines_eq, h]

theorem Module.text_content (m : Module) : m.content.text = m.text := by
  refine text_eq_of_listed ?_
  rw [listed_content, List.mapM_map]
  rfl

end Map

/-! ## Arranged modules -/

/-- Every instruction of a function stands where its opcode belongs, and labels are told apart. -/
structure Function.Arranged (f : Function) : Prop where
  definition : f.definition.opcode = "OpFunction"
  result : f.definition.result = some f.id
  params : ∀ i ∈ f.params, i.opcode = "OpFunctionParameter"
  body : ∀ b ∈ f.blocks, ∀ i ∈ b.instructions, i.opcode ∉ Opcode.structural
  labels : (f.labels.map Id.number).Nodup

/-- Every instruction stands where its opcode belongs, and functions and labels are told apart. -/
structure Module.Arranged (m : Module) : Prop where
  preamble : ∀ i ∈ m.preamble, Opcode.isPreamble i.opcode = true
  globals : ∀ i ∈ m.globals, Opcode.isPreamble i.opcode = false ∧ i.opcode ≠ "OpFunction" ∧
    i.opcode ≠ "OpFunctionEnd"
  functions : ∀ f ∈ m.functions, f.Arranged
  ids : (m.functions.map (·.id.number)).Nodup

theorem Function.hasBlock_eq_false_iff {f : Function} {label : Id} :
    f.hasBlock label = false ↔ label.number ∉ f.labels.map Id.number := by
  rw [hasBlock, List.any_eq_false, List.mem_map]
  simp only [Id.same_iff, not_exists, not_and]
  exact ⟨fun h l hl heq => h l hl heq.symm, fun h l hl heq => h l hl heq.symm⟩

theorem Module.hasFunction_eq_false_iff {m : Module} {id : Id} :
    m.hasFunction id = false ↔ id.number ∉ m.functions.map (·.id.number) := by
  rw [hasFunction, List.any_eq_false, List.mem_map]
  simp only [Id.same_iff, not_exists, not_and]
  exact ⟨fun h f hf heq => h f hf heq.symm, fun h f hf heq => h f hf heq.symm⟩

namespace Assembly.Builder

/-! ## Building

The lines of a listing come in an order in which every instruction fits, so the construction goes
through. -/

/-- The state of a construction without its bound and without serial numbers. -/
def content (b : Builder) : Builder := ⟨b.built.content, b.current.map Function.content⟩

/-- Instructions that are added one after the other, whatever lines they come from. -/
inductive Adds : Builder → List Instruction → Builder → Prop
  | nil (b : Builder) : Adds b [] b
  | cons {b b' b'' : Builder} {i : Instruction} {is : List Instruction}
      (h : ∀ line, b.add i line = .ok b') (hrest : Adds b' is b'') : Adds b (i :: is) b''

theorem Adds.append {b b' b'' : Builder} {is js : List Instruction} (h : Adds b is b')
    (h' : Adds b' js b'') : Adds b (is ++ js) b'' := by
  induction h with
  | nil => exact h'
  | cons h _ ih => exact .cons h (ih h')

/-- From a construction that shows `s`, the instructions lead to one that shows `s'`. -/
def Leads (s : Builder) (is : List Instruction) (s' : Builder) : Prop :=
  ∀ b : Builder, b.content = s → ∃ b', Adds b is b' ∧ b'.content = s'

theorem Leads.nil (s : Builder) : Leads s [] s := fun b hb => ⟨b, .nil b, hb⟩

theorem Leads.append {s s' s'' : Builder} {is js : List Instruction} (h : Leads s is s')
    (h' : Leads s' js s'') : Leads s (is ++ js) s'' := by
  intro b hb
  obtain ⟨b₁, hadds, hb₁⟩ := h b hb
  obtain ⟨b₂, hadds', hb₂⟩ := h' b₁ hb₁
  exact ⟨b₂, hadds.append hadds', hb₂⟩

/-- A run of things that are put in place one after the other. -/
theorem Leads.run {α : Type} (listed : α → List Instruction) (place : List α → Builder)
    (as : List α) (h : ∀ done a rest, done ++ a :: rest = as →
      Leads (place done) (listed a) (place (done ++ [a]))) :
    Leads (place []) (as.flatMap listed) (place as) := by
  have hrest : ∀ rest done, done ++ rest = as →
      Leads (place done) (rest.flatMap listed) (place as) := by
    intro rest
    induction rest with
    | nil =>
      intro done heq
      rw [List.append_nil] at heq
      exact heq ▸ .nil _
    | cons a rest ih =>
      intro done heq
      refine (h done a rest heq).append (ih _ ?_)
      rw [List.append_assoc]
      exact heq
  exact hrest as [] rfl

/-- A run of single instructions. -/
theorem Leads.run_singleton (place : List Instruction → Builder) (is : List Instruction)
    (h : ∀ done, ∀ i ∈ is, Leads (place done) [i] (place (done ++ [i]))) :
    Leads (place []) is (place is) := by
  have hrun := Leads.run (fun i => [i]) place is fun done i rest heq =>
    h done i (heq ▸ List.mem_append_right _ List.mem_cons_self)
  rwa [List.flatMap_singleton'] at hrun

section Leads

variable {m : Module} {f : Function} {i : Instruction}

theorem Leads.single {s s' : Builder}
    (h : ∀ b : Builder, b.content = s → ∃ b', Added b i b' ∧ b'.content = s') :
    Leads s [i] s' := by
  intro b hb
  obtain ⟨b', hadded, hb'⟩ := h b hb
  exact ⟨b', .cons hadded.add_eq (.nil b'), hb'⟩

theorem built_of_content {b : Builder} (h : b.content = ⟨m, none⟩) :
    b.current = none ∧ b.built.content = m := by
  obtain ⟨hbuilt, hcurrent⟩ := Builder.mk.inj h
  exact ⟨Option.map_eq_none_iff.1 hcurrent, hbuilt⟩

theorem current_of_content {b : Builder} (h : b.content = ⟨m, some f⟩) :
    ∃ f', b.current = some f' ∧ f'.content = f ∧ b.built.content = m := by
  obtain ⟨hbuilt, hcurrent⟩ := Builder.mk.inj h
  obtain ⟨f', hf', hf⟩ := Option.map_eq_some_iff.1 hcurrent
  exact ⟨f', hf', hf, hbuilt⟩

theorem leads_preamble (h : Opcode.isPreamble i.opcode = true) :
    Leads ⟨m, none⟩ [i] ⟨{ m with preamble := m.preamble ++ [i.content] }, none⟩ := by
  refine .single fun b hb => ?_
  obtain ⟨hcurrent, rfl⟩ := built_of_content hb
  refine ⟨_, .preamble hcurrent h, ?_⟩
  simp [content, Module.content, Module.addPreamble, Module.adopt, Instruction.content]

theorem leads_global (h : Opcode.isPreamble i.opcode = false) (hfunction : i.opcode ≠ "OpFunction")
    (hend : i.opcode ≠ "OpFunctionEnd") :
    Leads ⟨m, none⟩ [i] ⟨{ m with globals := m.globals ++ [i.content] }, none⟩ := by
  refine .single fun b hb => ?_
  obtain ⟨hcurrent, rfl⟩ := built_of_content hb
  refine ⟨_, .global hcurrent h hfunction hend, ?_⟩
  simp [content, Module.content, Module.addGlobal, Module.adopt, Instruction.content]

theorem leads_definition {id : Id} (h : i.opcode = "OpFunction") (hresult : i.result = some id)
    (hnew : id.number ∉ m.functions.map (·.id.number)) :
    Leads ⟨m, none⟩ [i] ⟨m, some { id, definition := i.content }⟩ := by
  refine .single fun b hb => ?_
  obtain ⟨hcurrent, rfl⟩ := built_of_content hb
  have hnone : b.built.hasFunction id = false := by
    rw [Module.hasFunction_eq_false_iff]
    simpa [Module.content, Function.content] using hnew
  refine ⟨_, .definition hcurrent h hresult hnone, ?_⟩
  simp [content, Module.content, Module.adopt, Function.content, Instruction.content]

theorem leads_ending (h : i.opcode = "OpFunctionEnd") : Leads ⟨m, some f⟩ [i]
    ⟨{ m with functions := m.functions ++ [f] }, none⟩ := by
  refine .single fun b hb => ?_
  obtain ⟨f', hcurrent, rfl, rfl⟩ := current_of_content hb
  refine ⟨_, .ending hcurrent h, ?_⟩
  simp [content, Module.content]

theorem leads_param (h : i.opcode = "OpFunctionParameter") (hblocks : f.blocks = []) :
    Leads ⟨m, some f⟩ [i] ⟨m, some { f with params := f.params ++ [i.content] }⟩ := by
  refine .single fun b hb => ?_
  obtain ⟨f', hcurrent, rfl, rfl⟩ := current_of_content hb
  refine ⟨_, .param hcurrent h (List.map_eq_nil_iff.1 hblocks), ?_⟩
  simp [content, Module.content, Module.adopt, Function.content, Instruction.content]

theorem leads_opening {label : Id} (h : i.opcode = "OpLabel") (hresult : i.result = some label)
    (hnew : label.number ∉ f.labels.map Id.number) :
    Leads ⟨m, some f⟩ [i] ⟨m, some { f with blocks := f.blocks ++ [{ label }] }⟩ := by
  refine .single fun b hb => ?_
  obtain ⟨f', hcurrent, rfl, rfl⟩ := current_of_content hb
  have hnone : f'.hasBlock label = false := by
    rw [Function.hasBlock_eq_false_iff]
    simpa [Function.labels, Function.content, Block.content] using hnew
  refine ⟨_, .label hcurrent h hresult hnone, ?_⟩
  simp [content, Function.content, Block.content]

theorem leads_body {bs : List Block} {b : Block} (h : i.opcode ∉ Opcode.structural) :
    Leads ⟨m, some { f with blocks := bs ++ [b] }⟩ [i]
      ⟨m, some { f with
        blocks := bs ++ [{ b with instructions := b.instructions ++ [i.content] }] }⟩ := by
  refine .single fun builder hbuilder => ?_
  obtain ⟨f', hcurrent, hf', rfl⟩ := current_of_content hbuilder
  obtain ⟨bs', last, heq, hbs, hlast⟩ := List.map_eq_append_iff.1 (congrArg Function.blocks hf')
  obtain ⟨b', rfl, hb'⟩ := List.map_eq_singleton_iff.1 hlast
  refine ⟨_, .body hcurrent h (by simp [heq]), ?_⟩
  rw [heq, appendToLast_concat]
  simp [content, Module.content, Module.adopt, Function.content, Block.content,
    Instruction.content, ← hbs, ← hb']
  obtain ⟨hid, hdefinition, hparams, -⟩ := Function.mk.inj hf'
  exact ⟨hid, hdefinition, hparams⟩

/-! ### Functions and modules -/

theorem leads_block {b : Block} (hbody : ∀ i ∈ b.instructions, i.opcode ∉ Opcode.structural)
    (hnew : b.label.number ∉ f.labels.map Id.number) :
    Leads ⟨m, some f⟩ b.listed ⟨m, some { f with blocks := f.blocks ++ [b.content] }⟩ := by
  have hinstructions := Leads.run_singleton (fun done => ⟨m, some { f with
    blocks := f.blocks ++ [⟨b.label, done.map Instruction.content⟩] }⟩) b.instructions
    fun done i hi => by
      rw [List.map_append]
      exact leads_body (hbody i hi)
  exact (leads_opening rfl rfl hnew).append hinstructions

theorem not_mem_map_of_nodup {α β : Type} {g : α → β} {done rest : List α} {a : α}
    (h : ((done ++ a :: rest).map g).Nodup) : g a ∉ done.map g := by
  rw [List.map_append, List.nodup_append] at h
  exact fun hmem => h.2.2 _ hmem _ List.mem_cons_self rfl

theorem leads_function {f : Function} (hf : f.Arranged)
    (hnew : f.id.number ∉ m.functions.map (·.id.number)) :
    Leads ⟨m, none⟩ f.listed ⟨{ m with functions := m.functions ++ [f.content] }, none⟩ := by
  have hparams := Leads.run_singleton (fun done => ⟨m, some
    { id := f.id, definition := f.definition.content, params := done.map Instruction.content }⟩)
    f.params fun done i hi => by
      rw [List.map_append]
      exact leads_param (hf.params i hi) rfl
  have hblocks := Leads.run Block.listed (fun done => ⟨m, some
    { id := f.id, definition := f.definition.content, params := f.params.map Instruction.content,
      blocks := done.map Block.content }⟩) f.blocks fun done b rest heq => by
      have hmem : b ∈ f.blocks := heq ▸ List.mem_append_right _ List.mem_cons_self
      have hlabels : ((done ++ b :: rest).map (·.label.number)).Nodup := by
        have hnodup := hf.labels
        rwa [Function.labels, List.map_map, ← heq] at hnodup
      rw [List.map_append]
      refine leads_block (hf.body b hmem) ?_
      have hnot := not_mem_map_of_nodup hlabels
      simpa [Function.labels, Block.content] using hnot
  exact (((leads_definition hf.definition hf.result hnew).append hparams).append hblocks).append
    (leads_ending rfl)

/-- **The listed instructions of an arranged module lead to the module again.** -/
theorem leads_listed {m : Module} (hm : m.Arranged) :
    Leads ⟨(Module.empty m.settings).content, none⟩ m.listed ⟨m.content, none⟩ := by
  have hpreamble := Leads.run_singleton (fun done =>
    ⟨{ m.content with preamble := done.map Instruction.content, globals := [], functions := [] },
      none⟩) m.preamble fun done i hi => by
      rw [List.map_append]
      exact leads_preamble (hm.preamble i hi)
  have hglobals := Leads.run_singleton (fun done =>
    ⟨{ m.content with globals := done.map Instruction.content, functions := [] }, none⟩)
    m.globals fun done i hi => by
      rw [List.map_append]
      obtain ⟨hother, hfunction, hend⟩ := hm.globals i hi
      exact leads_global hother hfunction hend
  have hfunctions := Leads.run Function.listed (fun done =>
    ⟨{ m.content with functions := done.map Function.content }, none⟩) m.functions
    fun done f rest heq => by
      have hmem : f ∈ m.functions := heq ▸ List.mem_append_right _ List.mem_cons_self
      rw [List.map_append]
      refine leads_function (hm.functions f hmem) ?_
      have hnot := not_mem_map_of_nodup (heq.symm ▸ hm.ids)
      simpa [Function.content] using hnot
  exact (hpreamble.append hglobals).append hfunctions

end Leads

end Assembly.Builder
end ShiftBarrier
