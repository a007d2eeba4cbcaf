import ShiftBarrier.Proofs.Listing.Printable

/-!
# A listing is read back

* `Module.Reprints` says of a module that it is another one under other numbers.  Ids without
  friendly names keep theirs, which is why both have the same listing (`Module.Reprints.text_eq`).
* `Module.Printable.parse_text` reads the listing of a printable module: what comes out reprints it.
-/

set_option autoImplicit false

namespace ShiftBarrier

/-- The module `m'` is `m` with other numbers for the ids that have friendly names. -/
def Module.Reprints (m m' : Module) (ρ : Equiv.Perm Nat) : Prop :=
  (∀ id ∈ m.mentions, id.name = none → ρ id.number = id.number) ∧
    m'.content = (m.renumber ρ).content

/-! ## Ids -/

theorem Id.key_of_name {i : Id} {name : String} (h : i.name = some name) : i.key = name := by
  rw [key, h, Option.getD_some]

namespace Instruction

/-- The names in a line are those of the ids in it. -/
theorem references_source (i : Instruction) (line : Nat) :
    (i.source line).references = i.mentions.map Id.key := by
  have hoperands : (i.operands.map Operand.source).filterMap SourceOperand.name?
      = i.inputs.map Id.key := by
    rw [inputs, List.filterMap_map, List.map_filterMap]
    refine List.filterMap_congr fun operand _ => ?_
    cases operand <;> rfl
  have htype : (i.type.toList.map fun id => SourceOperand.name id.key).filterMap
      SourceOperand.name? = i.type.toList.map Id.key := by
    cases i.type <;> rfl
  rw [SourceInstruction.references, source, sourceOperands, List.filterMap_append, htype, hoperands,
    mentions, uses, List.map_append, List.map_append]
  cases i.result <;> rfl

end Instruction

/-- What a module mentions is what its listing mentions. -/
theorem Module.mem_mentions_iff {m : Module} {id : Id} :
    id ∈ m.mentions ↔ ∃ i ∈ m.listed, id ∈ i.mentions := by
  have hopening : ∀ label, (Block.opening label).mentions = [label] := fun _ => rfl
  have hending : Function.ending.mentions = [] := rfl
  rw [mentions_eq, List.mem_append, List.mem_flatMap]
  constructor
  · rintro (⟨i, hi, hid⟩ | hid)
    · exact ⟨i, mem_listed.2 (.inl hi), hid⟩
    · exact ⟨_, mem_listed.2 (.inr (.inl ⟨id, hid, rfl⟩)), by simp [hopening]⟩
  · rintro ⟨i, hi, hid⟩
    rcases mem_listed.1 hi with hi | ⟨label, hlabel, rfl⟩ | ⟨f, -, rfl⟩
    · exact .inl ⟨i, hi, hid⟩
    · rw [hopening, List.mem_singleton] at hid
      exact .inr (hid ▸ hlabel)
    · rw [hending] at hid
      exact absurd hid List.not_mem_nil

/-- What is mentioned is mentioned in a reprint, too, under its new number. -/
theorem Module.Reprints.mem_mentions {m m' : Module} {ρ : Equiv.Perm Nat} (h : m.Reprints m' ρ)
    {id : Id} (hid : id ∈ m.mentions) : id.renumber ρ ∈ m'.mentions := by
  obtain ⟨i, hi, hid⟩ := mem_mentions_iff.1 hid
  have hlisted : m'.listed.map Instruction.content
      = (m.listed.map (Instruction.renumber ρ)).map Instruction.content := by
    rw [← listed_content, h.2, listed_content, listed_renumber]
  have hi' : (i.renumber ρ).content ∈ m'.listed.map Instruction.content := by
    rw [hlisted]
    exact List.mem_map_of_mem (List.mem_map_of_mem hi)
  obtain ⟨i', hi', heq⟩ := List.mem_map.1 hi'
  have hmentions : i'.mentions = i.mentions.map (Id.renumber ρ) := by
    rw [← Instruction.mentions_renumber]
    exact show i'.content.mentions = (i.renumber ρ).content.mentions from heq ▸ rfl
  exact mem_mentions_iff.2 ⟨i', hi', hmentions ▸ List.mem_map_of_mem hid⟩

namespace Assembly

/-- Resolving the names of a line gives back its instruction, under the numbers of the names. -/
theorem resolve_source {n : Numbering} {ρ : Equiv.Perm Nat} {i : Instruction} (hi : i.Printable)
    (hid : ∀ id ∈ i.mentions, n.id id.key = id.renumber ρ) (line : Nat) :
    resolve n (i.source line) = .ok (i.renumber ρ).content := by
  have hresult : (i.result.map Id.key).map n.id = i.result.map (Id.renumber ρ) := by
    rw [Option.map_map]
    refine Option.map_congr fun id hmem => hid id (List.mem_append_left _ ?_)
    exact Option.mem_toList.2 hmem
  have htype : ∀ id ∈ i.type, n.id id.key = id.renumber ρ := fun id hmem =>
    hid id (List.mem_append_right _ (List.mem_append_left _ (Option.mem_toList.2 hmem)))
  have hoperands : (i.operands.map Operand.source).map (resolveOperand n)
      = i.operands.map (Operand.renumber ρ) := by
    rw [List.map_map]
    refine List.map_congr_left fun operand hoperand => ?_
    cases operand with
    | id id =>
      refine congrArg Operand.id (hid id (List.mem_append_right _ (List.mem_append_right _ ?_)))
      exact List.mem_filterMap.2 ⟨_, hoperand, rfl⟩
    | _ => rfl
  refine resolve_eq_ok_iff.2 ⟨rfl, hresult.symm, ?_, ?_, rfl⟩
  · rw [Instruction.source, Instruction.sourceOperands, List.map_append, hoperands]
    cases ht : i.type with
    | none => simp [Instruction.renumber, Instruction.content, ht]
    | some t =>
      simp [Instruction.renumber, Instruction.content, ht, htype t ht, resolveOperand]
  · simpa [Instruction.renumber, Instruction.content] using hi.typed

/-- Adding instructions one after the other is what a construction does. -/
theorem Builder.Adds.foldlM {n : Numbering} {b b' : Builder} {is : List Instruction}
    (h : Adds b is b') {sources : List SourceInstruction}
    (hsources : List.Forall₂ (fun i s => resolve n s = .ok i) is sources) :
    sources.foldlM (fun b s => do b.add (← resolve n s) s.line) b = .ok b' := by
  induction h generalizing sources with
  | nil =>
    cases hsources
    rfl
  | cons hadd _ ih =>
    cases hsources with
    | cons hresolve hrest =>
      rw [List.foldlM_cons, hresolve]
      refine bind_eq_ok_iff.2 ⟨_, hadd _, ih hrest⟩

end Assembly

namespace Module

variable {ids : List Id} {m : Module} {ρ : Equiv.Perm Nat}

theorem content_content (m : Module) : m.content.content = m.content := by
  simp [content, Function.content, Block.content, Instruction.content, Function.comp_def]

/-- **A module that says the same has the same listing.** -/
theorem Reprints.text_eq {m' : Module} (h : Reprints m m' ρ) : m'.text = m.text := by
  rw [← text_content, h.2, text_content]
  refine text_eq_of_listed ?_
  rw [listed_renumber, List.mapM_map]
  exact mapM_congr fun i hi => Instruction.text_renumber fun id hid =>
    h.1 id (mem_mentions_iff.2 ⟨i, hi, hid⟩)

/-- The opcodes stay, and what is told apart stays apart. -/
theorem Arranged.renumber (h : m.Arranged) (ρ : Equiv.Perm Nat) :
    (m.renumber ρ).content.Arranged := by
  have hnodup : ∀ {numbers : List Nat}, numbers.Nodup → (numbers.map ρ).Nodup :=
    List.Nodup.map ρ.injective
  refine ⟨?_, ?_, ?_, ?_⟩
  · refine List.forall_mem_map.2 (List.forall_mem_map.2 ?_)
    exact h.preamble
  · refine List.forall_mem_map.2 (List.forall_mem_map.2 ?_)
    exact h.globals
  · refine List.forall_mem_map.2 (List.forall_mem_map.2 fun f hf => ?_)
    obtain ⟨hdefinition, hresult, hparams, hbody, hlabels⟩ := h.functions f hf
    refine ⟨hdefinition, congrArg (Option.map (Id.renumber ρ)) hresult, ?_, ?_, ?_⟩
    · exact List.forall_mem_map.2 (List.forall_mem_map.2 hparams)
    · refine List.forall_mem_map.2 (List.forall_mem_map.2 fun b hb => ?_)
      exact List.forall_mem_map.2 (List.forall_mem_map.2 (hbody b hb))
    · have hmap : (f.renumber ρ).content.labels.map Id.number
          = (f.labels.map Id.number).map ρ := by
        simp [Function.labels, Function.content, Function.renumber, Block.content, Block.renumber,
          Function.comp_def]
      rw [hmap]
      exact hnodup hlabels
  · have hmap : (m.renumber ρ).content.functions.map (·.id.number)
        = (m.functions.map (·.id.number)).map ρ := by
      simp [content, Module.renumber, Function.content, Function.renumber, Function.comp_def]
    rw [hmap]
    exact hnodup h.ids

/-- Numbering the names of a listing renumbers its ids. -/
theorem Printable.exists_renumbering (h : m.Printable ids) {n : Numbering}
    {is : List SourceInstruction} (hn : Numbering.ofInstructions is = .ok n)
    (his : List.Forall₂ (fun i s => ∃ line, s = i.source line) m.listed is) :
    ∃ ρ : Equiv.Perm Nat, ∀ i ∈ m.listed, ∀ id ∈ i.mentions,
      n.id id.key = id.renumber ρ ∧ (id.name = none → ρ id.number = id.number) := by
  have hmem : ∀ id ∈ m.listed.flatMap Instruction.mentions, id ∈ ids ∧
      id.key ∈ n.entries.map Prod.fst := by
    intro id hid
    obtain ⟨i, hi, hid⟩ := List.mem_flatMap.1 hid
    obtain ⟨s, hs, line, rfl⟩ := exists_right_of_mem his hi
    refine ⟨(h.within i hi).mentions id hid, Numbering.mem_names hn hs ?_⟩
    rw [Instruction.references_source]
    exact List.mem_map_of_mem hid
  have hname : ∀ id ∈ m.listed.flatMap Instruction.mentions, (n.id id.key).name = id.name ∧
      (id.name = none → n.id id.key = id) := fun id hid =>
    Numbering.name_id hn (h.vocabulary.spelled id (hmem id hid).1) (hmem id hid).2
  have hkey : ∀ id ∈ m.listed.flatMap Instruction.mentions, (n.id id.key).key = id.key := by
    intro id hid
    obtain ⟨hsome, hnone⟩ := hname id hid
    cases hcase : id.name with
    | none => rw [hnone hcase]
    | some name => rw [Id.key_of_name (hsome.trans hcase), Id.key_of_name hcase]
  have hpairs : ∀ id ∈ m.listed.flatMap Instruction.mentions,
      ∀ id' ∈ m.listed.flatMap Instruction.mentions,
        id.number = id'.number ↔ (n.id id.key).number = (n.id id'.key).number := by
    intro id hid id' hid'
    constructor
    · intro heq
      rw [h.vocabulary.number_inj id (hmem id hid).1 id' (hmem id' hid').1 heq]
    · intro heq
      have hsame := Numbering.id_inj hn (hmem id hid).2 (hmem id' hid').2 heq
      have hkeys : id.key = id'.key := by rw [← hkey id hid, hsame, hkey id' hid']
      rw [h.vocabulary.key_inj id (hmem id hid).1 id' (hmem id' hid').1 hkeys]
  obtain ⟨ρ, hρ⟩ := exists_perm
    ((m.listed.flatMap Instruction.mentions).map fun id => (id.number, (n.id id.key).number))
    (List.forall_mem_map.2 fun id hid => List.forall_mem_map.2 (hpairs id hid))
  refine ⟨ρ, fun i hi id hid => ?_⟩
  have hid : id ∈ m.listed.flatMap Instruction.mentions := List.mem_flatMap.2 ⟨i, hi, hid⟩
  have hnumber : ρ id.number = (n.id id.key).number := hρ _ (List.mem_map_of_mem hid)
  obtain ⟨hsome, hnone⟩ := hname id hid
  refine ⟨?_, fun hcase => by rw [hnumber, hnone hcase]⟩
  rw [Id.renumber, hnumber, ← hsome]

/-- The lines of a listing say what the instructions of the module are. -/
theorem Printable.exists_sources (h : m.Printable ids) {text : String}
    (htext : m.text = .ok text) :
    ∃ statements sources, Statement.ofText text = .ok statements ∧
      statements.mapM SourceInstruction.ofStatement = .ok sources ∧
      List.Forall₂ (fun i s => ∃ line, s = i.source line) m.listed sources := by
  rw [Module.text, lines_eq, bind_eq_ok_iff] at htext
  obtain ⟨lines, hlines, heq⟩ := htext
  cases heq
  have hsays : List.Forall₂ Instruction.Says lines m.listed := by
    refine ((List.forall₂_and_left _ _).2 ⟨fun i hi => (h.within i hi).printable,
      mapM_eq_ok_iff.1 hlines⟩).flip.imp fun line i hline => hline.1.says_of_text hline.2
  exact Statement.ofText_unlines hsays

/-- **A listing is read back as what was printed**, up to the numbers of ids with friendly names. -/
theorem Printable.parse_text (h : m.Printable ids) {text : String} (htext : m.text = .ok text) :
    ∃ m' ρ, Assembly.parse m.settings text = .ok m' ∧ m'.text = .ok text ∧ Reprints m m' ρ := by
  obtain ⟨statements, is, hstatements, hsources, his⟩ := h.exists_sources htext
  -- The names in the listing are those of the ids.
  obtain ⟨n, hn⟩ : ∃ n, Numbering.ofInstructions is = .ok n := by
    refine Numbering.exists_ofInstructions fun s hs name hname => ?_
    obtain ⟨i, hi, line, rfl⟩ := exists_left_of_mem his hs
    rw [Instruction.references_source] at hname
    obtain ⟨id, hid, rfl⟩ := List.mem_map.1 hname
    exact ⟨id, h.vocabulary.spelled id ((h.within i hi).mentions id hid), rfl⟩
  obtain ⟨ρ, hρ⟩ := h.exists_renumbering hn his
  -- Line by line, the module is built again.
  have hleads := Assembly.Builder.leads_listed (h.arranged.renumber ρ)
  obtain ⟨b, hadds, hb⟩ := hleads ⟨n.ids.foldl reserve (empty m.settings), none⟩ (by
    rw [Assembly.foldl_reserve_eq]
    rfl)
  have hresolved : List.Forall₂ (fun i s => Assembly.resolve n s = .ok i)
      (m.renumber ρ).content.listed is := by
    rw [listed_content, listed_renumber, List.map_map, List.forall₂_map_left_iff]
    refine ((List.forall₂_and_left _ _).2
      ⟨fun i hi => And.intro (h.within i hi).printable (hρ i hi), his⟩).imp fun i s hs => ?_
    obtain ⟨⟨hi, hid⟩, line, rfl⟩ := hs
    exact Assembly.resolve_source hi (fun id hmem => (hid id hmem).1) line
  obtain ⟨hcurrent, hbuilt⟩ := Assembly.Builder.built_of_content hb
  rw [content_content] at hbuilt
  have hreprints : Reprints m b.built ρ := by
    refine ⟨fun id hid => ?_, hbuilt⟩
    obtain ⟨i, hi, hid⟩ := mem_mentions_iff.1 hid
    exact (hρ i hi id hid).2
  refine ⟨b.built, ρ, ?_, hreprints.text_eq.trans htext, hreprints⟩
  rw [Assembly.parse, hstatements]
  refine bind_eq_ok_iff.2 ⟨statements, rfl, bind_eq_ok_iff.2 ⟨is, ?_, ?_⟩⟩
  · rw [hsources]
    rfl
  · rw [Assembly.build]
    refine bind_eq_ok_iff.2 ⟨n, hn, bind_eq_ok_iff.2 ⟨b, hadds.foldlM hresolved, ?_⟩⟩
    rw [Assembly.Builder.finish, hcurrent]

end Module
end ShiftBarrier
