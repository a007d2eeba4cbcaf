import ShiftBarrier.Proofs.Equivariance
import ShiftBarrier.Proofs.Listing.RoundTrip
import ShiftBarrier.Proofs.Validation

/-!
# Findings of a listing

The validator compares ids by their numbers and looks at nothing else of them.  So it finds the same
in two modules of which one is the other under other numbers, and in a module and its listing.

* `Finding.key` says what a finding is about; `Validation.renumberKey` gives it another number.
* `keys_findings_mirror` compares the findings of two modules that say the same.
* `findings_parse_text` says that the listing of a valid module is read back as a valid module,
  whatever the settings are by then.
-/

set_option autoImplicit false

namespace ShiftBarrier

variable {ρ : Equiv.Perm Nat}

theorem Instruction.Mirrors.uses {i i' : Instruction} (h : Mirrors ρ i i') :
    i'.uses = i.uses.map (Id.renumber ρ) := by
  have hinputs : i'.inputs = i.inputs.map (Id.renumber ρ) := by
    rw [inputs, inputs, h.operands, List.filterMap_map, List.map_filterMap]
    exact List.filterMap_congr fun operand _ => Operand.id?_renumber operand
  have htype : (i.type.map (Id.renumber ρ)).toList = i.type.toList.map (Id.renumber ρ) := by
    cases i.type <;> rfl
  rw [Instruction.uses, Instruction.uses, hinputs, h.type, htype, List.map_append]

/-! ## The parts of a module -/

theorem Block.Mirrors.isTerminated {b b' : Block} (h : Mirrors ρ b b') :
    b'.isTerminated = b.isTerminated := by
  obtain ⟨-, his⟩ := Block.mirrors_iff.1 h
  have hopcodes : b'.instructions.map Instruction.opcode = b.instructions.map Instruction.opcode :=
    forall₂_iff_map_eq.1 (his.imp fun _ _ hi => hi.opcode)
  have hlast : ∀ b : Block, b.isTerminated
      = (b.instructions.map Instruction.opcode).getLast?.any Opcode.isTerminator := by
    intro b
    rw [Block.isTerminated, List.getLast?_map, Option.any_map]
    rfl
  rw [hlast, hlast, hopcodes]

namespace Function

variable {f f' : Function}

theorem Mirrors.instructions (h : Mirrors ρ f f') :
    List.Forall₂ (Instruction.Mirrors ρ) f.instructions f'.instructions := by
  obtain ⟨-, hdefinition, hparams, hblocks⟩ := mirrors_iff.1 h
  refine .cons hdefinition (List.rel_append hparams (List.rel_flatMap hblocks fun b b' hb => ?_))
  exact (Block.mirrors_iff.1 hb).2

theorem Mirrors.labels (h : Mirrors ρ f f') : f'.labels = f.labels.map (Id.renumber ρ) := by
  obtain ⟨-, -, -, hblocks⟩ := mirrors_iff.1 h
  rw [Function.labels, Function.labels, List.map_map]
  exact forall₂_iff_map_eq.1 (hblocks.imp fun b b' hb => (Block.mirrors_iff.1 hb).1)

end Function

namespace Module

variable {m m' : Module}

theorem instructions_mirror (h : m'.content = (m.renumber ρ).content) :
    List.Forall₂ (Instruction.Mirrors ρ) m.instructions m'.instructions := by
  obtain ⟨hpreamble, hglobals, hfunctions, -⟩ := content_eq_iff.1 h
  refine List.rel_append (List.rel_append hpreamble hglobals) ?_
  exact List.rel_flatMap hfunctions fun f f' hf => hf.instructions

theorem labels_mirror (h : m'.content = (m.renumber ρ).content) :
    m'.labels = m.labels.map (Id.renumber ρ) := by
  obtain ⟨-, -, hfunctions, -⟩ := content_eq_iff.1 h
  rw [labels, labels, List.map_flatMap, List.flatMap_def, List.flatMap_def]
  exact congrArg _ (forall₂_iff_map_eq.1 (hfunctions.imp fun f f' hf => hf.labels))

end Module

/-! ## The checks

Every check compares ids and nothing else of them, so it comes out the same under other numbers. -/

namespace Validation

variable {known ids : List Id} {is is' : List Instruction} {i i' : Instruction} {m m' : Module}

variable (ρ) in
/-- What a finding is about, under another number. -/
def renumberKey (key : FindingKind × Id) : FindingKind × Id := (key.1, key.2.renumber ρ)

theorem isKnown_renumber (id : Id) :
    isKnown (known.map (Id.renumber ρ)) (id.renumber ρ) = isKnown known id := by
  rw [isKnown, isKnown, List.any_map]
  exact congrArg known.any (funext fun key => Id.same_renumber ρ id key)

theorem results_mirror (h : List.Forall₂ (Instruction.Mirrors ρ) is is') :
    results is' = (results is).map (Id.renumber ρ) := by
  induction h with
  | nil => rfl
  | @cons i i' is is' hi _ ih =>
    rw [results_cons, results_cons, ih, hi.result, List.map_append]
    cases i.result <;> rfl

theorem keys_undefinedUses_mirror (known : List Id) (h : Instruction.Mirrors ρ i i') :
    (undefinedUses (known.map (Id.renumber ρ)) i').map Finding.key
      = ((undefinedUses known i).map Finding.key).map (renumberKey ρ) := by
  rw [keys_undefinedUses, keys_undefinedUses, h.uses, List.filter_map, List.map_map, List.map_map]
  congr 1
  refine List.filter_congr fun id _ => ?_
  rw [Function.comp_apply, isKnown_renumber]

theorem keys_inOrder_mirror (later known : List Id)
    (h : List.Forall₂ (Instruction.Mirrors ρ) is is') :
    (inOrder (later.map (Id.renumber ρ)) (known.map (Id.renumber ρ)) is').map Finding.key
      = ((inOrder later known is).map Finding.key).map (renumberKey ρ) := by
  induction h generalizing known with
  | nil => rfl
  | @cons i i' is is' hi _ ih =>
    have hresult : i'.result.toList ++ known.map (Id.renumber ρ)
        = (i.result.toList ++ known).map (Id.renumber ρ) := by
      rw [hi.result, List.map_append]
      cases i.result <;> rfl
    have hknown : (if i'.opcode = "OpPhi" then
          later.map (Id.renumber ρ) ++ known.map (Id.renumber ρ) else known.map (Id.renumber ρ))
        = (if i.opcode = "OpPhi" then later ++ known else known).map (Id.renumber ρ) := by
      rw [hi.opcode, ← List.map_append, apply_ite (List.map (Id.renumber ρ))]
    rw [inOrder, inOrder, List.map_append, List.map_append, List.map_append, hresult, ih, hknown,
      keys_undefinedUses_mirror _ hi]

theorem repeated_renumber (known ids : List Id) :
    repeated (known.map (Id.renumber ρ)) (ids.map (Id.renumber ρ))
      = (repeated known ids).map (Id.renumber ρ) := by
  induction ids generalizing known with
  | nil => rfl
  | cons id ids ih =>
    rw [List.map_cons, repeated, repeated, isKnown_renumber]
    split
    · rw [ih, List.map_cons]
    · rw [← List.map_cons, ih]

theorem keys_unterminated_mirror {f f' : Function} (h : Function.Mirrors ρ f f') :
    (unterminated f').map Finding.key = ((unterminated f).map Finding.key).map (renumberKey ρ) := by
  obtain ⟨-, -, -, hblocks⟩ := Function.mirrors_iff.1 h
  rw [unterminated, unterminated]
  generalize f.blocks = bs at hblocks ⊢
  generalize f'.blocks = bs' at hblocks ⊢
  induction hblocks with
  | nil => rfl
  | @cons b b' bs bs' hb _ ih =>
    have hkey : (Finding.notTerminated b').key = renumberKey ρ (Finding.notTerminated b).key :=
      congrArg (FindingKind.notTerminated, ·) (Block.mirrors_iff.1 hb).1
    rw [List.filter_cons, List.filter_cons, hb.isTerminated]
    split
    · rw [List.map_cons, List.map_cons, List.map_cons, List.map_cons, List.map_cons, hkey, ih]
    · exact ih

theorem keys_inFunction_mirror (known : List Id) {f f' : Function} (h : Function.Mirrors ρ f f') :
    (inFunction (known.map (Id.renumber ρ)) f').map Finding.key
      = ((inFunction known f).map Finding.key).map (renumberKey ρ) := by
  rw [inFunction, inFunction, List.map_append, List.map_append, List.map_append,
    keys_unterminated_mirror h, results_mirror h.instructions, h.labels, ← List.map_append,
    keys_inOrder_mirror _ _ h.instructions]

/-! ## The findings -/

/-- Only valid ids are filtered, so the renumbering must keep them valid. -/
theorem shared_mirror (h : m'.content = (m.renumber ρ).content)
    (hvalid : ∀ id ∈ results m.preamble, (id.renumber ρ).isValid = id.isValid) :
    shared m' = (shared m).map (Id.renumber ρ) := by
  obtain ⟨hpreamble, -, hfunctions, -⟩ := Module.content_eq_iff.1 h
  have hids : m'.functions.map Function.id = (m.functions.map Function.id).map (Id.renumber ρ) := by
    rw [List.map_map]
    exact forall₂_iff_map_eq.1 (hfunctions.imp fun f f' hf => (Function.mirrors_iff.1 hf).1)
  have hfilter : (results m.preamble).filter (Id.isValid ∘ Id.renumber ρ)
      = (results m.preamble).filter Id.isValid := List.filter_congr hvalid
  rw [shared, shared, results_mirror hpreamble, hids, List.map_append, List.filter_map, hfilter]

/-- **A module has the findings of any other that says the same**, under its own numbers. -/
theorem keys_findings_mirror (h : m'.content = (m.renumber ρ).content)
    (hvalid : ∀ id ∈ results m.preamble, (id.renumber ρ).isValid = id.isValid)
    (hserials : (m.instructions.map Instruction.serial).Nodup)
    (hserials' : (m'.instructions.map Instruction.serial).Nodup) :
    (findings m').map Finding.key = ((findings m).map Finding.key).map (renumberKey ρ) := by
  obtain ⟨hpreamble, hglobals, hfunctions, -⟩ := Module.content_eq_iff.1 h
  have hshared := shared_mirror h hvalid
  have hredefined : (redefined m').map Finding.key
      = ((redefined m).map Finding.key).map (renumberKey ρ) := by
    rw [keys_redefined hserials, keys_redefined hserials',
      results_mirror (Module.instructions_mirror h), ← List.map_nil (f := Id.renumber ρ),
      repeated_renumber, List.map_map, List.map_map]
    rfl
  have hinPreamble : (inPreamble m').map Finding.key
      = ((inPreamble m).map Finding.key).map (renumberKey ρ) := by
    rw [inPreamble, inPreamble, results_mirror (Module.instructions_mirror h),
      Module.labels_mirror h, ← List.map_append, List.map_flatMap, List.map_flatMap,
      List.map_flatMap, List.flatMap_def, List.flatMap_def]
    exact congrArg _ (forall₂_iff_map_eq.1
      (hpreamble.imp fun i i' hi => keys_undefinedUses_mirror _ hi))
  have hinGlobals : (inGlobals m').map Finding.key
      = ((inGlobals m).map Finding.key).map (renumberKey ρ) := by
    rw [inGlobals, inGlobals, hshared]
    exact keys_inOrder_mirror [] _ hglobals
  have hinFunctions :
      (m'.functions.flatMap (inFunction (results m'.globals ++ shared m'))).map Finding.key
        = ((m.functions.flatMap (inFunction (results m.globals ++ shared m))).map Finding.key).map
          (renumberKey ρ) := by
    rw [results_mirror hglobals, hshared, ← List.map_append, List.map_flatMap, List.map_flatMap,
      List.map_flatMap, List.flatMap_def, List.flatMap_def]
    exact congrArg _ (forall₂_iff_map_eq.1
      (hfunctions.imp fun f f' hf => keys_inFunction_mirror _ hf))
  simp only [findings, List.map_append, hredefined, hinPreamble, hinGlobals, hinFunctions]

end Validation

namespace Module

variable {ids : List Id} {m : Module}

/-- The listing of a module can be read under any settings. -/
theorem Printable.withSettings (h : m.Printable ids) (settings : Settings) :
    Printable ids { m with settings } :=
  ⟨h.vocabulary, ⟨h.arranged.preamble, h.arranged.globals, h.arranged.functions, h.arranged.ids⟩,
    h.within⟩

/-- **The listing of a valid module is read back as a valid module.** -/
theorem Printable.findings_parse_text (h : m.Printable ids) (hwell : m.WellFormed)
    (hvalid : Validation.findings m = []) {text : String} (htext : m.text = .ok text)
    (settings : Settings) :
    ∃ m', Assembly.parse settings text = .ok m' ∧ Validation.findings m' = [] := by
  obtain ⟨m', ρ, hparse, -, hreprints⟩ := (h.withSettings settings).parse_text htext
  refine ⟨m', hparse, ?_⟩
  have hwell' := Assembly.wellFormed_of_parse hparse
  have hids : ∀ id ∈ Validation.results m.preamble, (id.renumber ρ).isValid = id.isValid := by
    intro id hid
    obtain ⟨i, hi, hresult⟩ := List.mem_filterMap.1 hid
    have hi' : i ∈ m.instructions := List.mem_append_left _ (List.mem_append_left _ hi)
    have hmem : id ∈ m.mentions := List.mem_append_left _ (List.mem_flatMap.2
      ⟨i, hi', List.mem_append_left _ (by simp [hresult])⟩)
    have hpos := (hwell.mentions_below hmem).1
    have hpos' := (hwell'.mentions_below (hreprints.mem_mentions hmem)).1
    rw [Id.isValid, Id.isValid, bne_iff_ne.2 (Nat.pos_iff_ne_zero.1 hpos),
      bne_iff_ne.2 (Nat.pos_iff_ne_zero.1 hpos')]
  have hkeys := Validation.keys_findings_mirror hreprints.2 hids hwell.nodup_serials
    hwell'.nodup_serials
  have hvalid' : Validation.findings { m with settings } = [] := hvalid
  rw [hvalid'] at hkeys
  exact List.map_eq_nil_iff.1 hkeys

end Module
end ShiftBarrier
