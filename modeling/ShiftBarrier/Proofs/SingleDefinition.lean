import ShiftBarrier.Proofs.Failure
import ShiftBarrier.Proofs.Listing.Printable
import ShiftBarrier.Proofs.Reading
import ShiftBarrier.Proofs.Validation

/-!
# Single definition

An id is defined by an instruction whose result it is, or by a block whose label it is.  The
validator counts the definitions of the first kind, and the parser tells the labels of one function
apart.  Neither looks at the labels of two functions, or at a label next to a result.

* `redefined_eq_nil_iff` says that the validator sees every result that is defined twice.
* `Module.LabelsApart` is what nobody checks.
* `definedOnce_iff_labelsApart` puts this together: in a module that is read and found to be valid,
  no id is defined twice exactly if its labels are apart.
-/

set_option autoImplicit false

namespace ShiftBarrier

/-- No label is a result, and no two functions have a label in common. -/
structure Module.LabelsApart (m : Module) : Prop where
  results : ((m.instructions.filterMap Instruction.result).map Id.number).Disjoint
    (m.labels.map Id.number)
  functions : m.functions.Pairwise fun f g =>
    (f.labels.map Id.number).Disjoint (g.labels.map Id.number)

/-- **When the labels of a module are told apart**: those of each function are, and no two
functions share one. -/
theorem Module.nodup_labels_iff {m : Module} :
    (m.labels.map Id.number).Nodup ↔
      (∀ f ∈ m.functions, (f.labels.map Id.number).Nodup) ∧
        m.functions.Pairwise fun f g =>
          (f.labels.map Id.number).Disjoint (g.labels.map Id.number) := by
  rw [labels, List.map_flatMap, List.nodup_flatMap]

theorem Module.definedOnce_iff {m : Module} :
    m.DefinedOnce ↔ ((m.instructions.filterMap Instruction.result).map Id.number).Nodup ∧
      (∀ f ∈ m.functions, (f.labels.map Id.number).Nodup) ∧ m.LabelsApart := by
  rw [DefinedOnce, List.map_append, List.nodup_append', nodup_labels_iff]
  constructor
  · rintro ⟨hresults, ⟨hwithin, hfunctions⟩, hapart⟩
    exact ⟨hresults, hwithin, hapart, hfunctions⟩
  · rintro ⟨hresults, hwithin, hapart, hfunctions⟩
    exact ⟨hresults, ⟨hwithin, hfunctions⟩, hapart⟩

namespace Validation

variable {known ids : List Id} {m : Module}

/-- Nothing is repeated if the ids are new and differ from each other. -/
theorem repeated_eq_nil_iff :
    repeated known ids = [] ↔
      (∀ id ∈ ids, isKnown known id = false) ∧ (ids.map Id.number).Nodup := by
  induction ids generalizing known with
  | nil => exact ⟨fun _ => ⟨List.forall_mem_nil _, List.nodup_nil⟩, fun _ => rfl⟩
  | cons id ids ih =>
    rw [repeated, List.forall_mem_cons, List.map_cons, List.nodup_cons]
    split
    · next hknown => simp [hknown]
    · next hnew =>
      have hone : (∀ key ∈ ids, isKnown (id :: known) key = false) ↔
          id.number ∉ ids.map Id.number ∧ ∀ key ∈ ids, isKnown known key = false := by
        simp only [isKnown_cons, Bool.or_eq_false_iff, Id.same_eq_false_iff, List.mem_map]
        grind
      rw [ih, hone]
      simp only [Bool.not_eq_true] at hnew
      tauto

/-- **The validator sees every result that is defined twice.** -/
theorem redefined_eq_nil_iff (hnodup : (m.instructions.map Instruction.serial).Nodup) :
    redefined m = [] ↔ ((results m.instructions).map Id.number).Nodup := by
  rw [← List.map_eq_nil_iff (f := Finding.key), keys_redefined hnodup, List.map_eq_nil_iff,
    repeated_eq_nil_iff]
  exact and_iff_right fun _ _ => rfl

theorem redefined_of_findings (h : findings m = []) : redefined m = [] := by
  simp only [findings, List.append_eq_nil_iff] at h
  exact h.1.1.1

/-- **A valid module defines every id once if its labels are apart.**  Results are always defined
once, and so are the labels of one function. -/
theorem definedOnce_iff_labelsApart {settings : Settings} {source : String}
    (hparse : Assembly.parse settings source = .ok m) (hvalid : findings m = []) :
    ((m.instructions.filterMap Instruction.result).map Id.number).Nodup ∧
      (∀ f ∈ m.functions, (f.labels.map Id.number).Nodup) ∧ (m.DefinedOnce ↔ m.LabelsApart) := by
  have hm := Assembly.wellFormed_of_parse hparse
  obtain ⟨-, ids, hprintable⟩ := Assembly.printable_of_parse hparse
  have hresults : ((m.instructions.filterMap Instruction.result).map Id.number).Nodup :=
    (redefined_eq_nil_iff hm.nodup_serials).1 (redefined_of_findings hvalid)
  have hwithin : ∀ f ∈ m.functions, (f.labels.map Id.number).Nodup :=
    fun f hf => (hprintable.arranged.functions f hf).labels
  refine ⟨hresults, hwithin, ?_⟩
  rw [Module.definedOnce_iff, and_iff_right hresults, and_iff_right hwithin]

/-! ### An example -/

/-- A function whose only block adds, the sum being `%6` and the block's label the given one. -/
def addingText (label : String) : String :=
  "%1 = OpTypeInt 32 0\n%2 = OpTypeVoid\n%3 = OpTypeFunction %2\n%4 = OpConstant %1 7\n" ++
  "%5 = OpFunction %2 None %3\n" ++ label ++ " = OpLabel\n%6 = OpIAdd %1 %4 %4\n" ++
  "OpReturn\nOpFunctionEnd\n"

/-- The module of that text, under the bound that the label leads to. -/
def adding (label : Id) (bound : Nat) : Module :=
  { globals :=
      [{ opcode := "OpTypeInt", result := some ⟨1, none⟩,
         operands := [.literal (.int 32) none, .literal (.int 0) none], serial := 0 },
       { opcode := "OpTypeVoid", result := some ⟨2, none⟩, serial := 1 },
       { opcode := "OpTypeFunction", result := some ⟨3, none⟩, operands := [.id ⟨2, none⟩],
         serial := 2 },
       { opcode := "OpConstant", type := some ⟨1, none⟩, result := some ⟨4, none⟩,
         operands := [.literal (.int 7) none], serial := 3 }]
    functions :=
      [{ id := ⟨5, none⟩
         definition :=
           { opcode := "OpFunction", type := some ⟨2, none⟩, result := some ⟨5, none⟩,
             operands := [.enumerant "None", .id ⟨3, none⟩], serial := 4 }
         blocks :=
           [{ label
              instructions :=
                [{ opcode := "OpIAdd", type := some ⟨1, none⟩, result := some ⟨6, none⟩,
                   operands := [.id ⟨4, none⟩, .id ⟨4, none⟩], serial := 5 },
                 { opcode := "OpReturn", serial := 6 }] }] }]
    bound
    nextSerial := 7 }

theorem parse_adding_apart : Assembly.parse {} (addingText "%7") = .ok (adding ⟨7, none⟩ 8) :=
  toOption_eq_some_iff.1 (by decide +kernel)

theorem definedOnce_iff_labelsApart_sample :
    Assembly.parse {} (addingText "%7") = .ok (adding ⟨7, none⟩ 8) ∧
      findings (adding ⟨7, none⟩ 8) = [] ∧ (adding ⟨7, none⟩ 8).DefinedOnce := by
  have hvalid : findings (adding ⟨7, none⟩ 8) = [] := by decide +kernel
  refine ⟨parse_adding_apart, hvalid, ?_⟩
  rw [(definedOnce_iff_labelsApart parse_adding_apart hvalid).2.2]
  exact ⟨List.disjoint_left.2 (by decide), List.pairwise_singleton _ _⟩

/-- **A label that is also a result goes unnoticed.** -/
theorem findings_shared_label :
    Assembly.parse {} (addingText "%6") = .ok (adding ⟨6, none⟩ 7) ∧
      findings (adding ⟨6, none⟩ 7) = [] ∧ ¬ (adding ⟨6, none⟩ 7).DefinedOnce := by
  refine ⟨toOption_eq_some_iff.1 (by decide +kernel), by decide +kernel, ?_⟩
  rw [Module.DefinedOnce]
  decide

end Validation
end ShiftBarrier
