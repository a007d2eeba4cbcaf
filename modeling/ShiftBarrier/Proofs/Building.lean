import ShiftBarrier.Assembly
import ShiftBarrier.Proofs.Failure

/-!
# How a module is built

A text is read instruction by instruction: the names of an instruction are resolved, and then it is
put where its opcode belongs.  What either step can do is said here once; whatever a construction
keeps is proved case by case from it.

* `Assembly.ResolvesTo` says what an instruction is resolved to (`Assembly.resolve_eq_ok_iff`).
* `Assembly.Builder.Added` are the ways for an instruction to be put in place, and
  `Assembly.Builder.Refused` the ways for it to be refused.  There is no other way
  (`Assembly.Builder.added_or_refused`).
* `Assembly.build_invariant` is the induction over the text: what every addition keeps holds of the
  module in the end.
-/

set_option autoImplicit false

namespace ShiftBarrier

/-- The opcodes that make up the structure of a function. -/
def Opcode.structural : List String :=
  ["OpFunction", "OpFunctionEnd", "OpFunctionParameter", "OpLabel"]

theorem Opcode.not_mem_structural_iff {opcode : String} : opcode ∉ structural ↔
    opcode ≠ "OpFunction" ∧ opcode ≠ "OpFunctionEnd" ∧ opcode ≠ "OpFunctionParameter" ∧
      opcode ≠ "OpLabel" := by
  simp only [structural, List.mem_cons, List.not_mem_nil, or_false, not_or]

/-- Nothing in the header of a module belongs to a function. -/
theorem Opcode.not_mem_structural_of_isPreamble {opcode : String} (h : isPreamble opcode = true) :
    opcode ∉ structural := by
  have hother : ∀ other ∈ structural, isPreamble other = false := by decide
  exact fun hmem => Bool.false_ne_true ((hother opcode hmem).symm.trans h)

namespace Assembly

/-! ## Names -/

/-- An instruction with the names of another one resolved. -/
structure ResolvesTo (ids : Numbering) (i : SourceInstruction) (j : Instruction) : Prop where
  opcode : j.opcode = i.opcode
  result : j.result = i.result.map ids.id
  operands : j.type.toList.map Operand.id ++ j.operands = i.operands.map (resolveOperand ids)
  typed : j.type.isSome = (j.result.isSome && Opcode.hasResultType j.opcode)
  serial : j.serial = 0

theorem resolve_eq_ok_iff {ids : Numbering} {i : SourceInstruction} {j : Instruction} :
    resolve ids i = .ok j ↔ ResolvesTo ids i j := by
  constructor
  · intro h
    rw [resolve] at h
    split at h
    · next hresult =>
      cases h
      exact ⟨rfl, by rw [hresult]; rfl, rfl, rfl, rfl⟩
    · next name hresult =>
      dsimp only at h
      split at h
      · next htyped =>
        split at h
        · next type operands hoperands =>
          cases h
          exact ⟨rfl, by rw [hresult]; rfl, hoperands.symm, htyped.symm, rfl⟩
        · cases h
      · next huntyped =>
        cases h
        exact ⟨rfl, by rw [hresult]; rfl, rfl, (Bool.not_eq_true _ ▸ huntyped).symm, rfl⟩
  · obtain ⟨opcode, type, result, operands, serial⟩ := j
    rintro ⟨hopcode, hresult, hoperands, htyped, hserial⟩
    dsimp only at hopcode hresult hoperands htyped hserial
    subst hopcode hresult hserial
    rw [resolve, ← hoperands]
    cases hname : i.result with
    | none =>
      rw [hname] at htyped
      obtain rfl : type = none := Option.not_isSome_iff_eq_none.1 (Bool.eq_false_iff.1 htyped)
      rfl
    | some name =>
      rw [hname] at htyped
      cases type with
      | none => exact if_neg (Bool.eq_false_iff.1 htyped.symm)
      | some type => exact if_pos htyped.symm

theorem ResolvesTo.uses_eq {ids : Numbering} {i : SourceInstruction} {j : Instruction}
    (h : ResolvesTo ids i j) :
    j.uses = (i.operands.map (resolveOperand ids)).filterMap Operand.id? := by
  rw [← h.operands, List.filterMap_append, List.filterMap_map]
  exact congrArg (· ++ _) List.filterMap_some.symm

/-! ## Places

Whether an instruction is taken depends on its opcode, its result, and the function that is open.
`Added` and `Refused` list all cases, so that no later proof takes the construction apart again. -/

namespace Builder

theorem appendToLast_concat (bs : List Block) (b : Block) (i : Instruction) :
    appendToLast (bs ++ [b]) i = bs ++ [{ b with instructions := b.instructions ++ [i] }] := by
  induction bs with
  | nil => rfl
  | cons b' bs ih =>
    rw [List.cons_append, appendToLast.eq_3 _ _ _ (by simp), ih]
    rfl

theorem instructions_appendToLast {bs : List Block} (h : bs ≠ []) (i : Instruction) :
    (appendToLast bs i).flatMap Block.instructions = bs.flatMap Block.instructions ++ [i] := by
  obtain ⟨bs, b, rfl⟩ := (List.eq_nil_or_concat' bs).resolve_left h
  simp [appendToLast_concat]

theorem labels_appendToLast (bs : List Block) (i : Instruction) :
    (appendToLast bs i).map Block.label = bs.map Block.label := by
  rcases List.eq_nil_or_concat' bs with rfl | ⟨bs, b, rfl⟩
  · rfl
  · simp [appendToLast_concat]

/-- The ways for an instruction to be put in place. -/
inductive Added (b : Builder) (i : Instruction) : Builder → Prop
  | preamble (hcurrent : b.current = none) (hopcode : Opcode.isPreamble i.opcode = true) :
      Added b i ⟨b.built.addPreamble i, none⟩
  | global (hcurrent : b.current = none) (hopcode : Opcode.isPreamble i.opcode = false)
      (hfunction : i.opcode ≠ "OpFunction") (hend : i.opcode ≠ "OpFunctionEnd") :
      Added b i ⟨b.built.addGlobal i, none⟩
  | definition {id : Id} (hcurrent : b.current = none) (hopcode : i.opcode = "OpFunction")
      (hresult : i.result = some id) (hnew : b.built.hasFunction id = false) :
      Added b i ⟨(b.built.adopt i).2, some { id, definition := (b.built.adopt i).1 }⟩
  | ending {f : Function} (hcurrent : b.current = some f) (hopcode : i.opcode = "OpFunctionEnd") :
      Added b i ⟨{ b.built with functions := b.built.functions ++ [f] }, none⟩
  | label {f : Function} {label : Id} (hcurrent : b.current = some f)
      (hopcode : i.opcode = "OpLabel") (hresult : i.result = some label)
      (hnew : f.hasBlock label = false) :
      Added b i ⟨b.built, some { f with blocks := f.blocks ++ [{ label }] }⟩
  | param {f : Function} (hcurrent : b.current = some f)
      (hopcode : i.opcode = "OpFunctionParameter") (hblocks : f.blocks = []) : Added b i
        ⟨(b.built.adopt i).2, some { f with params := f.params ++ [(b.built.adopt i).1] }⟩
  | body {f : Function} (hcurrent : b.current = some f) (hopcode : i.opcode ∉ Opcode.structural)
      (hblocks : f.blocks ≠ []) : Added b i
        ⟨(b.built.adopt i).2, some { f with blocks := appendToLast f.blocks (b.built.adopt i).1 }⟩

/-- The ways for an instruction to be refused, and what is reported. -/
inductive Refused (b : Builder) (i : Instruction) (line : Nat) : Error → Prop
  | nestedFunction {f : Function} (hcurrent : b.current = some f)
      (hopcode : i.opcode = "OpFunction") : Refused b i line (.syntaxFault (.nestedFunction line))
  | functionWithoutResult (hcurrent : b.current = none) (hopcode : i.opcode = "OpFunction")
      (hresult : i.result = none) : Refused b i line (.syntaxFault (.functionWithoutResult line))
  | functionTwice {id : Id} (hcurrent : b.current = none) (hopcode : i.opcode = "OpFunction")
      (hresult : i.result = some id) (hold : b.built.hasFunction id = true) :
      Refused b i line (.moduleFault (.functionTwice id line))
  | strayEnd (hcurrent : b.current = none) (hopcode : i.opcode = "OpFunctionEnd") :
      Refused b i line (.syntaxFault (.strayFunctionEnd line))
  | labelWithoutResult {f : Function} (hcurrent : b.current = some f)
      (hopcode : i.opcode = "OpLabel") (hresult : i.result = none) :
      Refused b i line (.syntaxFault (.labelWithoutResult line))
  | blockTwice {f : Function} {label : Id} (hcurrent : b.current = some f)
      (hopcode : i.opcode = "OpLabel") (hresult : i.result = some label)
      (hold : f.hasBlock label = true) : Refused b i line (.moduleFault (.blockTwice label line))
  | lateParameter {f : Function} (hcurrent : b.current = some f)
      (hopcode : i.opcode = "OpFunctionParameter") (hblocks : f.blocks ≠ []) :
      Refused b i line (.syntaxFault (.lateParameter line))
  | outsideBlock {f : Function} (hcurrent : b.current = some f)
      (hopcode : i.opcode ∉ Opcode.structural) (hblocks : f.blocks = []) :
      Refused b i line (.syntaxFault (.outsideBlock i.opcode line))

section Add

variable {b b' : Builder} {f : Function} {i : Instruction} {line : Nat} {e : Error}

theorem add_inside (hcurrent : b.current = some f) (hfunction : i.opcode ≠ "OpFunction")
    (hend : i.opcode ≠ "OpFunctionEnd") : b.add i line = b.addInside f i line := by
  rw [add, if_neg hfunction, if_neg hend, hcurrent]

theorem Added.add_eq (h : Added b i b') (line : Nat) : b.add i line = .ok b' := by
  cases h with
  | preamble hcurrent hopcode =>
    obtain ⟨hfunction, hend, -⟩ :=
      Opcode.not_mem_structural_iff.1 (Opcode.not_mem_structural_of_isPreamble hopcode)
    rw [add, if_neg hfunction, if_neg hend, hcurrent]
    exact congrArg Except.ok ((if_pos hopcode).trans (by rw [hcurrent]))
  | global hcurrent hopcode hfunction hend =>
    rw [add, if_neg hfunction, if_neg hend, hcurrent]
    exact congrArg Except.ok ((if_neg (Bool.eq_false_iff.1 hopcode)).trans (by rw [hcurrent]))
  | definition hcurrent hopcode hresult hnew =>
    rw [add, if_pos hopcode, beginFunction, hcurrent, hresult]
    exact if_neg (Bool.eq_false_iff.1 hnew)
  | ending hcurrent hopcode =>
    rw [add, if_neg (by rw [hopcode]; decide), if_pos hopcode, endFunction, hcurrent]
  | label hcurrent hopcode hresult hnew =>
    rw [add_inside hcurrent (by rw [hopcode]; decide) (by rw [hopcode]; decide), addInside,
      if_pos hopcode, hresult]
    exact if_neg (Bool.eq_false_iff.1 hnew)
  | param hcurrent hopcode hblocks =>
    rw [add_inside hcurrent (by rw [hopcode]; decide) (by rw [hopcode]; decide), addInside,
      if_neg (by rw [hopcode]; decide)]
    exact (if_pos hopcode).trans (if_pos (List.isEmpty_iff.2 hblocks))
  | body hcurrent hopcode hblocks =>
    obtain ⟨hfunction, hend, hparam, hlabel⟩ := Opcode.not_mem_structural_iff.1 hopcode
    rw [add_inside hcurrent hfunction hend, addInside, if_neg hlabel]
    exact (if_neg hparam).trans (if_neg (mt List.isEmpty_iff.1 hblocks))

theorem Refused.add_eq (h : Refused b i line e) : b.add i line = .error e := by
  cases h with
  | nestedFunction hcurrent hopcode => rw [add, if_pos hopcode, beginFunction, hcurrent]
  | functionWithoutResult hcurrent hopcode hresult =>
    rw [add, if_pos hopcode, beginFunction, hcurrent, hresult]
  | functionTwice hcurrent hopcode hresult hold =>
    rw [add, if_pos hopcode, beginFunction, hcurrent, hresult]
    exact if_pos hold
  | strayEnd hcurrent hopcode =>
    rw [add, if_neg (by rw [hopcode]; decide), if_pos hopcode, endFunction, hcurrent]
  | labelWithoutResult hcurrent hopcode hresult =>
    rw [add_inside hcurrent (by rw [hopcode]; decide) (by rw [hopcode]; decide), addInside,
      if_pos hopcode, hresult]
  | blockTwice hcurrent hopcode hresult hold =>
    rw [add_inside hcurrent (by rw [hopcode]; decide) (by rw [hopcode]; decide), addInside,
      if_pos hopcode, hresult]
    exact if_pos hold
  | lateParameter hcurrent hopcode hblocks =>
    rw [add_inside hcurrent (by rw [hopcode]; decide) (by rw [hopcode]; decide), addInside,
      if_neg (by rw [hopcode]; decide)]
    exact (if_pos hopcode).trans (if_neg (mt List.isEmpty_iff.1 hblocks))
  | outsideBlock hcurrent hopcode hblocks =>
    obtain ⟨hfunction, hend, hparam, hlabel⟩ := Opcode.not_mem_structural_iff.1 hopcode
    rw [add_inside hcurrent hfunction hend, addInside, if_neg hlabel]
    exact (if_neg hparam).trans (if_pos (List.isEmpty_iff.2 hblocks))

/-- An instruction is put in place, or it is refused. -/
theorem added_or_refused (b : Builder) (i : Instruction) (line : Nat) :
    (∃ b', Added b i b') ∨ ∃ e, Refused b i line e := by
  by_cases hfunction : i.opcode = "OpFunction"
  · cases hcurrent : b.current with
    | some f => exact .inr ⟨_, .nestedFunction hcurrent hfunction⟩
    | none =>
      cases hresult : i.result with
      | none => exact .inr ⟨_, .functionWithoutResult hcurrent hfunction hresult⟩
      | some id =>
        cases hold : b.built.hasFunction id with
        | false => exact .inl ⟨_, .definition hcurrent hfunction hresult hold⟩
        | true => exact .inr ⟨_, .functionTwice hcurrent hfunction hresult hold⟩
  by_cases hend : i.opcode = "OpFunctionEnd"
  · cases hcurrent : b.current with
    | none => exact .inr ⟨_, .strayEnd hcurrent hend⟩
    | some f => exact .inl ⟨_, .ending hcurrent hend⟩
  cases hcurrent : b.current with
  | none =>
    cases hopcode : Opcode.isPreamble i.opcode with
    | true => exact .inl ⟨_, .preamble hcurrent hopcode⟩
    | false => exact .inl ⟨_, .global hcurrent hopcode hfunction hend⟩
  | some f =>
    by_cases hlabel : i.opcode = "OpLabel"
    · cases hresult : i.result with
      | none => exact .inr ⟨_, .labelWithoutResult hcurrent hlabel hresult⟩
      | some label =>
        cases hold : f.hasBlock label with
        | false => exact .inl ⟨_, .label hcurrent hlabel hresult hold⟩
        | true => exact .inr ⟨_, .blockTwice hcurrent hlabel hresult hold⟩
    by_cases hparam : i.opcode = "OpFunctionParameter"
    · by_cases hblocks : f.blocks = []
      · exact .inl ⟨_, .param hcurrent hparam hblocks⟩
      · exact .inr ⟨_, .lateParameter hcurrent hparam hblocks⟩
    have hbody := Opcode.not_mem_structural_iff.2 ⟨hfunction, hend, hparam, hlabel⟩
    by_cases hblocks : f.blocks = []
    · exact .inr ⟨_, .outsideBlock hcurrent hbody hblocks⟩
    · exact .inl ⟨_, .body hcurrent hbody hblocks⟩

theorem add_eq_ok_iff : b.add i line = .ok b' ↔ Added b i b' := by
  refine ⟨fun hadd => ?_, fun h => h.add_eq line⟩
  rcases added_or_refused b i line with ⟨b'', h⟩ | ⟨e, h⟩
  · cases hadd.symm.trans (h.add_eq line)
    exact h
  · cases hadd.symm.trans h.add_eq

theorem add_eq_error_iff : b.add i line = .error e ↔ Refused b i line e := by
  refine ⟨fun hadd => ?_, Refused.add_eq⟩
  rcases added_or_refused b i line with ⟨b', h⟩ | ⟨e', h⟩
  · cases hadd.symm.trans (h.add_eq line)
  · cases hadd.symm.trans h.add_eq
    exact h

theorem finish_eq_ok_iff {m : Module} : b.finish = .ok m ↔ b = ⟨m, none⟩ := by
  obtain ⟨built, current⟩ := b
  cases current <;> simp [finish]

end Add

end Builder

/-- **What every addition keeps holds of the module in the end.** -/
theorem build_invariant {settings : Settings} {is : List SourceInstruction} {ids : Numbering}
    {m : Module} (P : Builder → Prop) (h : build settings is = .ok m)
    (hids : Numbering.ofInstructions is = .ok ids)
    (hstart : P { built := ids.ids.foldl Module.reserve (Module.empty settings) })
    (hstep : ∀ i ∈ is, ∀ j b b', resolve ids i = .ok j → b.Added j b' → P b → P b') :
    P { built := m } := by
  obtain ⟨_, hids', h⟩ := bind_eq_ok_iff.1 h
  cases hids.symm.trans hids'
  obtain ⟨b, hfold, hfinish⟩ := bind_eq_ok_iff.1 h
  rw [← Builder.finish_eq_ok_iff.1 hfinish]
  refine foldlM_invariant P (fun b i b' hi hb htake => ?_) hstart hfold
  obtain ⟨j, hj, hadd⟩ := bind_eq_ok_iff.1 htake
  exact hstep i hi j b b' hj (Builder.add_eq_ok_iff.1 hadd) hb

end Assembly
end ShiftBarrier
