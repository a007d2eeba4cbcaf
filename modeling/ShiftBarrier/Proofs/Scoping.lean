import ShiftBarrier.Proofs.Failure
import ShiftBarrier.Proofs.Reading
import ShiftBarrier.Proofs.Renumbering
import ShiftBarrier.Proofs.Validation

/-!
# Scopes

The validator walks through a module with sets of ids that it fills as it goes.  What it finds can
be told without them, from the place of the instruction that uses an id.

* `Module.sites` lists the instructions of a module, each with the place where it stands.
* `Module.InScope` says which ids an instruction may use at its place.
* `inOrder_eq` turns the walk into a statement on places.
* `findings_of_parse` says that the validator reports the uses out of scope and the blocks that are
  left open, and that what it reports of a function takes no notice of what is in the others.
-/

set_option autoImplicit false

namespace ShiftBarrier

/-- The instruction has the id as its result. -/
def Instruction.Defines (i : Instruction) (id : Id) : Prop :=
  ∃ result ∈ i.result, id.number = result.number

instance (i : Instruction) (id : Id) : Decidable (i.Defines id) :=
  decidable_of_iff (i.result.any id.same = true) <| by
    cases hresult : i.result <;> simp [Instruction.Defines, hresult, Id.same_iff]

/-- Where an instruction stands, and behind how many others. -/
inductive Place
  | preamble
  | globals (earlier : Nat)
  | body (f : Function) (earlier : Nat)

/-- The block is empty, or its last instruction does not leave it. -/
def Block.IsOpen (b : Block) : Prop :=
  b.instructions = [] ∨ ∃ i ∈ b.instructions.getLast?, i.isTerminator = false

theorem Block.isOpen_iff {b : Block} : b.IsOpen ↔ b.isTerminated = false := by
  rw [IsOpen, isTerminated, ← List.getLast?_eq_none_iff]
  cases b.instructions.getLast? <;> simp

instance (b : Block) : Decidable b.IsOpen := decidable_of_iff _ Block.isOpen_iff.symm

/-! ## Sites -/

/-- The instructions of a function with their places: definition, parameters, blocks. -/
def Function.sites (f : Function) : List (Place × Instruction) :=
  f.instructions.zipIdx.map fun (i, k) => (.body f k, i)

namespace Module

/-- The instructions outside of functions with their places. -/
def outerSites (m : Module) : List (Place × Instruction) :=
  m.preamble.map (.preamble, ·) ++ m.globals.zipIdx.map fun (i, k) => (.globals k, i)

/-- The instructions of a module with their places, in module order. -/
def sites (m : Module) : List (Place × Instruction) :=
  m.outerSites ++ m.functions.flatMap Function.sites

/-! ## What is in scope

The rule is said by places: what stands before, what is shared, what a function defines at all.  It
does not mention the walk of the validator. -/

/-- What every global and every function may use. -/
def Shares (m : Module) (id : Id) : Prop :=
  (∃ i ∈ m.preamble, i.Defines id) ∨ ∃ f ∈ m.functions, id.number = f.id.number

instance (m : Module) (id : Id) : Decidable (m.Shares id) := inferInstanceAs (Decidable (_ ∨ _))

/-- **The scoping rule**: what an instruction may use at its place. -/
def InScope (m : Module) (user : Instruction) (id : Id) : Place → Prop
  | .preamble =>
    (∃ i ∈ m.instructions, i.Defines id) ∨ ∃ label ∈ m.labels, id.number = label.number
  | .globals k => m.Shares id ∨ ∃ i ∈ m.globals.take k, i.Defines id
  | .body f k =>
    m.Shares id ∨ (∃ i ∈ m.globals, i.Defines id) ∨
      (∃ label ∈ f.labels, id.number = label.number) ∨
      (∃ i ∈ f.instructions.take k, i.Defines id) ∨
      user.opcode = "OpPhi" ∧ ∃ i ∈ f.instructions, i.Defines id

instance (m : Module) (user : Instruction) (id : Id) :
    (place : Place) → Decidable (m.InScope user id place)
  | .preamble => inferInstanceAs (Decidable (_ ∨ _))
  | .globals _ => inferInstanceAs (Decidable (_ ∨ _))
  | .body _ _ => inferInstanceAs (Decidable (_ ∨ _ ∨ _ ∨ _ ∨ _))

/-- The uses of an instruction that are out of scope at its place, type first. -/
def undefinedAt (m : Module) : Place × Instruction → List Finding
  | (place, i) => (i.uses.filter fun id => ¬ m.InScope i id place).map (.notDefined · i)

/-- What is wrong with a function: its open blocks, then its uses out of scope. -/
def functionFindings (m : Module) (f : Function) : List Finding :=
  (f.blocks.filter fun b => b.IsOpen).map .notTerminated ++ f.sites.flatMap m.undefinedAt

end Module

/-! ## What functions do not see of each other

A function reports the same in any module that is alike outside of it. -/

/-- A finding without the serial numbers of the instructions it shows. -/
def Finding.content : Finding → Finding
  | .notTerminated b => .notTerminated b.content
  | .notDefined id user => .notDefined id user.content
  | .redefined id again => .redefined id again.content

/-- The modules are alike outside of functions, and have functions of the same ids. -/
structure Module.AlikeOutside (m m' : Module) : Prop where
  preamble : m'.preamble.map Instruction.content = m.preamble.map Instruction.content
  globals : m'.globals.map Instruction.content = m.globals.map Instruction.content
  functions : ∀ id, id ∈ m'.functions.map Function.id ↔ id ∈ m.functions.map Function.id

section Content

variable {m m' : Module} {f f' : Function} {is is' : List Instruction} {id : Id}

theorem exists_defines_congr (h : is'.map Instruction.content = is.map Instruction.content) :
    (∃ i ∈ is', i.Defines id) ↔ ∃ i ∈ is, i.Defines id := by
  have hmap : ∀ is : List Instruction,
      (∃ i ∈ is.map Instruction.content, i.Defines id) ↔ ∃ i ∈ is, i.Defines id :=
    fun is => by simp only [List.mem_map, exists_exists_and_eq_and]; rfl
  rw [← hmap, h, hmap]

theorem Module.AlikeOutside.shares_iff (h : AlikeOutside m m') : m'.Shares id ↔ m.Shares id := by
  have hids : ∀ m : Module, (∃ f ∈ m.functions, id.number = f.id.number) ↔
      ∃ key ∈ m.functions.map Function.id, id.number = key.number :=
    fun m => by simp only [List.mem_map, exists_exists_and_eq_and]
  rw [Shares, Shares, exists_defines_congr h.preamble, hids, hids]
  simp only [h.functions]

theorem Function.instructions_content (f : Function) :
    f.content.instructions = f.instructions.map Instruction.content := by
  simp only [instructions, content, List.map_cons, List.map_append, List.map_flatMap,
    List.flatMap_map]
  rfl

theorem Function.labels_content (f : Function) : f.content.labels = f.labels := by
  rw [labels, content, List.map_map]
  rfl

theorem Module.inScope_body_congr (h : AlikeOutside m m') (i : Instruction) (k : Nat) :
    m'.InScope i.content id (.body f.content k) ↔ m.InScope i id (.body f k) := by
  have htake : (f.content.instructions.take k).map Instruction.content
      = (f.instructions.take k).map Instruction.content := by
    rw [Function.instructions_content, ← List.map_take, List.map_map]
    rfl
  have hall : f.content.instructions.map Instruction.content
      = f.instructions.map Instruction.content := by
    rw [Function.instructions_content, List.map_map]
    rfl
  rw [InScope, InScope, h.shares_iff, exists_defines_congr h.globals, exists_defines_congr htake,
    exists_defines_congr hall, Function.labels_content]
  exact Iff.rfl

theorem Module.undefinedAt_content (h : AlikeOutside m m') (i : Instruction) (k : Nat) :
    m'.undefinedAt (.body f.content k, i.content)
      = (m.undefinedAt (.body f k, i)).map Finding.content := by
  rw [undefinedAt, undefinedAt, List.map_map]
  simp only [inScope_body_congr h]
  rfl

/-- What is wrong with a function depends on what is outside of it only. -/
theorem Module.functionFindings_content (h : AlikeOutside m m') (f : Function) :
    m'.functionFindings f.content = (m.functionFindings f).map Finding.content := by
  have hopen : ∀ b : Block, b.content.IsOpen ↔ b.IsOpen := by
    intro b
    rw [Block.isOpen_iff, Block.isOpen_iff, Block.isTerminated, Block.isTerminated, Block.content,
      List.getLast?_map, Option.any_map]
    rfl
  have hblocks : (f.content.blocks.filter fun b => b.IsOpen).map Finding.notTerminated
      = ((f.blocks.filter fun b => b.IsOpen).map Finding.notTerminated).map Finding.content := by
    rw [Function.content, List.filter_map, List.map_map, List.map_map]
    simp only [Function.comp_def, hopen]
    rfl
  have hsites : f.content.sites.flatMap m'.undefinedAt
      = (f.sites.flatMap m.undefinedAt).map Finding.content := by
    rw [Function.sites, Function.sites, Function.instructions_content, List.zipIdx_map,
      List.map_map, List.flatMap_map, List.flatMap_map, List.map_flatMap]
    exact List.flatMap_congr fun p _ => undefinedAt_content h p.1 p.2
  rw [functionFindings, functionFindings, List.map_append, hblocks, hsites]

theorem Module.AlikeOutside.refl (m : Module) : AlikeOutside m m := ⟨rfl, rfl, fun _ => Iff.rfl⟩

theorem Module.AlikeOutside.functionFindings (h : AlikeOutside m m')
    (hf : f'.content = f.content) :
    (m'.functionFindings f').map Finding.content
      = (m.functionFindings f).map Finding.content := by
  rw [← functionFindings_content (.refl m'), hf, functionFindings_content h]

end Content

namespace Validation

variable {m : Module} {is : List Instruction} {known later : List Id} {id : Id} {i : Instruction}

/-! ## The walk

The validator carries what is known along.  At every place that is what the places before define. -/

theorem isKnown_results : isKnown (results is) id = true ↔ ∃ i ∈ is, i.Defines id := by
  simp only [isKnown_iff, results, List.mem_filterMap, Instruction.Defines, Option.mem_def]
  constructor
  · rintro ⟨key, ⟨i, hi, hkey⟩, heq⟩
    exact ⟨i, hi, key, hkey, heq⟩
  · rintro ⟨i, hi, key, hkey, heq⟩
    exact ⟨key, ⟨i, hi, hkey⟩, heq⟩

theorem isKnown_map {α : Type} {xs : List α} {f : α → Id} :
    isKnown (xs.map f) id = true ↔ ∃ x ∈ xs, id.number = (f x).number := by
  simp only [isKnown_iff, List.mem_map, exists_exists_and_eq_and]

/-- What stands before a place of a list stays the same when the list goes on. -/
theorem take_append_of_mem_zipIdx {js : List Instruction} {p : Instruction × Nat}
    (hp : p ∈ is.zipIdx) : (is ++ js).take p.2 = is.take p.2 :=
  List.take_append_of_le_length (Nat.le_of_lt (List.snd_lt_of_mem_zipIdx hp))

/-- **The walk, place by place**: every instruction knows what those before it define. -/
theorem inOrder_eq (later known : List Id) (is : List Instruction) :
    inOrder later known is = is.zipIdx.flatMap fun p =>
      undefinedUses ((if p.1.opcode = "OpPhi" then later else [])
        ++ ((results (is.take p.2)).reverse ++ known)) p.1 := by
  induction is using List.reverseRecOn with
  | nil => rfl
  | append_singleton is i ih =>
    have hlast : inOrder later ((results is).reverse ++ known) [i]
        = undefinedUses ((if i.opcode = "OpPhi" then later else [])
            ++ ((results is).reverse ++ known)) i := by
      rw [inOrder, inOrder, List.append_nil]
      split <;> rfl
    rw [inOrder_append, ih, hlast, List.zipIdx_append, List.flatMap_append]
    congr 1
    · exact List.flatMap_congr fun p hp => by rw [take_append_of_mem_zipIdx hp]
    · simp

theorem undefinedUses_eq {place : Place}
    (h : ∀ id ∈ i.uses, isKnown known id = true ↔ m.InScope i id place) :
    undefinedUses known i = m.undefinedAt (place, i) := by
  rw [undefinedUses, Module.undefinedAt]
  refine congrArg (List.map _) (List.filter_congr fun id hid => ?_)
  rw [Bool.eq_iff_iff, decide_eq_true_iff, ← h id hid, Bool.not_eq_true, Bool.not_eq_true']

theorem isKnown_shared (hm : m.WellFormed) : isKnown (shared m) id = true ↔ m.Shares id := by
  have hvalid : (results m.preamble).filter Id.isValid = results m.preamble := by
    refine List.filter_eq_self.2 fun result hresult => ?_
    obtain ⟨i, hi, heq⟩ := List.mem_filterMap.1 hresult
    have hpos := (hm.below i (List.mem_append_left _ (List.mem_append_left _ hi)) result
      (List.mem_append_left _ (by simp [heq]))).1
    simp [Id.isValid, Nat.pos_iff_ne_zero.1 hpos]
  rw [shared, hvalid, isKnown_append, Bool.or_eq_true, isKnown_results, isKnown_map, Module.Shares]

theorem inPreamble_eq (m : Module) :
    inPreamble m = (m.preamble.map (.preamble, ·)).flatMap m.undefinedAt := by
  rw [inPreamble, List.flatMap_map]
  refine List.flatMap_congr fun i _ => undefinedUses_eq fun id _ => ?_
  rw [isKnown_append, Bool.or_eq_true, isKnown_results, isKnown_iff, Module.InScope]

theorem inGlobals_eq (hm : m.WellFormed) :
    inGlobals m = (m.globals.zipIdx.map fun (i, k) => (.globals k, i)).flatMap m.undefinedAt := by
  rw [inGlobals, inOrder_eq, List.flatMap_map]
  refine List.flatMap_congr fun p _ => undefinedUses_eq fun id _ => ?_
  rw [ite_self, List.nil_append, isKnown_append, isKnown_reverse, Bool.or_eq_true, isKnown_results,
    isKnown_shared hm, or_comm, Module.InScope]

theorem inFunction_eq (hm : m.WellFormed) (f : Function) :
    inFunction (results m.globals ++ shared m) f = m.functionFindings f := by
  have hopen : unterminated f = (f.blocks.filter fun b => b.IsOpen).map .notTerminated := by
    refine congrArg (List.map _) (List.filter_congr fun b _ => ?_)
    rw [Bool.eq_iff_iff, decide_eq_true_iff, Block.isOpen_iff, Bool.not_eq_true']
  rw [inFunction, hopen, inOrder_eq, Module.functionFindings, Function.sites, List.flatMap_map]
  congr 1
  refine List.flatMap_congr fun p _ => undefinedUses_eq fun id _ => ?_
  have hlabels : isKnown f.labels id = true ↔ ∃ label ∈ f.labels, id.number = label.number :=
    isKnown_iff
  have hlater : isKnown (if p.1.opcode = "OpPhi" then results f.instructions else []) id = true ↔
      p.1.opcode = "OpPhi" ∧ ∃ i ∈ f.instructions, i.Defines id := by
    by_cases hphi : p.1.opcode = "OpPhi"
    · rw [if_pos hphi, isKnown_results, and_iff_right hphi]
    · simp [hphi, isKnown_iff]
  simp only [isKnown_append, isKnown_reverse, Bool.or_eq_true, isKnown_results, isKnown_shared hm,
    hlabels, hlater, Module.InScope, or_comm, or_left_comm, or_assoc]

/-! ## What is found -/

/-- Findings of one kind. -/
theorem filter_kind {fs : List Finding} {kind : FindingKind}
    (h : ∀ finding ∈ fs, finding.key.1 = kind) (wanted : FindingKind) :
    fs.filter (fun finding => finding.key.1 = wanted) = if kind = wanted then fs else [] := by
  split
  · next heq =>
    exact List.filter_eq_self.2 fun finding hfinding => by simp [h finding hfinding, heq]
  · next hne =>
    exact List.filter_eq_nil_iff.2 fun finding hfinding => by simp [h finding hfinding, hne]

theorem kind_redefined {finding : Finding} (h : finding ∈ redefined m) :
    finding.key.1 = .redefined := by
  obtain ⟨serial, -, heq⟩ := List.mem_filterMap.1 h
  simp only [Option.bind_eq_bind, Option.pure_def, Option.bind_eq_some_iff,
    Option.some.injEq] at heq
  obtain ⟨i, -, result, -, rfl⟩ := heq
  rfl

theorem kind_undefinedAt {site : Place × Instruction} {finding : Finding}
    (h : finding ∈ m.undefinedAt site) : finding.key.1 = .notDefined := by
  obtain ⟨id, -, rfl⟩ := List.mem_map.1 h
  rfl

theorem kind_flatMap_undefinedAt {sites : List (Place × Instruction)} :
    ∀ finding ∈ sites.flatMap m.undefinedAt, finding.key.1 = .notDefined := by
  intro finding h
  obtain ⟨site, -, hfinding⟩ := List.mem_flatMap.1 h
  exact kind_undefinedAt hfinding

theorem kind_notTerminated {bs : List Block} :
    ∀ finding ∈ bs.map Finding.notTerminated, finding.key.1 = .notTerminated := by
  intro finding h
  obtain ⟨b, -, rfl⟩ := List.mem_map.1 h
  rfl

theorem findings_eq (hm : m.WellFormed) :
    findings m = redefined m ++ m.outerSites.flatMap m.undefinedAt
      ++ m.functions.flatMap m.functionFindings := by
  rw [findings, inPreamble_eq, inGlobals_eq hm, Module.outerSites, List.flatMap_append,
    List.append_assoc (redefined m)]
  congr 1
  exact List.flatMap_congr fun f _ => inFunction_eq hm f

/-- **What the validator finds**: the redefinitions, then the uses out of scope outside of
functions, then function by function the open blocks and the uses out of scope.  So the uses out of
scope are reported in module order, once each, and every open block is reported once.  What is wrong
with a function does not depend on the bodies and the order of the others. -/
theorem findings_of_parse {settings : Settings} {source : String}
    (hparse : Assembly.parse settings source = .ok m) :
    findings m = redefined m ++ m.outerSites.flatMap m.undefinedAt
        ++ m.functions.flatMap m.functionFindings ∧
      (findings m).filter (fun finding => finding.key.1 = .notDefined)
        = m.sites.flatMap m.undefinedAt ∧
      (findings m).filter (fun finding => finding.key.1 = .notTerminated)
        = (m.blocks.filter fun b => b.IsOpen).map .notTerminated ∧
      ∀ (m' : Module) (f f' : Function), m.AlikeOutside m' → f'.content = f.content →
        (m'.functionFindings f').map Finding.content
          = (m.functionFindings f).map Finding.content := by
  have heq := findings_eq (Assembly.wellFormed_of_parse hparse)
  refine ⟨heq, ?_, ?_, fun m' f f' halike hf => halike.functionFindings hf⟩
  · rw [heq, List.filter_append, List.filter_append, filter_kind fun _ => kind_redefined,
      filter_kind kind_flatMap_undefinedAt, List.filter_flatMap, Module.sites, List.flatMap_append,
      List.flatMap_assoc]
    congr 1
    refine List.flatMap_congr fun f _ => ?_
    rw [Module.functionFindings, List.filter_append, filter_kind kind_notTerminated,
      filter_kind kind_flatMap_undefinedAt]
    rfl
  · rw [heq, List.filter_append, List.filter_append, filter_kind fun _ => kind_redefined,
      filter_kind kind_flatMap_undefinedAt, List.filter_flatMap, Module.blocks, List.filter_flatMap,
      List.map_flatMap]
    refine List.flatMap_congr fun f _ => ?_
    rw [Module.functionFindings, List.filter_append, filter_kind kind_notTerminated,
      filter_kind kind_flatMap_undefinedAt]
    exact List.append_nil _

/-! ### An example -/

/-- A function whose only block is left open.  It refers forward once with an `OpPhi`, and uses `%7`
which nobody defines. -/
def strayingText : String :=
  "%1 = OpTypeVoid\n%2 = OpTypeFunction %1\n%3 = OpFunction %1 None %2\n%4 = OpLabel\n" ++
  "%5 = OpPhi %1 %6 %4\n%6 = OpCopyObject %1 %7\nOpFunctionEnd\n"

/-- The copy of that text. -/
def strayingCopy : Instruction :=
  { opcode := "OpCopyObject", type := some ⟨1, none⟩, result := some ⟨6, none⟩,
    operands := [.id ⟨7, none⟩], serial := 4 }

/-- The block of that text, which falls off its end. -/
def strayingBlock : Block :=
  { label := ⟨4, none⟩
    instructions :=
      [{ opcode := "OpPhi", type := some ⟨1, none⟩, result := some ⟨5, none⟩,
         operands := [.id ⟨6, none⟩, .id ⟨4, none⟩], serial := 3 },
       strayingCopy] }

/-- The module of that text. -/
def straying : Module :=
  { globals :=
      [{ opcode := "OpTypeVoid", result := some ⟨1, none⟩, serial := 0 },
       { opcode := "OpTypeFunction", result := some ⟨2, none⟩, operands := [.id ⟨1, none⟩],
         serial := 1 }]
    functions :=
      [{ id := ⟨3, none⟩
         definition :=
           { opcode := "OpFunction", type := some ⟨1, none⟩, result := some ⟨3, none⟩,
             operands := [.enumerant "None", .id ⟨2, none⟩], serial := 2 }
         blocks := [strayingBlock] }]
    bound := 8
    nextSerial := 5 }

theorem parse_straying : Assembly.parse {} strayingText = .ok straying :=
  toOption_eq_some_iff.1 (by decide +kernel)

theorem findings_of_parse_sample :
    Assembly.parse {} strayingText = .ok straying ∧
      (findings straying).filter (fun finding => finding.key.1 = .notDefined)
        = [.notDefined ⟨7, none⟩ strayingCopy] ∧
      (findings straying).filter (fun finding => finding.key.1 = .notTerminated)
        = [.notTerminated strayingBlock] := by
  obtain ⟨-, hundefined, hopen, -⟩ := findings_of_parse parse_straying
  refine ⟨parse_straying, ?_, ?_⟩
  · rw [hundefined]
    decide
  · rw [hopen]
    decide

end Validation
end ShiftBarrier
