import ShiftBarrier.Proofs.Cache
import ShiftBarrier.Proofs.Tables
import ShiftBarrier.Proofs.Writing

/-!
# What the analyses do not diagnose

Much of what may be wrong with a declaration is found when it is read, and diagnosed.  What is not
are the defects of instructions: operands or results that are not there, numbers that no type is
made of, and integers that are too long for a message.

* `Instruction.Defect` lists the defects, each with the error that comes of it.
* `Blamed` says of an error that it is diagnosed or comes of a defect of an instruction.
* `Module.blamed_of_types` and `Module.blamed_of_constants` say so of all errors of the analyses.
-/

set_option autoImplicit false

namespace ShiftBarrier

/-! ## Defects

Some faults of a module are not diagnosed: an instruction lacks an operand or a result, a width is
out of range, or a number in a message is too long.  Each kind of defect comes with the error that
it leads to. -/

/-- How many operands are read of an instruction, whether or not they are there. -/
def Opcode.arity : String → Nat
  | "OpTypeInt" | "OpTypeVector" | "OpShiftLeftLogical" => 2
  | "OpTypeFloat" | "OpConstant" => 1
  | _ => 0

/-- What may be wrong with an instruction without being diagnosed, and the error that comes of
it. -/
inductive Instruction.Defect (i : Instruction) : Error → Prop
  | missingOperand (h : i.operands.length < Opcode.arity i.opcode) : Defect i .outOfRange
  | missingResult (h : i.isType = true ∨ i.isConstant = true) (hresult : i.result = none) :
      Defect i (.violation .declarationWithoutResult)
  | width {width : Int} {spelling : Option String} (hopcode : i.opcode = "OpTypeInt")
      (hwidth : i.operands[0]? = some (.literal (.int width) spelling)) (hle : width ≤ 0) :
      Defect i (.violation (.integerWidth width))
  | count {count : Int} {spelling : Option String} (hopcode : i.opcode = "OpTypeVector")
      (hcount : i.operands[1]? = some (.literal (.int count) spelling)) (hlt : count < 2) :
      Defect i (.violation (.vectorCount count))
  | wide {width : Int} {spelling : Option String} (hopcode : i.opcode = "OpTypeInt")
      (hwidth : i.operands[0]? = some (.literal (.int width) spelling))
      (hgt : (Integer.maxBits : Int) < width) : Defect i (.tooLong width.toNat)
  | incomplete {amount : Id} {text : String} (hopcode : i.opcode = "OpShiftLeftLogical")
      (hamount : i.operands[1]?.bind Operand.id? = some amount)
      (hmissing : i.type = none ∨ i.result = none) (htext : i.text = .ok text) :
      Defect i (.violation (.incompleteCandidate text))
  | overlong (h : i.Overlong) : Defect i (.numeral .writing)

/-- An error that is diagnosed, or that comes of a defect of one of the instructions. -/
inductive Blamed (is : List Instruction) : Error → Prop
  | diagnosed (fault : ModuleFault) : Blamed is (.moduleFault fault)
  | defect {i : Instruction} {e : Error} (hi : i ∈ is) (h : i.Defect e) : Blamed is e

theorem Blamed.mono {is js : List Instruction} {e : Error} (h : Blamed is e) (hsub : is ⊆ js) :
    Blamed js e := by
  cases h with
  | diagnosed fault => exact .diagnosed fault
  | defect hi h => exact .defect (hsub hi) h

theorem Instruction.Defect.blamed {i : Instruction} {e : Error} (h : i.Defect e) : Blamed [i] e :=
  .defect (List.mem_singleton_self i) h

/-- A message that shows a line can only be given if the line can be written. -/
theorem Instruction.blamed_of_text {α : Type} {i : Instruction} {f : String → Except Error α}
    {e : Error} (hf : ∀ text, i.text = .ok text → f text = .error e → Blamed [i] e)
    (h : ((liftM i.text : Except Error String) >>= f) = .error e) : Blamed [i] e := by
  obtain h | ⟨text, htext, h⟩ := bind_eq_error_iff.1 h
  · obtain ⟨fault, hfault, rfl⟩ := mapError_eq_error_iff.1 h
    obtain ⟨rfl, hlong⟩ := Instruction.text_eq_error hfault
    exact (Instruction.Defect.overlong hlong).blamed
  · exact hf text (mapError_eq_ok_iff.1 htext) h

theorem Instruction.blamed_of_operand {α : Type} {i : Instruction} {operand : Operand}
    (hoperand : operand ∈ i.operands) {f : String → Except Error α} {e : Error}
    (hf : ∀ word, f word = .error e → Blamed [i] e)
    (h : ((liftM operand.text : Except Error String) >>= f) = .error e) : Blamed [i] e := by
  obtain h | ⟨word, -, h⟩ := bind_eq_error_iff.1 h
  · obtain ⟨fault, hfault, rfl⟩ := mapError_eq_error_iff.1 h
    obtain ⟨rfl, n, rfl, hn⟩ := Operand.text_eq_error hfault
    exact (Instruction.Defect.overlong ⟨n, none, hoperand, hn⟩).blamed
  · exact hf word h

/-! ## Reading types -/

namespace TypeTable

variable {t : TypeTable} {i : Instruction} {e : Error}

theorem blamed_of_literal {index : Nat} (harity : index < Opcode.arity i.opcode)
    (h : literal i index = .error e) : Blamed [i] e := by
  rw [literal.eq_def] at h
  split at h
  · next hnone =>
    cases h
    rw [List.getElem?_eq_none_iff] at hnone
    exact (Instruction.Defect.missingOperand (Nat.lt_of_le_of_lt hnone harity)).blamed
  · cases h
  · refine Instruction.blamed_of_text (fun text _ h => ?_) h
    cases h
    exact .diagnosed _

theorem blamed_of_element (harity : 0 < Opcode.arity i.opcode) (h : t.element i = .error e) :
    Blamed [i] e := by
  rw [element] at h
  split at h
  · next hnone =>
    cases h
    rw [List.getElem?_eq_none_iff] at hnone
    exact (Instruction.Defect.missingOperand (Nat.lt_of_le_of_lt hnone harity)).blamed
  · next operand hoperand =>
    have hmem : operand ∈ i.operands := List.mem_of_getElem? hoperand
    have hdiagnosed : ∀ {α : Type}, ((do
        throw (.moduleFault (.nonScalarElement (← operand.text) (← i.text)))) : Except Error α)
          = .error e → Blamed [i] e := fun h =>
      Instruction.blamed_of_operand hmem (fun word h =>
        Instruction.blamed_of_text (fun text _ h => by cases h; exact .diagnosed _) h) h
    split at h
    · split at h
      · cases h
      · exact hdiagnosed h
    · exact hdiagnosed h

theorem exists_literal {index : Nat} {n : Int} (h : literal i index = .ok n) :
    ∃ spelling, i.operands[index]? = some (.literal (.int n) spelling) := by
  rw [literal.eq_def] at h
  split at h
  · cases h
  · next spelling hoperand =>
    cases h
    exact ⟨spelling, hoperand⟩
  · obtain ⟨text, -, ⟨⟩⟩ := bind_eq_ok_iff.1 h

theorem blamed_of_declared (h : t.declared i = .error e) : Blamed [i] e := by
  rw [declared] at h
  split at h
  · next hopcode =>
    have harity : Opcode.arity i.opcode = 2 := by rw [hopcode]; rfl
    obtain h | ⟨width, hwidth, h⟩ := bind_eq_error_iff.1 h
    · exact blamed_of_literal (by omega) h
    obtain h | ⟨signed, -, h⟩ := bind_eq_error_iff.1 h
    · exact blamed_of_literal (by omega) h
    · rw [Ty.makeInt] at h
      split at h
      · cases h
      · next hle =>
        cases h
        obtain ⟨spelling, hoperand⟩ := exists_literal hwidth
        exact (Instruction.Defect.width hopcode hoperand (Int.not_lt.1 hle)).blamed
  · next hopcode =>
    have harity : Opcode.arity i.opcode = 1 := by rw [hopcode]; rfl
    obtain h | ⟨width, -, ⟨⟩⟩ := bind_eq_error_iff.1 h
    exact blamed_of_literal (by omega) h
  · cases h
  · cases h
  · next hopcode =>
    have harity : Opcode.arity i.opcode = 2 := by rw [hopcode]; rfl
    obtain h | ⟨element, -, h⟩ := bind_eq_error_iff.1 h
    · exact blamed_of_element (by omega) h
    obtain h | ⟨count, hcount, h⟩ := bind_eq_error_iff.1 h
    · exact blamed_of_literal (by omega) h
    · rw [Ty.makeVector] at h
      split at h
      · cases h
      · next hlt =>
        cases h
        obtain ⟨spelling, hoperand⟩ := exists_literal hcount
        exact (Instruction.Defect.count hopcode hoperand (Int.not_le.1 hlt)).blamed
  · cases h

theorem blamed_of_read (h : t.read i = .error e) : Blamed [i] e := by
  rw [read] at h
  split at h
  · next htype =>
    split at h
    · next hresult =>
      cases h
      exact (Instruction.Defect.missingResult (.inl htype) hresult).blamed
    · obtain h | ⟨type, -, ⟨⟩⟩ := bind_eq_error_iff.1 h
      exact blamed_of_declared h
  · cases h

theorem blamed_of_readAll {is : List Instruction} (h : (t.readAll is).1 = .error e) :
    Blamed is e := by
  induction is generalizing t with
  | nil => cases h
  | cons i is ih =>
    rw [readAll] at h
    cases hread : t.read i with
    | ok t' =>
      rw [hread] at h
      exact (ih h).mono (List.subset_cons_self _ _)
    | error e' =>
      rw [hread] at h
      cases h
      exact (blamed_of_read hread).mono (by simp)

end TypeTable

/-! ### Where types come from -/

/-- The width and the count of a type are literals of its declaration. -/
inductive Ty.DeclaredBy (is : List Instruction) : Ty → Prop
  | int {i : Instruction} {width : Int} {spelling : Option String} {signed : Bool} (hi : i ∈ is)
      (hopcode : i.opcode = "OpTypeInt")
      (hwidth : i.operands[0]? = some (.literal (.int width) spelling)) (hpos : 0 < width) :
      DeclaredBy is (.int width.toNat signed)
  | float {i : Instruction} {width : Int} {spelling : Option String} (hi : i ∈ is)
      (hwidth : i.operands[0]? = some (.literal (.int width) spelling)) :
      DeclaredBy is (.float width)
  | bool : DeclaredBy is .bool
  | void : DeclaredBy is .void
  | vector {i : Instruction} {element : Ty} {count : Int} {spelling : Option String}
      (helement : DeclaredBy is element) (hi : i ∈ is)
      (hcount : i.operands[1]? = some (.literal (.int count) spelling)) (hle : 2 ≤ count) :
      DeclaredBy is (.vector element count.toNat)
  | other {opcode : String} {operands : List Operand} : DeclaredBy is (.other opcode operands)

theorem Ty.DeclaredBy.mono {is js : List Instruction} {type : Ty} (h : type.DeclaredBy is)
    (hsub : is ⊆ js) : type.DeclaredBy js := by
  induction h with
  | int hi hopcode hwidth hpos => exact .int (hsub hi) hopcode hwidth hpos
  | float hi hwidth => exact .float (hsub hi) hwidth
  | bool => exact .bool
  | void => exact .void
  | vector _ hi hcount hle ih => exact .vector ih (hsub hi) hcount hle
  | other => exact .other

/-- A width other than that of a word is shown. -/
theorem Ty.blamed_of_width {is : List Instruction} {i : Instruction} (hi : i ∈ is) {width : Int}
    {index : Nat} {spelling : Option String}
    (hwidth : i.operands[index]? = some (.literal (.int width) spelling)) {f : String → String}
    {fault : Decimal.Fault}
    (h : (if width = 32 then .ok "" else Decimal.ofInt width).map f = .error fault) :
    Blamed is (.numeral fault) := by
  rw [map_eq_error_iff] at h
  split at h
  · cases h
  · obtain ⟨rfl, hlong⟩ := Decimal.ofInt_eq_error h
    exact .defect hi (.overlong ⟨width, spelling, List.mem_of_getElem? hwidth, hlong⟩)

/-- The name of a type shows its width and its count. -/
theorem Ty.DeclaredBy.blamed_of_name {is : List Instruction} {type : Ty} (h : type.DeclaredBy is)
    {fault : Decimal.Fault} (hname : type.name = .error fault) : Blamed is (.numeral fault) := by
  induction h with
  | @int i width spelling signed hi _ hwidth hpos =>
    have hcast : (width.toNat : Int) = width := Int.toNat_of_nonneg (Int.le_of_lt hpos)
    refine Ty.blamed_of_width hi hwidth (f := ((if signed then "int" else "uint") ++ ·)) ?_
    rw [← hcast]
    exact hname
  | float hi hwidth => exact Ty.blamed_of_width hi hwidth hname
  | bool => cases hname
  | void => cases hname
  | @vector i element count spelling _ hi hcount hle ih =>
    obtain h | ⟨text, -, h⟩ := bind_eq_error_iff.1 hname
    · obtain ⟨rfl, hlong⟩ := Decimal.ofNat_eq_error h
      have hcast : count.natAbs = count.toNat := by omega
      exact .defect hi (.overlong ⟨count, spelling, List.mem_of_getElem? hcount, hcast ▸ hlong⟩)
    · obtain h | ⟨name, -, ⟨⟩⟩ := bind_eq_error_iff.1 h
      exact ih h
  | other => cases hname

namespace TypeTable

variable {t t' : TypeTable} {i : Instruction}

theorem declaredBy_of_declared {is : List Instruction}
    (ht : ∀ entry ∈ t.entries, entry.2.DeclaredBy is) {type : Ty} (h : t.declared i = .ok type) :
    type.DeclaredBy (i :: is) := by
  rw [declared] at h
  split at h
  · next hopcode =>
    simp only [bind_eq_ok_iff] at h
    obtain ⟨width, hwidth, signed, -, h⟩ := h
    rw [Ty.makeInt] at h
    split at h
    · next hpos =>
      cases h
      obtain ⟨spelling, hoperand⟩ := exists_literal hwidth
      exact .int List.mem_cons_self hopcode hoperand hpos
    · cases h
  · obtain ⟨width, hwidth, ⟨⟩⟩ := bind_eq_ok_iff.1 h
    obtain ⟨spelling, hoperand⟩ := exists_literal hwidth
    exact .float List.mem_cons_self hoperand
  · cases h
    exact .bool
  · cases h
    exact .void
  · simp only [bind_eq_ok_iff] at h
    obtain ⟨element, helement, count, hcount, h⟩ := h
    rw [Ty.makeVector] at h
    split at h
    · next hle =>
      cases h
      obtain ⟨-, key, hmem⟩ := element_spec helement
      obtain ⟨spelling, hoperand⟩ := exists_literal hcount
      exact .vector ((ht _ hmem).mono (List.subset_cons_self _ _)) List.mem_cons_self hoperand hle
    · cases h
  · cases h
    exact .other

theorem declaredBy_readAll {is js : List Instruction}
    (ht : ∀ entry ∈ t.entries, entry.2.DeclaredBy js) (hsub : is ⊆ js) :
    ∀ entry ∈ (t.readAll is).2.entries, entry.2.DeclaredBy js := by
  induction is generalizing t with
  | nil => exact ht
  | cons i is ih =>
    obtain ⟨hi, his⟩ := List.cons_subset.1 hsub
    rw [readAll]
    cases hread : t.read i with
    | error e => exact ht
    | ok t' =>
      refine ih ?_ his
      rcases read_eq_ok_iff.1 hread with ⟨-, rfl⟩ | ⟨id, type, -, -, htype, rfl⟩
      · exact ht
      · refine List.forall_mem_append.2 ⟨ht, List.forall_mem_singleton.2 ?_⟩
        exact (declaredBy_of_declared ht htype).mono (List.cons_subset.2 ⟨hi, List.Subset.refl _⟩)

theorem declaredBy_analyze (m : Module) :
    ∀ entry ∈ m.declaredTypes.entries, entry.2.DeclaredBy m.globals :=
  declaredBy_readAll (List.forall_mem_nil _) (List.Subset.refl _)

end TypeTable

/-! ## Reading constants -/

/-- A message that shows the name of a type can only be given if the name can be written. -/
theorem Ty.DeclaredBy.blamed_of_message {α : Type} {is : List Instruction} {type : Ty}
    (h : type.DeclaredBy is) {f : String → Except Error α} {e : Error}
    (hf : ∀ name, f name = .error e → Blamed is e)
    (herror : ((liftM type.name : Except Error String) >>= f) = .error e) : Blamed is e := by
  obtain herror | ⟨name, -, herror⟩ := bind_eq_error_iff.1 herror
  · obtain ⟨fault, hfault, rfl⟩ := mapError_eq_error_iff.1 herror
    exact h.blamed_of_name hfault
  · exact hf name herror

/-- A literal is masked to the width of its type, of which the power of two may be too long. -/
theorem Ty.DeclaredBy.blamed_of_ofLiteral {is : List Instruction} {type : Ty}
    (h : type.DeclaredBy is) {value : Number} {e : Error}
    (herror : Constant.ofLiteral type value = .error e) : Blamed is e := by
  rw [Constant.ofLiteral.eq_def] at herror
  split at herror
  · next w signed n =>
    cases h with
    | @int i width spelling _ hi hopcode hwidth hpos =>
      obtain herror | ⟨-, -, ⟨⟩⟩ := bind_eq_error_iff.1 herror
      obtain ⟨hgt, rfl⟩ := Integer.checkBits_eq_error_iff.1 herror
      exact .defect hi (.wide hopcode hwidth (Int.lt_toNat.1 hgt))
  · obtain herror | ⟨text, -, herror⟩ := bind_eq_error_iff.1 herror
    · cases herror
    · refine h.blamed_of_message (fun name herror => ?_) herror
      cases herror
      exact .diagnosed _
  · cases herror

namespace ConstantTable

variable {types : TypeTable} {t : ConstantTable} {i : Instruction} {is js : List Instruction}
  {e : Error}

theorem blamed_of_components (h : t.components i = .error e) : Blamed [i] e := by
  obtain ⟨before, operand, after, hsplit, -, hoperand⟩ := mapM_eq_error_iff.1 h
  have hmem : operand ∈ i.operands := hsplit ▸ List.mem_append_right _ List.mem_cons_self
  have hdiagnosed : ∀ {α : Type}, ((do
      throw (.moduleFault (.nonConstantComponent (← operand.text) (← i.text)))) : Except Error α)
        = .error e → Blamed [i] e := fun h =>
    Instruction.blamed_of_operand hmem (fun word h =>
      Instruction.blamed_of_text (fun text _ h => by cases h; exact .diagnosed _) h) h
  split at hoperand
  · split at hoperand
    · cases hoperand
    · exact hdiagnosed hoperand
  · exact hdiagnosed hoperand

theorem blamed_of_declared {type : Ty} (htype : type.DeclaredBy is)
    (h : t.declared i type = .error e) : Blamed (i :: is) e := by
  have hone : [i] ⊆ i :: is := by simp
  have hmessage : (do throw (.moduleFault (.booleanOfOtherType (← type.name) (← i.text))) :
      Except Error Constant) = .error e → Blamed (i :: is) e := fun h =>
    (htype.mono (List.subset_cons_self i is)).blamed_of_message (fun name h =>
      (Instruction.blamed_of_text (fun text _ h => by cases h; exact .diagnosed _) h).mono hone) h
  rw [declared.eq_def] at h
  split at h
  · next hopcode =>
    have harity : Opcode.arity i.opcode = 1 := by rw [hopcode]; rfl
    split at h
    · next hnone =>
      cases h
      rw [List.getElem?_eq_none_iff] at hnone
      exact .defect List.mem_cons_self (.missingOperand (by omega))
    · exact (htype.blamed_of_ofLiteral h).mono (List.subset_cons_self _ _)
    · refine (Instruction.blamed_of_text (fun text _ h => ?_) h).mono hone
      cases h
      exact .diagnosed _
  · split at h
    · cases h
    · exact hmessage h
  · split at h
    · cases h
    · exact hmessage h
  · obtain h | ⟨components, -, ⟨⟩⟩ := bind_eq_error_iff.1 h
    exact (blamed_of_components h).mono hone
  · cases h

theorem blamed_of_read (htypes : ∀ entry ∈ types.entries, entry.2.DeclaredBy is)
    (h : t.read types i = .error e) : Blamed (i :: is) e := by
  have hone : [i] ⊆ i :: is := by simp
  rw [read] at h
  split at h
  · next hconstant =>
    split at h
    · next hresult =>
      cases h
      exact .defect List.mem_cons_self (.missingResult (.inr hconstant) hresult)
    · split at h
      · refine (Instruction.blamed_of_text (fun text _ h => ?_) h).mono hone
        cases h
        exact .diagnosed _
      · next type htype =>
        obtain h | ⟨c, -, ⟨⟩⟩ := bind_eq_error_iff.1 h
        obtain ⟨id, -, hid⟩ := Option.bind_eq_some_iff.1 htype
        obtain ⟨key, -, hmem⟩ := TypeTable.mem_of_type? hid
        exact blamed_of_declared (htypes _ hmem) h
  · cases h

theorem blamed_of_readAll (htypes : ∀ entry ∈ types.entries, entry.2.DeclaredBy is) (hsub : js ⊆ is)
    (h : (t.readAll types js).1 = .error e) : Blamed is e := by
  induction js generalizing t with
  | nil => cases h
  | cons j js ih =>
    obtain ⟨hj, hjs⟩ := List.cons_subset.1 hsub
    rw [readAll] at h
    cases hread : t.read types j with
    | ok t' =>
      rw [hread] at h
      exact ih hjs h
    | error e' =>
      rw [hread] at h
      cases h
      exact (blamed_of_read htypes hread).mono (List.cons_subset.2 ⟨hj, List.Subset.refl _⟩)

end ConstantTable

/-! ## Reading modules -/

namespace Module

variable {m : Module} {e : Error}

theorem blamed_of_types (h : (TypeTable.analyze m).1 = .error e) : Blamed m.instructions e :=
  (TypeTable.blamed_of_readAll h).mono fun _ hi =>
    List.mem_append_left _ (List.mem_append_right _ hi)

theorem blamed_of_constants (h : (ConstantTable.analyze m.declaredTypes m).1 = .error e) :
    Blamed m.instructions e :=
  (ConstantTable.blamed_of_readAll (TypeTable.declaredBy_analyze m) (List.Subset.refl _) h).mono
    fun _ hi => List.mem_append_left _ (List.mem_append_right _ hi)

end Module

end ShiftBarrier
