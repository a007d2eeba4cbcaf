import ShiftBarrier.Proofs.Additions
import ShiftBarrier.Proofs.Barrier.Listing
import ShiftBarrier.Proofs.Calls
import ShiftBarrier.Proofs.Equivariance
import ShiftBarrier.Proofs.Listing.Extension

/-!
# Constants that are read again

A constant that is declared on demand is written with the rest of the module, and is meant to be
found again when the listing is read.

* `Module.SpelledAlike` says which ids of a module and of its listing belong together.
* `Registry.Rereads` are the constants whose declarations can be written and read again.
* `TypeRegistry.Legible` is the invariant of a module while types are declared in it.
* `Registry.constantId_reread` is the result: the constant is there, bit for bit.
* `Registry.infinities_lost`: infinities are written as words.
-/

set_option autoImplicit false

namespace ShiftBarrier

open Mirrored (extended placed)

/-! ## What is written and read again

The declaration of a constant is compared with what its line is read as.  They differ in the
spelling of a floating-point number, which the line has and the declaration has not. -/

/-- The renumbering takes every id of a module to the only one that is spelled like it in the
other. -/
def Module.SpelledAlike (m m' : Module) (ρ : Equiv.Perm Nat) : Prop :=
  ∀ id ∈ m.mentions, id.renumber ρ ∈ m'.mentions ∧
    ∀ id' ∈ m'.mentions, id'.text = id.text ↔ id' = id.renumber ρ

/-- The types that can be declared, with no number that is too long to be written.  Those that are
not interpreted never are. -/
def Ty.Writable : Ty → Prop
  | .int w _ => 0 < w ∧ w < 10 ^ Decimal.maxDigits
  | .float w => w.natAbs < 10 ^ Decimal.maxDigits
  | .vector element n =>
    element.isScalar = true ∧ element.Writable ∧ 2 ≤ n ∧ n < 10 ^ Decimal.maxDigits
  | .bool | .void | .other _ _ => True

/-- The number that a scalar constant is. -/
def Constant.number? : Constant → Option Number
  | .scalar _ v => some v
  | _ => none

/-- A type is declared, or can be. -/
def TypeTable.Offers (t : TypeTable) (type : Ty) : Prop :=
  (t.id? type).isSome = true ∨ type.Writable

/-- The constants whose declarations can be written and read again.  Infinities and NaNs are not
among them. -/
inductive Registry.Rereads (r : Registry) : Constant → Prop
  | integer {w : Nat} {s : Bool} {n : Int} (hpos : 0 < w) (hw : w ≤ Integer.maxBits) (h0 : 0 ≤ n)
      (hn : n < 2 ^ w) (hdigits : n.natAbs < 10 ^ Decimal.maxDigits) :
      Rereads r (.scalar (.int w s) (.int n))
  | float {w : Int} {x : Binary64} (htype : r.types.Offers (.float w))
      (hx : x.exponentField ≠ 2047) : Rereads r (.scalar (.float w) (.float x))
  | bool {b : Bool} : Rereads r (.bool .bool b)
  /-- The components are named as they were declared. -/
  | composite {type : Ty} {ids : List Id} (htype : r.types.Offers type)
      (hids : ∀ id ∈ ids, id ∈ r.constants.entries.map Prod.fst) : Rereads r (.composite type ids)
  | null {type : Ty} (htype : r.types.Offers type) : Rereads r (.null type)

namespace Constant

/-- The operands of a declaration as they are read: a floating-point number has a spelling then. -/
def respelled : Constant → List Operand
  | .scalar _ (.float x) => [.literal (.float x) (some x.text)]
  | c => c.declaration.2

theorem text_respelled (c : Constant) :
    c.respelled.mapM Operand.text = c.declaration.2.mapM Operand.text := by
  cases c with
  | scalar type v => cases v <;> rfl
  | _ => rfl

theorem inputs_respelled (c : Constant) :
    c.respelled.filterMap Operand.id? = c.declaration.2.filterMap Operand.id? := by
  cases c with
  | scalar type v => cases v <;> rfl
  | _ => rfl

theorem declared_respelled (c : Constant) (t : ConstantTable) (m : Module) (typeId : Id)
    (type : Ty) :
    t.declared (placed m
        { opcode := c.declaration.1, type := some typeId, operands := c.respelled }) type
      = t.declared (placed m
        { opcode := c.declaration.1, type := some typeId, operands := c.declaration.2 }) type := by
  cases c with
  | scalar type v => cases v <;> rfl
  | _ => rfl

theorem number?_withType (c : Constant) (type : Ty) : (c.withType type).number? = c.number? := by
  cases c <;> rfl

theorem number?_renumber (c : Constant) (ρ : Equiv.Perm Nat) :
    (c.renumber ρ).number? = c.number? := by
  cases c <;> rfl

end Constant

/-! ## Listings -/

namespace Module

/-- The results of global instructions are mentioned. -/
theorem mem_mentions_of_global {m : Module} {id : Id}
    (h : id ∈ m.globals.filterMap Instruction.result) : id ∈ m.mentions := by
  obtain ⟨i, hi, hresult⟩ := List.mem_filterMap.1 h
  have hlisted : i ∈ m.listed := List.mem_append_left _ (List.mem_append_right _ hi)
  exact mem_mentions_iff.2 ⟨i, hlisted, List.mem_append_left _ (by simp [hresult])⟩

theorem Printable.mem_ids {m : Module} {ids : List Id} (h : m.Printable ids) {id : Id}
    (hid : id ∈ m.mentions) : id ∈ ids := by
  obtain ⟨i, hi, hid⟩ := mem_mentions_iff.1 hid
  exact (h.within i hi).mentions id hid

/-- What is spelled alike in a module and in its listing. -/
theorem Reprints.spelledAlike {m m' : Module} {ρ : Equiv.Perm Nat} (h : m.Reprints m' ρ)
    {ids : List Id} (hm' : m'.Printable ids) : m.SpelledAlike m' ρ := by
  intro id hid
  have htext : (id.renumber ρ).text = id.text := Id.text_renumber (h.1 id hid)
  have hmem := h.mem_mentions hid
  refine ⟨hmem, fun id' hid' => ⟨fun heq => ?_, fun heq => heq ▸ htext⟩⟩
  refine hm'.vocabulary.key_inj id' (hm'.mem_ids hid') _ (hm'.mem_ids hmem) ?_
  rw [← htext, Id.text_eq, Id.text_eq] at heq
  exact (String.append_right_inj _).1 heq

/-- **The tables of a listing are those of the module**, under the numbers of the listing. -/
theorem Printable.reanalyze {m : Module} {ids : List Id} (h : m.Printable ids)
    {text : String} (htext : m.text = .ok text) {r : Registry} (hr : Registry.ofModule m = .ok r) :
    ∃ m' r' ρ, Assembly.parse m.settings text = .ok m' ∧ Registry.ofModule m' = .ok r' ∧
      m.SpelledAlike m' ρ ∧ r'.constants = r.constants.renumber ρ := by
  obtain ⟨m', ρ, hparse, -, hreprints⟩ := h.parse_text htext
  obtain ⟨r', hr', hconstants⟩ := ofModule_mirror (content_eq_iff.1 hreprints.2).2.1 hr
  obtain ⟨-, ids', hm'⟩ := Assembly.printable_of_parse hparse
  exact ⟨m', r', ρ, hparse, hr', hreprints.spelledAlike hm', hconstants⟩

end Module

/-! ## Types on demand

A declaration on demand adds a line to the listing.  The module stays one that can be listed and
read again, with tables that come out the same. -/

namespace TypeRegistry

/-- A module that can be listed and read again, with its tables. -/
structure Legible (settings : Settings) (ids : List Id) (q : TypeRegistry) (k : ConstantTable) :
    Prop where
  mirrored : Mirrored q k
  printable : q.target.Printable ids
  listable : q.target.Listable
  settings : q.target.settings = settings

/-- What is known of the id of a type that was asked for. -/
def Provides (settings : Settings) (ids : List Id) (q : TypeRegistry) (k : ConstantTable)
    (type : Ty) (id : Id) : Prop :=
  ∃ ids', ids ⊆ ids' ∧ Legible settings ids' q k ∧ id ∈ ids' ∧
    ∃ found, q.types.type? id = some found ∧ found.same type = true

end TypeRegistry

theorem Ty.Writable.declarable {type : Ty} (h : type.Writable) :
    type.Declarable ∨ ∃ opcode operands, type = .other opcode operands := by
  induction type with
  | int w s => exact .inl (.int h.1)
  | float w => exact .inl .float
  | bool => exact .inl .bool
  | void => exact .inl .void
  | vector element n ih =>
    obtain ⟨hscalar, helement, hn, -⟩ := h
    rcases ih helement with hdeclarable | ⟨opcode, operands, rfl⟩
    · exact .inl (.vector hscalar hdeclarable hn)
    · cases hscalar
  | other opcode operands => exact .inr ⟨opcode, operands, rfl⟩

/-- The constants of a mirrored module are declared in it. -/
theorem Mirrored.mem_mentions {q : TypeRegistry} {k : ConstantTable} (h : Mirrored q k) {id : Id}
    (hid : id ∈ k.entries.map Prod.fst) : id ∈ q.target.mentions := by
  obtain ⟨t, hanalyze, hmatches⟩ := h.constants
  have hsame : t.entries.map Prod.fst = k.entries.map Prod.fst :=
    (forall₂_iff_map_eq.1 (hmatches.imp fun _ _ he => he.1.symm)).symm
  have hread := ConstantTable.readFrom_analyze q.types q.target
  rw [hanalyze] at hread
  exact Module.mem_mentions_of_global (hread.ids.subset (hsame ▸ hid))

namespace TypeRegistry.Legible

variable {settings : Settings} {ids : List Id} {q q' : TypeRegistry} {k : ConstantTable} {id : Id}
  {type : Ty}

theorem mem_of_type (h : Legible settings ids q k) (hid : q.types.id? type = some id) :
    id ∈ ids := by
  obtain ⟨found, -, hmem⟩ := TypeTable.mem_of_id? hid
  have hresult := h.mirrored.readFrom.ids.subset (List.mem_map_of_mem hmem)
  exact h.printable.mem_ids (Module.mem_mentions_of_global hresult)

theorem found (h : Legible settings ids q k) (hid : q.types.id? type = some id) :
    Provides settings ids q k type id :=
  ⟨ids, List.Subset.refl ids, h, h.mem_of_type hid, h.mirrored.type?_of_id? hid⟩

section Limit

variable (hlimit : settings.maxIdBound ≤ Settings.maxIdWord)
include hlimit

/-- The next id can be written. -/
theorem bound_le (h : Legible settings ids q k) (hlt : q.target.bound < q.target.maxIdBound) :
    q.target.bound ≤ Settings.maxIdWord := by
  rw [Module.maxIdBound, h.settings] at hlt
  omega

/-- Declaring a type keeps the module legible. -/
theorem declare (h : Legible settings ids q k) {opcode : String} {operands : List Operand}
    (hsame : type.same type = true) (htype : Opcode.isType opcode = true)
    (hopcode : opcode ∈ Opcode.declaring)
    (hdeclared : q.types.declared (placed q.target { opcode, operands }) = .ok type)
    (hoperands : ∀ operand ∈ operands, operand.Plain ids)
    (hrun : q.declare type opcode operands = (id, q')) (hvalid : id.isValid = true) :
    Provides settings ids q' k type id := by
  have htyped := h.mirrored.declare hsame htype hdeclared hrun
  rcases q.declare_cases type opcode operands with ⟨-, hlt, heq⟩ | heq
  · cases heq.symm.trans hrun
    have huntyped : (none : Option Id).isSome = Opcode.isConstant opcode := by
      rw [← Opcode.hasResultType_of_declaring hopcode, Opcode.hasResultType, htype]
      rfl
    refine ⟨⟨q.target.bound, none⟩ :: ids, List.subset_cons_self _ _,
      ⟨htyped.mirrored, ?_, ?_, h.settings⟩, List.mem_cons_self, htyped.type? hvalid⟩
    · exact h.printable.extended (i := { opcode, operands }) h.mirrored.bound_pos
        (h.bound_le hlimit hlt) hopcode huntyped (fun _ hid => by cases hid) hoperands
    · exact h.listable.extended fun operand hoperand => (hoperands operand hoperand).writable
  · cases heq.symm.trans hrun
    exact Id.absurd_invalid hvalid

/-- The declaration of a type that consists of no others keeps the module legible. -/
theorem declare_plain (h : Legible settings ids q k) {opcode : String} {operands : List Operand}
    (hplain : TypeRegistry.Plain type opcode operands) (htype : type.Writable)
    (hrun : q.declare type opcode operands = (id, q')) (hvalid : id.isValid = true) :
    Provides settings ids q' k type id := by
  cases hplain with
  | int w s =>
    have hflag : (if s then 1 else 0 : Int).natAbs < 10 ^ Decimal.maxDigits := by
      refine Nat.lt_of_lt_of_le ?_ (Nat.pow_le_pow_right (by decide) (by decide : 1 ≤ _))
      cases s <;> decide
    exact h.declare hlimit (Ty.Declarable.int htype.1).same_refl rfl (by decide)
      (Mirrored.declared_int htype.1)
      (List.forall_mem_cons.2 ⟨.int htype.2, List.forall_mem_singleton.2 (.int hflag)⟩) hrun hvalid
  | float w =>
    exact h.declare hlimit Ty.Declarable.float.same_refl rfl (by decide) rfl
      (List.forall_mem_singleton.2 (.int htype)) hrun hvalid
  | bool => exact h.declare hlimit rfl rfl (by decide) rfl (List.forall_mem_nil _) hrun hvalid
  | void => exact h.declare hlimit rfl rfl (by decide) rfl (List.forall_mem_nil _) hrun hvalid

/-- **Asking for a type keeps the module legible.** -/
theorem typeId (h : Legible settings ids q k) (htype : q.types.Offers type)
    (hrun : TypeRegistry.typeId type q = (id, q')) (hvalid : id.isValid = true) :
    Provides settings ids q' k type id := by
  have houtcome := TypeRegistry.typeId_outcome hrun
  clear hrun
  have hwritable : ∀ {type}, q.types.id? type = none → q.types.Offers type → type.Writable :=
    fun hmissing hoffers => hoffers.resolve_left (by simp [hmissing])
  induction houtcome with
  | found hid => exact h.found hid
  | plain hmissing hplain hrun =>
    exact h.declare_plain hlimit hplain (hwritable hmissing htype) hrun hvalid
  | vector hmissing _ hvalid' hrun ih =>
    obtain ⟨hscalar, helement, hn, hdigits⟩ := hwritable hmissing htype
    have hdeclarable := helement.declarable.resolve_right (by
      rintro ⟨_, _, rfl⟩
      cases hscalar)
    -- the element is declared first, unless it is there
    obtain ⟨ids₁, hsubset, hlegible, hmem, found, hfound, hsame⟩ := ih (.inr helement) hvalid'
    rw [Ty.eq_of_same_of_isScalar hsame hscalar] at hfound
    obtain ⟨ids', hsubset', hlegible'⟩ := hlegible.declare hlimit
      (Ty.Declarable.vector hscalar hdeclarable hn).same_refl rfl (by decide)
      (Mirrored.declared_vector hfound hscalar hn)
      (List.forall_mem_cons.2 ⟨.id hmem, List.forall_mem_singleton.2 (.int hdigits)⟩) hrun hvalid
    exact ⟨ids', List.Subset.trans hsubset hsubset', hlegible'⟩
  | noElement => exact Id.absurd_invalid hvalid
  | other => exact Id.absurd_invalid hvalid

end Limit
end TypeRegistry.Legible

/-! ## Constants on demand

A module with the new declaration has the same listing as one in which it is respelled, and this one
is what the listing is read as. -/

/-- A type that comes with an id was declared or can be. -/
theorem TypeTable.Offers.admits {q q' : TypeRegistry} {type : Ty} {id : Id}
    (h : q.types.Offers type) (hrun : TypeRegistry.typeId type q = (id, q'))
    (hvalid : id.isValid = true) : q.types.Admits type := by
  rcases h with hdeclared | hwritable
  · exact .inr hdeclared
  rcases hwritable.declarable with hdeclarable | ⟨opcode, operands, rfl⟩
  · exact .inl hdeclarable
  · cases TypeRegistry.typeId_outcome hrun with
    | found hid => exact .inr (by rw [hid]; rfl)
    | plain _ hplain => cases hplain
    | other => exact Id.absurd_invalid hvalid

namespace Registry
namespace Rereads

variable {r : Registry} {c : Constant}

theorem type (h : r.Rereads c) : r.types.Offers c.type := by
  cases h with
  | integer hpos hw =>
    exact .inr ⟨hpos, Nat.lt_of_le_of_lt hw Integer.maxBits_lt_pow_maxDigits⟩
  | float htype => exact htype
  | bool => exact .inr trivial
  | composite htype => exact htype
  | null htype => exact htype

theorem admits (h : r.Rereads c) (htype : r.types.Admits c.type) : r.Admits c := by
  cases h with
  | integer hpos hw h0 hn => exact .integer hpos hw h0 hn
  | float _ hx => exact .float (by rw [Binary64.isNaN, beq_false_of_ne hx, Bool.false_and])
  | bool => exact .bool
  | composite _ hids =>
    refine .composite htype fun id hid => ?_
    obtain ⟨entry, hentry, rfl⟩ := List.mem_map.1 (hids id hid)
    exact ConstantTable.isDeclared_of_mem hentry
  | null => exact .null htype

/-- The operands of the declaration are plain. -/
theorem plain (h : r.Rereads c) {ids : List Id}
    (hids : ∀ id ∈ r.constants.entries.map Prod.fst, id ∈ ids) :
    ∀ operand ∈ c.respelled, operand.Plain ids := by
  cases h with
  | integer _ _ _ _ hdigits => exact List.forall_mem_singleton.2 (.int hdigits)
  | float _ hx => exact List.forall_mem_singleton.2 (.float hx)
  | bool => exact List.forall_mem_nil _
  | composite _ hcomponents =>
    exact List.forall_mem_map.2 fun id hid => .id (hids id (hcomponents id hid))
  | null => exact List.forall_mem_nil _

end Rereads

/-- A constant that is missing is declared behind its type. -/
theorem constantId_of_none {r r' : Registry} {c : Constant} {i : Id}
    (hmissing : r.constants.id? c = none) (hrun : constantId c r = (i, r'))
    (hvalid : i.isValid = true) :
    ∃ typeId q, TypeRegistry.typeId c.type r.toTypeRegistry = (typeId, q) ∧
      typeId.isValid = true ∧ q.target.bound < q.target.maxIdBound ∧
      i = ⟨q.target.bound, none⟩ ∧ r'.target = extended q.target
        { opcode := c.declaration.1, type := some typeId, operands := c.declaration.2 } := by
  cases constantId_outcome hrun with
  | found hid => cases hid.symm.trans hmissing
  | declared _ htype hvalidType _ hlt => exact ⟨_, _, htype, hvalidType, hlt, rfl, rfl⟩
  | full => exact Id.absurd_invalid hvalid
  | noType => exact Id.absurd_invalid hvalid

/-- The module `n` has the listing of `m`, and can be read again with the constant `c` under the id
`i`. -/
structure Exhibits (settings : Settings) (m n : Module) (c : Constant) (i : Id) : Prop where
  settings : n.settings = settings
  printable : ∃ ids, n.Printable ids
  listable : n.Listable
  text : n.text = m.text
  mentions : n.mentions = m.mentions
  mem : i ∈ n.mentions
  found : ∃ r d, ofModule n = .ok r ∧ r.constants.constant? i = some d ∧ d.same c = true ∧
    d.number? = c.number?

/-- The constant is in the listing. -/
theorem Exhibits.reread {settings : Settings} {m n : Module} {c : Constant} {i : Id}
    (h : Exhibits settings m n c i) :
    ∃ text m' r' ρ, m.text = .ok text ∧ Assembly.parse settings text = .ok m' ∧
      ofModule m' = .ok r' ∧ m.SpelledAlike m' ρ ∧ i ∈ m.mentions ∧
      ∃ d, r'.constants.constant? (i.renumber ρ) = some d ∧ d.same (c.renumber ρ) = true ∧
        d.number? = c.number? := by
  obtain ⟨ids, hprintable⟩ := h.printable
  obtain ⟨r, d, hr, hd, hsame, hnumber⟩ := h.found
  obtain ⟨text, htext⟩ := Module.exists_text_iff.2 h.listable
  obtain ⟨m', r', ρ, hparse, hr', hspelled, hconstants⟩ := hprintable.reanalyze htext hr
  rw [h.settings] at hparse
  refine ⟨text, m', r', ρ, h.text.symm.trans htext, hparse, hr', ?_, h.mentions ▸ h.mem,
    d.renumber ρ, ?_, ?_, ?_⟩
  · rwa [Module.SpelledAlike, ← h.mentions]
  · rw [hconstants, ConstantTable.constant?_renumber, hd]
    rfl
  · rw [Constant.same_renumber]
    exact hsame
  · exact (d.number?_renumber ρ).trans hnumber

section Limit

variable {settings : Settings} {ids : List Id} {r r' : Registry} {c : Constant} {i : Id}
  (hlimit : settings.maxIdBound ≤ Settings.maxIdWord)
include hlimit

/-- A new constant is exhibited by the module with its declaration respelled, which has the same
line. -/
theorem exhibits_of_none (h : TypeRegistry.Legible settings ids r.toTypeRegistry r.constants)
    (hmissing : r.constants.id? c = none) (hc : r.Rereads c) (hrun : constantId c r = (i, r'))
    (hvalid : i.isValid = true) : ∃ n, Exhibits settings r'.target n c i := by
  obtain ⟨typeId, q, hrunType, hvalidType, hlt, rfl, htarget⟩ :=
    constantId_of_none hmissing hrun hvalid
  obtain ⟨ids₁, hsubset, hlegible, hmem, found, hfound, hsame⟩ :=
    h.typeId hlimit hc.type hrunType hvalidType
  have hadmits := hc.admits (hc.type.admits hrunType hvalidType)
  have hplain := hc.plain fun id hid =>
    hsubset (h.printable.mem_ids (h.mirrored.mem_mentions hid))
  let j : Instruction :=
    { opcode := c.declaration.1, type := some typeId, operands := c.respelled }
  have hconstant : j.isConstant = true := List.contains_iff_mem.2 (opcode_mem_constants c)
  -- The constant is read as it is.
  have hdeclared : ∀ t : ConstantTable, t.Matches r.constants →
      t.declared (placed q.target j) found = .ok (c.withType found) := fun t hmatches =>
    (c.declared_respelled t q.target typeId found).trans
      (Mirrored.declared_declaration hadmits hsame hmatches q.target typeId)
  obtain ⟨t, hanalyze, hmatches⟩ := hlegible.mirrored.constants
  have hconstants := Mirrored.analyze_extended hconstant rfl hfound hanalyze
    (hdeclared t hmatches)
  have htypes := (hlegible.mirrored.extendConstant hconstant rfl hfound (c := c.withType found)
    (fun t hmatches => ⟨_, hdeclared t hmatches, .inl rfl⟩) []).types
  have hopcode : j.opcode ∈ Opcode.declaring := List.mem_append_right _ (opcode_mem_constants c)
  refine ⟨extended q.target j, hlegible.settings, ⟨⟨q.target.bound, none⟩ :: ids₁, ?_⟩, ?_, ?_, ?_,
    Module.bound_mem_mentions_extended,
    ⟨⟨extended q.target j, q.types, []⟩, t.add ⟨q.target.bound, none⟩ (c.withType found)⟩,
    c.withType found, ?_, ?_, Mirrored.same_withType hadmits hsame, c.number?_withType found⟩
  · exact hlegible.printable.extended hlegible.mirrored.bound_pos (hlegible.bound_le hlimit hlt)
      hopcode hconstant.symm (fun id hid => by cases hid; exact hmem) hplain
  · exact hlegible.listable.extended fun operand hoperand => (hplain operand hoperand).writable
  · rw [htarget]
    exact Module.text_extended rfl rfl c.text_respelled
  · rw [htarget]
    exact Module.mentions_extended rfl c.inputs_respelled
  · rw [ofModule, htypes]
    dsimp only
    rw [hconstants]
  · rw [ConstantTable.constant?_add, Id.same_refl, if_pos rfl]

end Limit

/-- **A constant that is asked for is read again**: listing the module and reading the listing gives
the id that is spelled alike the same constant, bit for bit.  A constant that is declared already is
only as exact as the one that stands for it. -/
theorem constantId_reread {maxIdBound validate : Option SettingValue} {fallback : Nat}
    {settings : Settings}
    (hsettings : Settings.ofValues maxIdBound validate fallback = .ok settings)
    (hfallback : fallback ≤ Settings.maxIdWord) {source : String} {m : Module}
    (hparse : Assembly.parse settings source = .ok m) (honce : m.DefinedOnce)
    {r : Registry} (hr : ofModule m = .ok r) (hlistable : m.Listable) {c : Constant}
    (hexact : ∀ d, (r.constants.id? c).bind r.constants.constant? = some d → d.number? = c.number?)
    (hmissing : r.constants.id? c = none → r.Rereads c) {i : Id} {r' : Registry}
    (hrun : constantId c r = (i, r')) (hvalid : i.isValid = true) :
    ∃ text m' r'' ρ, r'.target.text = .ok text ∧ Assembly.parse settings text = .ok m' ∧
      ofModule m' = .ok r'' ∧ r'.target.SpelledAlike m' ρ ∧ i ∈ r'.target.mentions ∧
      ∃ d, r''.constants.constant? (i.renumber ρ) = some d ∧ d.same (c.renumber ρ) = true ∧
        d.number? = c.number? := by
  obtain ⟨rfl, ids, hprintable⟩ := Assembly.printable_of_parse hparse
  obtain ⟨hok, hok', hstart⟩ := ofModule_eq_ok_iff.1 hr
  have htarget : r.target = m := by rw [hstart]; rfl
  have hlegible : TypeRegistry.Legible m.settings ids r.toTypeRegistry r.constants := by
    have hmirrored := Mirrored.start (Assembly.wellFormed_of_parse hparse) honce hr []
    rw [hstart] at hmirrored ⊢
    exact ⟨hmirrored, hprintable, hlistable, rfl⟩
  have hexhibits : ∃ n, Exhibits m.settings r'.target n c i := by
    cases hid : r.constants.id? c with
    | none =>
      exact exhibits_of_none (Settings.maxIdBound_le_of_ofValues hsettings hfallback) hlegible hid
        (hmissing hid) hrun hvalid
    | some key =>
      rw [constantId_of_id? hid] at hrun
      cases hrun
      have hindexed := Indexed.start hparse honce hok hok' []
      rw [← hstart] at hindexed
      obtain ⟨d, hd, hsame⟩ := hindexed.constant?_of_id? hid
      obtain ⟨_, -, hmem⟩ := ConstantTable.mem_of_id? hid
      have hi := hlegible.mirrored.mem_mentions (List.mem_map_of_mem hmem)
      rw [htarget] at hi ⊢
      exact ⟨m, rfl, ⟨ids, hprintable⟩, hlistable, rfl, rfl, hi, r, d, hr, hd, hsame,
        hexact d (by rw [hid]; exact hd)⟩
  obtain ⟨n, hn⟩ := hexhibits
  exact hn.reread

/-! ### Examples -/

/-- A text that declares a floating-point type. -/
def floatText : String := "%1 = OpTypeFloat 32\n"

/-- A module that declares a floating-point type and nothing else. -/
def declaringFloat : Module :=
  { globals := [{ opcode := "OpTypeFloat", result := some ⟨1, none⟩,
                  operands := [.literal (.int 32) none] }]
    bound := 2
    nextSerial := 1 }

theorem parse_floatText : Assembly.parse {} floatText = .ok declaringFloat :=
  toOption_eq_some_iff.1 (by decide +kernel)

theorem definedOnce_declaringFloat : declaringFloat.DefinedOnce := by
  rw [Module.DefinedOnce]
  decide

/-- The registry of that module. -/
def floats : Registry := .start declaringFloat []

/-- A floating-point constant. -/
def floatOf (x : Binary64) : Constant := .scalar (.float 32) (.float x)

/-- The number nearest to one tenth. -/
def tenth : Binary64 := ⟨0x3fb999999999999a⟩

theorem constantId_reread_sample :
    Assembly.parse {} floatText = .ok declaringFloat ∧ declaringFloat.DefinedOnce ∧
      ofModule declaringFloat = .ok floats ∧ (constantId (floatOf tenth) floats).1 = ⟨2, none⟩ ∧
      ∃ text m' r'' ρ, (constantId (floatOf tenth) floats).2.target.text = .ok text ∧
        Assembly.parse {} text = .ok m' ∧ ofModule m' = .ok r'' ∧
        ∃ d, r''.constants.constant? (Id.renumber ρ ⟨2, none⟩) = some d ∧
          d.number? = some (.float tenth) := by
  have hsettings : Settings.ofValues none none = .ok {} := rfl
  have hr : ofModule declaringFloat = .ok floats := rfl
  have hlistable : declaringFloat.Listable := by
    refine List.forall_mem_singleton.2 (List.forall_mem_singleton.2 ?_)
    exact Nat.lt_of_lt_of_le (by decide : 32 < 10 ^ 2)
      (Nat.pow_le_pow_right (by decide) (by decide))
  have hrereads : floats.Rereads (floatOf tenth) := .float (.inl rfl) (by decide)
  obtain ⟨text, m', r'', ρ, htext, hparse, hr'', -, -, d, hd, -, hnumber⟩ :=
    constantId_reread hsettings (by decide) parse_floatText definedOnce_declaringFloat hr hlistable
      (c := floatOf tenth) (fun _ hd => by cases hd) (fun _ => hrereads) rfl rfl
  exact ⟨parse_floatText, definedOnce_declaringFloat, hr, rfl, text, m', r'', ρ, htext, hparse,
    hr'', d, hd, hnumber⟩

/-- **Infinities are lost.**  They are written as words: that of a negative one cannot be read, and
that of a positive one is read as no number. -/
theorem infinities_lost :
    Assembly.parse {} floatText = .ok declaringFloat ∧ declaringFloat.DefinedOnce ∧
      ofModule declaringFloat = .ok floats ∧
      (∃ r', constantId (floatOf (.infinity true)) floats = (⟨2, none⟩, r') ∧
        r'.target.text = .ok (floatText ++ "%2 = OpConstant %1 -inf\n") ∧
        ∃ e, Assembly.parse {} (floatText ++ "%2 = OpConstant %1 -inf\n") = .error e) ∧
      ∃ r' m', constantId (floatOf (.infinity false)) floats = (⟨2, none⟩, r') ∧
        r'.target.text = .ok (floatText ++ "%2 = OpConstant %1 inf\n") ∧
        Assembly.parse {} (floatText ++ "%2 = OpConstant %1 inf\n") = .ok m' ∧
        ∃ e, ofModule m' = .error e := by
  have hparse : (Assembly.parse {} (floatText ++ "%2 = OpConstant %1 inf\n")).toOption.map
      (fun m' => (ofModule m').toOption.isNone) = some true := by decide +kernel
  obtain ⟨m', hm', hnone⟩ := Option.map_eq_some_iff.1 hparse
  refine ⟨parse_floatText, definedOnce_declaringFloat, rfl, ⟨_, rfl, ?_, _, rfl⟩, _, m', rfl, ?_,
    toOption_eq_some_iff.1 hm', ?_⟩
  · exact toOption_eq_some_iff.1 (by decide +kernel)
  · exact toOption_eq_some_iff.1 (by decide +kernel)
  · cases hr : ofModule m' with
    | ok r =>
      rw [hr] at hnone
      cases hnone
    | error e => exact ⟨e, rfl⟩

end Registry
end ShiftBarrier
