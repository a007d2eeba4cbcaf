import Mathlib.Data.List.Nodup
import ShiftBarrier.Analysis.ConstantTable
import ShiftBarrier.Proofs.Failure
import ShiftBarrier.Proofs.Integer

/-!
# What the tables of a module hold

The tables of types and constants are read off the global section, one declaration after the other.
What is said here of a table holds of a half-read one as well, as an analysis that fails leaves it.

* `TypeTable.ReadFrom` and `ConstantTable.ReadFrom` are the invariants of reading: the ids are
  results of the instructions that were read, and every type and every constant is well-formed
  (`TypeTable.Formed`, `ConstantTable.Formed`) with respect to what is declared.
* `TypeTable.readFrom_analyze` and `ConstantTable.readFrom_analyze` establish them.
* `readAll_append` says that reading may be interrupted.
-/

set_option autoImplicit false

namespace ShiftBarrier

/-! ## Types

What a table holds is described twice: by what can be looked up in it, and by the instructions it
was read from. -/

namespace Ty

theorem same_int_iff {t : Ty} {w : Nat} {s : Bool} :
    t.same (.int w s) = true ↔ t = .int w s := by
  cases t <;> simp [same]

theorem same_vector_int_iff {t : Ty} {w n : Nat} {s : Bool} :
    t.same (.vector (.int w s) n) = true ↔ t = .vector (.int w s) n := by
  cases t with
  | vector e n' => simp [same, same_int_iff]
  | _ => simp [same]

/-- Types that are interpreted are equal if they are the same. -/
theorem same_refl_of_isScalar {t : Ty} (h : t.isScalar = true) : t.same t = true := by
  cases t <;> simp_all [same, isScalar]

end Ty

namespace TypeTable

variable {t t' : TypeTable} {is js : List Instruction} {i : Instruction}

/-! ### Looking up -/

theorem mem_of_type? {id : Id} {type : Ty} (h : t.type? id = some type) :
    ∃ key, key.same id = true ∧ (key, type) ∈ t.entries := by
  rw [type?, List.findRev?_eq_find?_reverse, Option.map_eq_some_iff] at h
  obtain ⟨entry, hfind, rfl⟩ := h
  exact ⟨entry.1, List.find?_some (p := fun e : Id × Ty => e.1.same id) hfind,
    List.mem_reverse.1 (List.mem_of_find?_eq_some hfind)⟩

theorem mem_of_id? {id : Id} {type : Ty} (h : t.id? type = some id) :
    ∃ found, found.same type = true ∧ (id, found) ∈ t.entries := by
  rw [id?, Option.map_eq_some_iff] at h
  obtain ⟨entry, hfind, rfl⟩ := h
  exact ⟨entry.2, List.find?_some (p := fun e : Id × Ty => e.2.same type) hfind,
    List.mem_of_find?_eq_some hfind⟩

theorem exists_id?_of_mem {id : Id} {type : Ty} (hmem : (id, type) ∈ t.entries)
    (hsame : type.same type = true) : ∃ key, t.id? type = some key := by
  rw [← Option.isSome_iff_exists, id?, Option.isSome_map, List.find?_isSome]
  exact ⟨(id, type), hmem, hsame⟩

/-- An id that is declared once has the type it was declared with. -/
theorem type?_of_mem (hnodup : (t.entries.map (·.1.number)).Nodup) {id : Id} {type : Ty}
    (hmem : (id, type) ∈ t.entries) : t.type? id = some type := by
  cases h : t.type? id with
  | none =>
    rw [type?, List.findRev?_eq_find?_reverse, Option.map_eq_none_iff, List.find?_eq_none] at h
    exact absurd (Id.same_refl id) (h _ (List.mem_reverse.2 hmem))
  | some found =>
    obtain ⟨key, hkey, hmem'⟩ := mem_of_type? h
    have heq := List.inj_on_of_nodup_map hnodup hmem' hmem (Id.same_iff.1 hkey)
    cases heq
    rfl

/-! ### Reading -/

/-- Reading an instruction either passes over it or adds what it declares. -/
theorem read_eq_ok_iff : t.read i = .ok t' ↔
    (i.isType = false ∧ t' = t) ∨ ∃ id type, i.isType = true ∧ i.result = some id ∧
      t.declared i = .ok type ∧ t' = t.add id type := by
  constructor
  · intro h
    rw [read] at h
    split at h
    · next hdeclares =>
      split at h
      · cases h
      · next id hid =>
        rw [bind_eq_ok_iff] at h
        obtain ⟨type, htype, heq⟩ := h
        cases heq
        exact .inr ⟨id, type, hdeclares, hid, htype, rfl⟩
    · next hother =>
      cases h
      exact .inl ⟨Bool.eq_false_iff.2 hother, rfl⟩
  · rintro (⟨hother, rfl⟩ | ⟨id, type, hdeclares, hid, htype, rfl⟩)
    · rw [read, hother]
      rfl
    · rw [read, if_pos hdeclares, hid, htype]
      rfl

theorem readAll_cons_eq_ok_iff : t.readAll (i :: is) = (.ok (), t') ↔
    ∃ t₁, t.read i = .ok t₁ ∧ t₁.readAll is = (.ok (), t') := by
  rw [readAll]
  cases t.read i with
  | error e => exact iff_of_false nofun nofun
  | ok t₁ => simp

theorem readAll_append (t : TypeTable) (is js : List Instruction) :
    t.readAll (is ++ js) =
      match t.readAll is with
      | (.ok (), t') => t'.readAll js
      | (.error e, t') => (.error e, t') := by
  induction is generalizing t with
  | nil => rfl
  | cons i is ih =>
    rw [List.cons_append, readAll, readAll]
    cases t.read i with
    | ok t' => exact ih t'
    | error e => rfl

theorem readAll_append_of_ok (h : t.readAll is = (.ok (), t')) (js : List Instruction) :
    t.readAll (is ++ js) = t'.readAll js := by
  rw [readAll_append, h]

/-- Instructions that declare no types are passed over. -/
theorem readAll_of_not_isType (h : ∀ i ∈ is, i.isType = false) : t.readAll is = (.ok (), t) := by
  induction is with
  | nil => rfl
  | cons i is ih =>
    obtain ⟨hi, his⟩ := List.forall_mem_cons.1 h
    exact readAll_cons_eq_ok_iff.2 ⟨t, read_eq_ok_iff.2 (.inl ⟨hi, rfl⟩), ih his⟩

/-- The types that can be declared, given those that are. -/
inductive Formed (t : TypeTable) : Ty → Prop
  | int {w : Nat} {s : Bool} (hw : 0 < w) : Formed t (.int w s)
  | float {w : Int} : Formed t (.float w)
  | bool : Formed t .bool
  | void : Formed t .void
  | vector {element : Ty} {n : Nat} {key : Id} (hscalar : element.isScalar = true) (hn : 2 ≤ n)
      (hmem : (key, element) ∈ t.entries) : Formed t (.vector element n)
  | other {op : String} {xs : List Operand} : Formed t (.other op xs)

theorem Formed.add {type : Ty} (h : Formed t type) (id : Id) (new : Ty) :
    Formed (t.add id new) type := by
  cases h with
  | int hw => exact .int hw
  | float => exact .float
  | bool => exact .bool
  | void => exact .void
  | vector hscalar hn hmem => exact .vector hscalar hn (List.mem_append_left _ hmem)
  | other => exact .other

theorem element_spec {element : Ty} (h : t.element i = .ok element) :
    element.isScalar = true ∧ ∃ key, (key, element) ∈ t.entries := by
  rw [TypeTable.element] at h
  split at h
  · cases h
  · split at h
    · next type htype =>
      split at h
      · next hscalar =>
        cases h
        obtain ⟨id, -, hid⟩ := Option.bind_eq_some_iff.1 htype
        obtain ⟨key, -, hmem⟩ := mem_of_type? hid
        exact ⟨hscalar, key, hmem⟩
      · simp only [bind_eq_ok_iff] at h
        obtain ⟨-, -, -, -, -, -, ⟨⟩⟩ := h
    · simp only [bind_eq_ok_iff] at h
      obtain ⟨-, -, -, -, -, -, ⟨⟩⟩ := h

theorem formed_of_declared {type : Ty} (h : t.declared i = .ok type) : Formed t type := by
  rw [declared] at h
  split at h
  · simp only [bind_eq_ok_iff] at h
    obtain ⟨width, -, signed, -, h⟩ := h
    rw [Ty.makeInt] at h
    split at h
    · cases h
      exact .int (by omega)
    · cases h
  · rw [bind_eq_ok_iff] at h
    obtain ⟨width, -, h⟩ := h
    cases h
    exact .float
  · cases h
    exact .bool
  · cases h
    exact .void
  · simp only [bind_eq_ok_iff] at h
    obtain ⟨element, helement, count, -, h⟩ := h
    rw [Ty.makeVector] at h
    split at h
    · cases h
      obtain ⟨hscalar, key, hmem⟩ := element_spec helement
      exact .vector hscalar (by omega) hmem
    · cases h
  · cases h
    exact .other

/-- What a table holds after instructions have been read. -/
structure ReadFrom (is : List Instruction) (t : TypeTable) : Prop where
  ids : (t.entries.map Prod.fst).Sublist (is.filterMap Instruction.result)
  formed : ∀ entry ∈ t.entries, Formed t entry.2

theorem ReadFrom.append (h : t.ReadFrom is) (js : List Instruction) : t.ReadFrom (is ++ js) := by
  refine ⟨?_, h.formed⟩
  rw [List.filterMap_append]
  exact h.ids.trans (List.sublist_append_left _ _)

theorem ReadFrom.read (h : t.ReadFrom is) (hread : t.read i = .ok t') :
    t'.ReadFrom (is ++ [i]) := by
  rcases read_eq_ok_iff.1 hread with ⟨-, rfl⟩ | ⟨id, type, -, hid, htype, rfl⟩
  · exact h.append _
  · refine ⟨?_, fun entry hentry => ?_⟩
    · rw [add, List.map_append, List.filterMap_append]
      refine h.ids.append ?_
      simp [hid]
    · rcases List.mem_append.1 hentry with hentry | hentry
      · exact (h.formed entry hentry).add id type
      · rw [List.mem_singleton.1 hentry]
        exact (formed_of_declared htype).add id type

theorem ReadFrom.readAll (h : t.ReadFrom is) (js : List Instruction) :
    (t.readAll js).2.ReadFrom (is ++ js) := by
  induction js generalizing t is with
  | nil => exact h.append []
  | cons j js ih =>
    rw [TypeTable.readAll, List.append_cons]
    cases hread : t.read j with
    | ok t' => exact ih (h.read hread)
    | error e => exact (h.append [j]).append js

theorem readFrom_analyze (m : Module) : (analyze m).2.ReadFrom m.globals := by
  have hstart : ReadFrom [] {} := ⟨List.Sublist.refl [], fun _ h => absurd h List.not_mem_nil⟩
  exact hstart.readAll m.globals

end TypeTable

/-! ## Constants

The same for constants, whose declarations are read with the types at hand. -/

/-- A declaration is one of a type or of a constant. -/
theorem isType_of_mem_constants {opcode : String} (h : opcode ∈ Opcode.constants) :
    Opcode.isType opcode = false := by
  have hall : ∀ opcode ∈ Opcode.constants, Opcode.isType opcode = false := by decide +kernel
  exact hall opcode h

theorem opcode_mem_constants (c : Constant) : c.declaration.1 ∈ Opcode.constants := by
  cases c with
  | bool type b => cases b <;> simp [Constant.declaration, Opcode.constants]
  | _ => simp [Constant.declaration, Opcode.constants]

/-- What a literal of a type is read as.  Only integers are cut to a width. -/
theorem Constant.ofLiteral_cases {type : Ty} {v : Number} {c : Constant}
    (h : Constant.ofLiteral type v = .ok c) :
    (∃ w s n, type = .int w s ∧ v = .int n ∧ w ≤ Integer.maxBits ∧
        c = .scalar (.int w s) (.int (Integer.low w n))) ∨
      (∀ w s, type ≠ .int w s) ∧ c = .scalar type v := by
  cases type with
  | int w s =>
    cases v with
    | int n =>
      simp only [Constant.ofLiteral, bind_eq_ok_iff] at h
      obtain ⟨bits, hbits, ⟨⟩⟩ := h
      obtain ⟨hle, rfl⟩ := Integer.checkBits_eq_ok_iff.1 hbits
      exact .inl ⟨_, s, n, rfl, rfl, hle, rfl⟩
    | float x =>
      simp only [Constant.ofLiteral, bind_eq_ok_iff] at h
      obtain ⟨-, -, -, -, ⟨⟩⟩ := h
  | _ =>
    cases h
    exact .inr ⟨nofun, rfl⟩

/-- All lanes of a vector are one id. -/
theorem isEqv_replicate_iff {ids : List Id} {z : Id} {n : Nat} :
    ids.isEqv (List.replicate n z) Id.same = true ↔
      ids.length = n ∧ ∀ id ∈ ids, id.same z = true := by
  induction ids generalizing n with
  | nil => cases n <;> simp [List.replicate_succ]
  | cons id ids ih =>
    cases n with
    | zero => simp
    | succ n =>
      rw [List.replicate_succ, List.isEqv_cons_cons, Bool.and_eq_true, ih, List.forall_mem_cons,
        List.length_cons, Nat.succ_inj]
      exact and_left_comm

namespace ConstantTable

variable {types : TypeTable} {t t' : ConstantTable} {is js : List Instruction} {i : Instruction}

/-! ### Looking up -/

theorem isDeclared_iff {id : Id} :
    t.isDeclared id = true ↔ ∃ entry ∈ t.entries, entry.1.same id = true := by
  rw [isDeclared, List.any_eq_true]

theorem isDeclared_of_mem {id : Id} {c : Constant} (h : (id, c) ∈ t.entries) :
    t.isDeclared id = true :=
  isDeclared_iff.2 ⟨_, h, Id.same_refl id⟩

theorem isDeclared_add {id key : Id} {c : Constant} (h : t.isDeclared key = true) :
    (t.add id c).isDeclared key = true := by
  obtain ⟨entry, hmem, hsame⟩ := isDeclared_iff.1 h
  exact isDeclared_iff.2 ⟨entry, List.mem_append_left _ hmem, hsame⟩

theorem mem_of_constant? {id : Id} {c : Constant} (h : t.constant? id = some c) :
    ∃ key, key.same id = true ∧ (key, c) ∈ t.entries := by
  rw [constant?, List.findRev?_eq_find?_reverse, Option.map_eq_some_iff] at h
  obtain ⟨entry, hfind, rfl⟩ := h
  exact ⟨entry.1, List.find?_some (p := fun e : Id × Constant => e.1.same id) hfind,
    List.mem_reverse.1 (List.mem_of_find?_eq_some hfind)⟩

theorem mem_of_id? {id : Id} {c : Constant} (h : t.id? c = some id) :
    ∃ found, found.same c = true ∧ (id, found) ∈ t.entries := by
  rw [id?, Option.map_eq_some_iff] at h
  obtain ⟨entry, hfind, rfl⟩ := h
  exact ⟨entry.2, List.find?_some (p := fun e : Id × Constant => e.2.same c) hfind,
    List.mem_of_find?_eq_some hfind⟩

/-- An id that is declared once stands for the constant it was declared with. -/
theorem constant?_of_mem (hnodup : (t.entries.map (·.1.number)).Nodup) {id : Id} {c : Constant}
    (hmem : (id, c) ∈ t.entries) : t.constant? id = some c := by
  cases h : t.constant? id with
  | none =>
    have hsome := isDeclared_of_mem hmem
    rw [← isSome_constant?, h] at hsome
    cases hsome
  | some found =>
    obtain ⟨key, hkey, hmem'⟩ := mem_of_constant? h
    have heq := List.inj_on_of_nodup_map hnodup hmem' hmem (Id.same_iff.1 hkey)
    cases heq
    rfl

theorem constant?_congr {id key : Id} (h : id.same key = true) :
    t.constant? id = t.constant? key := by
  have hsame : (fun entry : Id × Constant => entry.1.same id)
      = fun entry : Id × Constant => entry.1.same key := by
    funext entry
    rw [Id.same, Id.same, Id.same_iff.1 h]
  rw [constant?, constant?, hsame]

theorem isDeclared_congr {id key : Id} (h : id.same key = true) :
    t.isDeclared id = t.isDeclared key := by
  rw [← isSome_constant?, ← isSome_constant?, constant?_congr h]

/-- Constants of other ids do not matter. -/
theorem constant?_append {new : List (Id × Constant)} {id : Id}
    (h : ∀ entry ∈ new, entry.1.same id = false) :
    (ConstantTable.mk (t.entries ++ new)).constant? id = t.constant? id := by
  have hnone : new.reverse.find? (·.1.same id) = none := by
    rw [List.find?_eq_none]
    intro entry hentry
    rw [h entry (List.mem_reverse.1 hentry)]
    exact Bool.false_ne_true
  rw [constant?, constant?, List.findRev?_eq_find?_reverse, List.findRev?_eq_find?_reverse,
    List.reverse_append, List.find?_append, hnone, Option.none_or]

/-! ### Reading -/

/-- Reading an instruction either passes over it or adds what it declares. -/
theorem read_eq_ok_iff : t.read types i = .ok t' ↔
    (i.isConstant = false ∧ t' = t) ∨ ∃ id type c, i.isConstant = true ∧ i.result = some id ∧
      i.type.bind types.type? = some type ∧ t.declared i type = .ok c ∧ t' = t.add id c := by
  constructor
  · intro h
    rw [read] at h
    split at h
    · next hdeclares =>
      split at h
      · cases h
      · next id hid =>
        split at h
        · simp only [bind_eq_ok_iff] at h
          obtain ⟨-, -, ⟨⟩⟩ := h
        · next type htype =>
          rw [bind_eq_ok_iff] at h
          obtain ⟨c, hc, heq⟩ := h
          cases heq
          exact .inr ⟨id, type, c, hdeclares, hid, htype, hc, rfl⟩
    · next hother =>
      cases h
      exact .inl ⟨Bool.eq_false_iff.2 hother, rfl⟩
  · rintro (⟨hother, rfl⟩ | ⟨id, type, c, hdeclares, hid, htype, hc, rfl⟩)
    · rw [read, hother]
      rfl
    · rw [read, if_pos hdeclares, hid, htype]
      dsimp only
      rw [hc]
      rfl

theorem readAll_cons_eq_ok_iff : t.readAll types (i :: is) = (.ok (), t') ↔
    ∃ t₁, t.read types i = .ok t₁ ∧ t₁.readAll types is = (.ok (), t') := by
  rw [readAll]
  cases t.read types i with
  | error e => exact iff_of_false nofun nofun
  | ok t₁ => simp

theorem readAll_append (types : TypeTable) (t : ConstantTable) (is js : List Instruction) :
    t.readAll types (is ++ js) =
      match t.readAll types is with
      | (.ok (), t') => t'.readAll types js
      | (.error e, t') => (.error e, t') := by
  induction is generalizing t with
  | nil => rfl
  | cons i is ih =>
    rw [List.cons_append, readAll, readAll]
    cases t.read types i with
    | ok t' => exact ih t'
    | error e => rfl

theorem readAll_append_of_ok (h : t.readAll types is = (.ok (), t')) (js : List Instruction) :
    t.readAll types (is ++ js) = t'.readAll types js := by
  rw [readAll_append, h]

theorem readAll_append_of_error {e : Error} (h : (t.readAll types is).1 = .error e)
    (js : List Instruction) : (t.readAll types (is ++ js)).1 = .error e := by
  rw [readAll_append]
  rcases hread : t.readAll types is with ⟨_ | ⟨⟨⟩⟩, t'⟩
  · rw [hread] at h
    exact h
  · rw [hread] at h
    cases h

/-- Reading only adds entries, whether or not it comes to its end. -/
theorem readAll_entries (types : TypeTable) (t : ConstantTable) (is : List Instruction) :
    ∃ new, (t.readAll types is).2.entries = t.entries ++ new ∧
      (new.map Prod.fst).Sublist (is.filterMap Instruction.result) := by
  induction is generalizing t with
  | nil => exact ⟨[], (List.append_nil _).symm, List.Sublist.refl []⟩
  | cons i is ih =>
    rw [readAll, List.filterMap_cons]
    cases hread : t.read types i with
    | error e => exact ⟨[], (List.append_nil _).symm, List.nil_sublist _⟩
    | ok t' =>
      obtain ⟨new, hentries, hids⟩ := ih t'
      rcases read_eq_ok_iff.1 hread with ⟨-, rfl⟩ | ⟨id, type, c, -, hid, -, -, rfl⟩
      · refine ⟨new, hentries, ?_⟩
        cases i.result with
        | none => exact hids
        | some id => exact hids.cons id
      · refine ⟨(id, c) :: new, ?_, ?_⟩
        · rw [hentries, add, List.append_assoc, List.singleton_append]
        · rw [hid]
          exact hids.cons_cons id

/-- The first entry of a kind is of the first declaration of that kind. -/
theorem find?_readAll {p : Constant → Bool} {q : Instruction → Bool}
    (hdeclared : ∀ t i type c, i.isConstant = true → i.type.bind types.type? = some type →
      declared t i type = .ok c → p c = q i)
    (hother : ∀ i, i.isConstant = false → q i = false)
    (h : t.readAll types is = (.ok (), t')) :
    (t'.entries.find? fun entry => p entry.2).map (fun entry => some entry.1)
      = ((t.entries.find? fun entry => p entry.2).map fun entry => some entry.1).or
        ((is.find? q).map Instruction.result) := by
  -- an entry is added at the end, so what the table holds already comes first
  induction is generalizing t with
  | nil =>
    cases h
    exact (Option.or_none).symm
  | cons i is ih =>
    obtain ⟨t₁, hread, hrest⟩ := readAll_cons_eq_ok_iff.1 h
    rw [ih hrest]
    obtain ⟨hconstant, rfl⟩ | ⟨id, type, c, hconstant, hid, htype, hc, rfl⟩ :=
      read_eq_ok_iff.1 hread
    · rw [List.find?_cons_of_neg (by simp [hother i hconstant])]
    · have hsame := hdeclared t i type c hconstant htype hc
      rw [add, List.find?_append, List.find?_singleton, hsame, Option.map_or, Option.or_assoc]
      cases hq : q i with
      | true =>
        rw [List.find?_cons_of_pos hq, Option.map_some, hid]
        rfl
      | false =>
        rw [List.find?_cons_of_neg (by simp [hq])]
        rfl

/-- The constants that can be declared, given those that are.  Integers are bit patterns. -/
inductive Formed (t : ConstantTable) : Constant → Prop
  | integer {w : Nat} {s : Bool} {n : Int} (h0 : 0 ≤ n) (hn : n < 2 ^ w) :
      Formed t (.scalar (.int w s) (.int n))
  | scalar {type : Ty} {v : Number} (htype : ∀ w s, type ≠ .int w s) : Formed t (.scalar type v)
  | bool {type : Ty} {b : Bool} : Formed t (.bool type b)
  | composite {type : Ty} {cs : List Id} (hcs : ∀ c ∈ cs, t.isDeclared c = true) :
      Formed t (.composite type cs)
  | null {type : Ty} : Formed t (.null type)

theorem Formed.add {c : Constant} (h : Formed t c) (id : Id) (new : Constant) :
    Formed (t.add id new) c := by
  cases h with
  | integer h0 hn => exact .integer h0 hn
  | scalar htype => exact .scalar htype
  | bool => exact .bool
  | composite hcs => exact .composite fun c hc => isDeclared_add (hcs c hc)
  | null => exact .null

theorem formed_of_ofLiteral {type : Ty} {v : Number} {c : Constant}
    (h : Constant.ofLiteral type v = .ok c) : Formed t c := by
  obtain ⟨w, s, n, rfl, rfl, -, rfl⟩ | ⟨hother, rfl⟩ := Constant.ofLiteral_cases h
  · exact .integer (Integer.low_nonneg w n) (Integer.low_lt w n)
  · exact .scalar hother

/-- A literal is a scalar. -/
theorem exists_scalar_of_ofLiteral {type : Ty} {v : Number} {c : Constant}
    (h : Constant.ofLiteral type v = .ok c) : ∃ v', c = .scalar type v' := by
  obtain ⟨w, s, n, rfl, rfl, -, rfl⟩ | ⟨-, rfl⟩ := Constant.ofLiteral_cases h
  · exact ⟨_, rfl⟩
  · exact ⟨_, rfl⟩

theorem components_spec {cs : List Id} (h : t.components i = .ok cs) :
    List.Forall₂ (fun operand c => operand.id? = some c ∧ t.isDeclared c = true) i.operands cs := by
  refine (mapM_eq_ok_iff.1 h).imp fun operand c hread => ?_
  split at hread
  · next id hid =>
    split at hread
    · next hdeclared =>
      cases hread
      exact ⟨hid, hdeclared⟩
    · simp only [bind_eq_ok_iff] at hread
      obtain ⟨-, -, -, -, -, -, ⟨⟩⟩ := hread
  · simp only [bind_eq_ok_iff] at hread
    obtain ⟨-, -, -, -, -, -, ⟨⟩⟩ := hread

/-- The four kinds of constants that an instruction may declare. -/
theorem declared_cases {type : Ty} {c : Constant} (h : t.declared i type = .ok c) :
    (i.opcode = "OpConstant" ∧ ∃ value spelling,
        i.operands[0]? = some (.literal value spelling) ∧ Constant.ofLiteral type value = .ok c) ∨
      ((i.opcode = "OpConstantTrue" ∨ i.opcode = "OpConstantFalse") ∧ type = .bool ∧
        c = .bool .bool (i.opcode == "OpConstantTrue")) ∨
      (i.opcode = "OpConstantComposite" ∧ ∃ cs, t.components i = .ok cs ∧ c = .composite type cs) ∨
      (i.opcode ≠ "OpConstant" ∧ i.opcode ≠ "OpConstantTrue" ∧ i.opcode ≠ "OpConstantFalse" ∧
        i.opcode ≠ "OpConstantComposite" ∧ c = .null type) := by
  rw [declared.eq_def] at h
  split at h
  · next hopcode =>
    split at h
    · cases h
    · next value spelling hoperand => exact .inl ⟨hopcode, value, spelling, hoperand, h⟩
    · simp only [bind_eq_ok_iff] at h
      obtain ⟨-, -, ⟨⟩⟩ := h
  · next hopcode =>
    split at h
    · cases h
      exact .inr (.inl ⟨.inl hopcode, rfl, rfl⟩)
    · simp only [bind_eq_ok_iff] at h
      obtain ⟨-, -, -, -, ⟨⟩⟩ := h
  · next hopcode =>
    split at h
    · cases h
      exact .inr (.inl ⟨.inr hopcode, rfl, rfl⟩)
    · simp only [bind_eq_ok_iff] at h
      obtain ⟨-, -, -, -, ⟨⟩⟩ := h
  · next hopcode =>
    rw [bind_eq_ok_iff] at h
    obtain ⟨cs, hcs, heq⟩ := h
    cases heq
    exact .inr (.inr (.inl ⟨hopcode, cs, hcs, rfl⟩))
  · next hscalar htrue hfalse hcomposite =>
    cases h
    exact .inr (.inr (.inr ⟨hscalar, htrue, hfalse, hcomposite, rfl⟩))

theorem formed_of_declared {type : Ty} {c : Constant} (h : t.declared i type = .ok c) :
    Formed t c := by
  rcases declared_cases h with ⟨-, value, -, -, hliteral⟩ | ⟨-, -, rfl⟩ | ⟨-, cs, hcs, rfl⟩ |
    ⟨-, -, -, -, rfl⟩
  · exact formed_of_ofLiteral hliteral
  · exact .bool
  · refine .composite fun c hc => ?_
    obtain ⟨operand, -, -, hdeclared⟩ := exists_left_of_mem (components_spec hcs) hc
    exact hdeclared
  · exact .null

/-- What a table holds after instructions have been read. -/
structure ReadFrom (is : List Instruction) (t : ConstantTable) : Prop where
  ids : (t.entries.map Prod.fst).Sublist (is.filterMap Instruction.result)
  formed : ∀ entry ∈ t.entries, Formed t entry.2

theorem ReadFrom.append (h : t.ReadFrom is) (js : List Instruction) : t.ReadFrom (is ++ js) := by
  refine ⟨?_, h.formed⟩
  rw [List.filterMap_append]
  exact h.ids.trans (List.sublist_append_left _ _)

theorem ReadFrom.read (h : t.ReadFrom is) (hread : t.read types i = .ok t') :
    t'.ReadFrom (is ++ [i]) := by
  rcases read_eq_ok_iff.1 hread with ⟨-, rfl⟩ | ⟨id, type, c, -, hid, -, hc, rfl⟩
  · exact h.append _
  · refine ⟨?_, fun entry hentry => ?_⟩
    · rw [add, List.map_append, List.filterMap_append]
      refine h.ids.append ?_
      simp [hid]
    · rcases List.mem_append.1 hentry with hentry | hentry
      · exact (h.formed entry hentry).add id c
      · rw [List.mem_singleton.1 hentry]
        exact (formed_of_declared hc).add id c

theorem ReadFrom.readAll (h : t.ReadFrom is) (js : List Instruction) :
    (t.readAll types js).2.ReadFrom (is ++ js) := by
  induction js generalizing t is with
  | nil => exact h.append []
  | cons j js ih =>
    rw [ConstantTable.readAll, List.append_cons]
    cases hread : t.read types j with
    | ok t' => exact ih (h.read hread)
    | error e => exact (h.append [j]).append js

theorem readFrom_analyze (types : TypeTable) (m : Module) :
    (analyze types m).2.ReadFrom m.globals := by
  have hstart : ReadFrom [] {} := ⟨List.Sublist.refl [], fun _ h => absurd h List.not_mem_nil⟩
  exact hstart.readAll m.globals

end ConstantTable
end ShiftBarrier
