import ShiftBarrier.Proofs.Barrier.Rewriting

/-!
# The tables of the module after a run

The new declarations come after the old ones and declare no types.  So the types are read again as
they were, and so are the constants of old ids, however far the reading comes.

* `Outcome.declaredTypes_eq` and `Outcome.constant?_eq` say so.
* `Declaration.Fits` tells the constants that can be read again: an integer cannot if the power of
  two that it is cut by is too long.
* `Outcome.ofModule_eq_ok_iff` says when the whole module can be analysed again, if no id was
  defined twice, and that the tables are then those that the run left behind.
-/

set_option autoImplicit false

namespace ShiftBarrier
namespace Barrier

namespace Outcome

variable {m m' : Module} {es : List Event} {status : PassStatus} {count : GuardCount}

theorem analyze_types_eq (h : Outcome m es status count m') :
    TypeTable.analyze m' = TypeTable.analyze m := by
  have hdeclared : ∀ t : TypeTable,
      t.readAll ((declarations es).map Declaration.instruction) = (.ok (), t) := by
    intro t
    refine TypeTable.readAll_of_not_isType fun i hi => ?_
    obtain ⟨d, -, rfl⟩ := List.mem_map.1 hi
    exact isType_of_mem_constants (opcode_mem_constants d.constant)
  rw [TypeTable.analyze, TypeTable.analyze, h.target, rewritten, TypeTable.readAll_append]
  rcases TypeTable.readAll {} m.globals with ⟨_ | ⟨⟨⟩⟩, t⟩
  · rfl
  · exact hdeclared t

theorem declaredTypes_eq (h : Outcome m es status count m') :
    m'.declaredTypes = m.declaredTypes := by
  rw [Module.declaredTypes, Module.declaredTypes, h.analyze_types_eq]

theorem declaredConstants_entries (h : Outcome m es status count m') :
    ∃ new, m'.declaredConstants.entries = m.declaredConstants.entries ++ new ∧
      (new.map Prod.fst).Sublist ((declarations es).map Declaration.id) := by
  rw [Module.declaredConstants, Module.declaredConstants, h.declaredTypes_eq,
    ConstantTable.analyze, ConstantTable.analyze, h.target, rewritten,
    ConstantTable.readAll_append]
  rcases ConstantTable.readAll m.declaredTypes {} m.globals with ⟨_ | ⟨⟨⟩⟩, t⟩
  · exact ⟨[], (List.append_nil _).symm, List.nil_sublist _⟩
  · rw [← results_instruction]
    exact ConstantTable.readAll_entries _ t _

/-- **Old ids stand for the constants they stood for.** -/
theorem constant?_eq (hm : m.WellFormed) (h : Outcome m es status count m') {id : Id}
    (hid : id.number < m.bound) :
    m'.declaredConstants.constant? id = m.declaredConstants.constant? id := by
  obtain ⟨new, hentries, hnew⟩ := h.declaredConstants_entries
  have htable : m'.declaredConstants = ⟨m.declaredConstants.entries ++ new⟩ := by
    rw [← hentries]
  rw [htable]
  refine ConstantTable.constant?_append fun entry hentry => ?_
  obtain ⟨d, hd, heq⟩ := List.mem_map.1 (hnew.subset (List.mem_map_of_mem hentry))
  have hge : m.bound ≤ d.id.number := ((h.fresh hm).2 _ (mem_declarations.1 hd)).1
  rw [← heq, Id.same_eq_false_iff]
  omega

theorem isCandidate_eq (hm : m.WellFormed) (h : Outcome m es status count m') {i : Instruction}
    (hi : ∀ id ∈ i.uses, id.Below m.bound) :
    isCandidate m'.declaredConstants i = isCandidate m.declaredConstants i :=
  isCandidate_congr fun id hid => h.constant?_eq hm (hi id hid).2

end Outcome

/-! ## Reading the new declarations

A run enters its zeros in the tables and declares them in the module.  Reading the module again
gives these entries, provided that their types are not too long. -/

/-- A constant whose type is no integer type that is too long for its literals to be read. -/
def Declaration.Fits (d : Declaration) : Prop :=
  ∀ w s, d.constant.type = .int w s → w ≤ Integer.maxBits

section Once

variable {m : Module} {t : ConstantTable} {type : Ty} {c : Constant}

theorem nodup_types (honce : m.DefinedOnce) :
    (m.declaredTypes.entries.map (·.1.number)).Nodup := by
  have hsublist := (TypeTable.readFrom_analyze m).ids.map Id.number
  rw [List.map_map] at hsublist
  exact honce.nodup_globals.sublist hsublist

theorem nodup_declaredConstants (honce : m.DefinedOnce) :
    (m.declaredConstants.entries.map (·.1.number)).Nodup := by
  have hsublist := ((ConstantTable.readFrom_analyze m.declaredTypes m).ids).map Id.number
  rw [List.map_map] at hsublist
  exact honce.nodup_globals.sublist hsublist

theorem type?_of_id? (honce : m.DefinedOnce) {id : Id} (h : m.declaredTypes.id? type = some id) :
    ∃ found, found.same type = true ∧ m.declaredTypes.type? id = some found := by
  obtain ⟨found, hsame, hmem⟩ := TypeTable.mem_of_id? h
  exact ⟨found, hsame, TypeTable.type?_of_mem (nodup_types honce) hmem⟩

/-- If no type is declared twice, a zero is a zero of the type it was made for. -/
theorem IsZeroOf.cases_of_once (honce : m.DefinedOnce) (h : IsZeroOf m.declaredTypes t type c) :
    (∃ w s, type = .int w s ∧ c = .zero w s) ∨
      ∃ w s n z, type = .vector (.int w s) n ∧ c = .composite type (List.replicate n z) ∧
        t.id? (.zero w s) = some z := by
  cases h with
  | @scalar w s => exact .inl ⟨w, s, rfl, rfl⟩
  | @vector w n s z id element hz hid htype =>
    obtain ⟨found, hsame, hfound⟩ := type?_of_id? honce hid
    rw [htype, Ty.same_vector_int_iff.1 hsame] at hfound
    cases hfound
    exact .inr ⟨w, s, n, z, rfl, rfl, hz⟩

theorem IsZeroOf.type?_eq (honce : m.DefinedOnce) (h : IsZeroOf m.declaredTypes t type c) {id : Id}
    (hid : m.declaredTypes.id? c.type = some id) :
    m.declaredTypes.type? id = some c.type := by
  obtain ⟨found, hsame, hfound⟩ := type?_of_id? honce hid
  rcases h.cases_of_once honce with ⟨w, s, rfl, rfl⟩ | ⟨w, s, n, z, rfl, rfl, -⟩
  · rw [hfound, Ty.same_int_iff.1 hsame]
    rfl
  · rw [hfound, Ty.same_vector_int_iff.1 hsame]
    rfl

theorem declared_zero {w : Nat} {s : Bool} {id typeId : Id} {serial : Nat} :
    t.declared (Declaration.instruction ⟨id, .zero w s, typeId, serial⟩) (.int w s)
      = if w ≤ Integer.maxBits then .ok (.zero w s) else .error (.tooLong w) := by
  show Constant.ofLiteral (.int w s) (.int 0) = _
  rw [Constant.ofLiteral, Integer.checkBits]
  split
  · rfl
  · rfl

theorem declared_zeros {n : Nat} {z id typeId : Id} {serial : Nat} (hz : t.isDeclared z = true) :
    t.declared (Declaration.instruction ⟨id, .composite type (List.replicate n z), typeId, serial⟩)
      type = .ok (.composite type (List.replicate n z)) := by
  have hcomponents : t.components (Declaration.instruction
      ⟨id, .composite type (List.replicate n z), typeId, serial⟩) = .ok (List.replicate n z) := by
    show ((List.replicate n z).map Operand.id).mapM _ = _
    rw [mapM_eq_ok_iff, List.forall₂_map_left_iff, List.forall₂_same]
    intro c hc
    rw [List.eq_of_mem_replicate hc, Operand.id?]
    dsimp only
    rw [if_pos hz]
    rfl
  show (t.components _ >>= fun cs => .ok (Constant.composite type cs)) = _
  rw [hcomponents]
  rfl

/-- A new declaration is read as what it was made for, unless its type is too long. -/
theorem read_instruction (honce : m.DefinedOnce) {d : Declaration}
    (hzero : IsZeroOf m.declaredTypes t type d.constant)
    (hid : m.declaredTypes.id? d.constant.type = some d.type) :
    (d.Fits ∧ t.read m.declaredTypes d.instruction = .ok (t.add d.id d.constant)) ∨
      ¬ d.Fits ∧ ∃ e, t.read m.declaredTypes d.instruction = .error e := by
  have htype := hzero.type?_eq honce hid
  have hconstant : d.instruction.isConstant = true :=
    List.contains_iff_mem.2 (opcode_mem_constants d.constant)
  have hread : t.read m.declaredTypes d.instruction
      = (t.declared d.instruction d.constant.type).map (t.add d.id) := by
    have hbind : d.instruction.type.bind m.declaredTypes.type? = some d.constant.type := htype
    rw [ConstantTable.read, if_pos hconstant, hbind]
    dsimp only [Declaration.instruction]
    cases t.declared d.instruction d.constant.type <;> rfl
  rw [hread]
  obtain ⟨id, constant, typeId, serial⟩ := d
  rcases hzero.cases_of_once honce with ⟨w, s, rfl, rfl⟩ | ⟨w, s, n, z, rfl, rfl, hz⟩
  · have htypeOf : (Constant.zero w s).type = .int w s := rfl
    rw [htypeOf, declared_zero]
    by_cases hw : w ≤ Integer.maxBits
    · refine .inl ⟨fun w' s' heq => ?_, by rw [if_pos hw]; rfl⟩
      cases heq
      exact hw
    · exact .inr ⟨fun hfits => hw (hfits w s rfl), _, by rw [if_neg hw]; rfl⟩
  · obtain ⟨found, -, hmem⟩ := ConstantTable.mem_of_id? hz
    have htypeOf : (Constant.composite (.vector (.int w s) n) (List.replicate n z)).type
        = .vector (.int w s) n := rfl
    refine .inl ⟨fun w' s' heq => (by cases heq), ?_⟩
    rw [htypeOf, declared_zeros (ConstantTable.isDeclared_of_mem hmem)]
    rfl

/-- **Reading the new declarations** gives the table that the run left behind. -/
theorem readAll_declarations (honce : m.DefinedOnce) {log : Log} {r : Registry} {es : List Event}
    (hsteps : Steps (Registry.start m log) es r) :
    ((∀ d ∈ declarations es, d.Fits) ∧ m.declaredConstants.readAll m.declaredTypes
        ((declarations es).map Declaration.instruction) = (.ok (), r.constants)) ∨
      (¬ ∀ d ∈ declarations es, d.Fits) ∧ ∃ e, (m.declaredConstants.readAll m.declaredTypes
        ((declarations es).map Declaration.instruction)).1 = .error e := by
  -- the table grows with the run, and reading what was declared so far gives it at every step
  generalize hstart : Registry.start m log = start at hsteps
  induction hsteps with
  | refl =>
    subst hstart
    exact .inl ⟨fun d hd => absurd hd List.not_mem_nil, rfl⟩
  | @tail r r' es e hsteps hstep ih =>
    cases hstep with
    | @guarded g log' hdue =>
      have hlast : declarations [Event.guarded g] = [] := rfl
      rw [declarations_append, hlast, List.append_nil]
      exact ih
    | @declared d log' hdue =>
      subst hstart
      have hlast : declarations [Event.declared d] = [d] := rfl
      have htypes : r.types = m.declaredTypes := hsteps.types_eq
      obtain ⟨type, hzero⟩ := hdue.zero
      have hid := hdue.type
      rw [htypes] at hzero hid
      rw [declarations_append, hlast, List.map_append, List.map_singleton]
      rcases ih with ⟨hfits, hread⟩ | ⟨hnot, e, hread⟩
      · rw [ConstantTable.readAll_append_of_ok hread]
        rcases read_instruction honce hzero hid with ⟨hfit, hnew⟩ | ⟨hnot, e, hnew⟩
        · refine .inl ⟨fun d' hd' => ?_, ?_⟩
          · rcases List.mem_append.1 hd' with hd' | hd'
            · exact hfits d' hd'
            · exact List.mem_singleton.1 hd' ▸ hfit
          · exact ConstantTable.readAll_cons_eq_ok_iff.2 ⟨_, hnew, rfl⟩
        · refine .inr ⟨fun hall => hnot (hall d ?_), e, ?_⟩
          · exact List.mem_append_right _ (List.mem_singleton_self d)
          · rw [ConstantTable.readAll, hnew]
      · -- reading ended before it came to the last declaration
        exact .inr ⟨fun hall => hnot fun d' hd' => hall d' (List.mem_append_left _ hd'), e,
          ConstantTable.readAll_append_of_error hread _⟩

/-- **When the module can be analysed again**, and what comes of it. -/
theorem Outcome.ofModule_eq_ok_iff {m' : Module} {es : List Event} {status : PassStatus}
    {count : GuardCount} (honce : m.DefinedOnce) {r : Registry} (hr : Registry.ofModule m = .ok r)
    (h : Outcome m es status count m') {r' : Registry} :
    Registry.ofModule m' = .ok r' ↔ (∀ d ∈ declarations es, d.Fits) ∧
      r' = ⟨⟨m', m.declaredTypes, []⟩, constantsWith m (declarations es)⟩ := by
  obtain ⟨htypes, hconstants, -⟩ := Registry.ofModule_eq_ok_iff.1 hr
  have hread : ConstantTable.readAll m.declaredTypes {} m.globals = (.ok (), m.declaredConstants) :=
    Prod.ext hconstants rfl
  have hanalyze : ConstantTable.analyze m'.declaredTypes m'
      = m.declaredConstants.readAll m.declaredTypes
        ((declarations es).map Declaration.instruction) := by
    rw [h.declaredTypes_eq, ConstantTable.analyze, h.target, rewritten,
      ConstantTable.readAll_append_of_ok hread]
  obtain ⟨log, r, hsteps⟩ := h.steps
  rw [Registry.ofModule_eq_ok_iff, h.analyze_types_eq, Registry.start, Module.declaredConstants,
    hanalyze, h.declaredTypes_eq, ← Outcome.constants_eq hsteps]
  rcases readAll_declarations honce hsteps with ⟨hfits, hnew⟩ | ⟨hnot, e, hnew⟩
  · rw [hnew]
    constructor
    · rintro ⟨-, -, heq⟩
      exact ⟨hfits, heq⟩
    · rintro ⟨-, heq⟩
      exact ⟨htypes, rfl, heq⟩
  · rw [hnew]
    constructor
    · rintro ⟨-, hok, -⟩
      cases hok
    · rintro ⟨hfits, -⟩
      exact absurd hfits hnot

end Once
end Barrier
end ShiftBarrier
