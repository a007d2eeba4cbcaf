import ShiftBarrier.Proofs.Barrier.Allocation
import ShiftBarrier.Proofs.Barrier.Exact
import ShiftBarrier.Proofs.Barrier.Reanalysis
import ShiftBarrier.Proofs.Listing.Printable

/-!
# What the pass needs

Whether the pass succeeds can be read off the module: every candidate must be of an integer or
integer vector type, its line must be writable, and there must be an id for each candidate and for
each zero that is not declared.

* `scalarsMissing`, `vectorsMissing` are the types of the zeros that are not declared.
* `runBarrier_resources` counts what the pass adds, and says when it succeeds.
* `resources_exceptions` shows why the lines must be writable, and why a declared vector of zeros
  counts only if it has as many components as its type.
-/

set_option autoImplicit false

namespace ShiftBarrier
namespace Barrier

/-! ## Declared zeros

The law is said of the instructions of the module.  No table is mentioned in it. -/

/-- The declared type of the result of an instruction. -/
def resultType? (m : Module) (i : Instruction) : Option Ty := i.type.bind m.declaredTypes.type?

/-- Whether an instruction declares a constant of an integer type whose literal is zero in it. -/
def isScalarZero (m : Module) (w : Nat) (s : Bool) (i : Instruction) : Bool :=
  i.opcode == "OpConstant" && resultType? m i == some (.int w s) &&
    match i.operands[0]? with
    | some (Operand.literal (.int n) _) => n % 2 ^ w == 0
    | _ => false

/-- The first declared zero of an integer type. -/
def firstZero? (m : Module) (w : Nat) (s : Bool) : Option Id :=
  (m.globals.find? (isScalarZero m w s)).bind Instruction.result

/-- Whether an instruction declares a vector all of whose lanes are the given id. -/
def isVectorOf (m : Module) (w : Nat) (s : Bool) (n : Nat) (z : Id) (i : Instruction) : Bool :=
  i.opcode == "OpConstantComposite" && resultType? m i == some (.vector (.int w s) n) &&
    (i.operands.length == n && i.operands.all fun operand => operand.id?.any (·.same z))

/-- Whether a vector is declared all of whose lanes are the first zero of theirs. -/
def hasVectorZero (m : Module) (w : Nat) (s : Bool) (n : Nat) : Bool :=
  (firstZero? m w s).any fun z => m.globals.any (isVectorOf m w s n z)

section Declared

variable {m : Module} {t : ConstantTable} {i : Instruction} {type : Ty} {c : Constant}
  {w n : Nat} {s : Bool} {z : Id}

/-- A literal is read as zero if it is a multiple of the modulus of its type. -/
theorem same_zero_of_literal {value : Number} {spelling : Option String}
    (hoperand : i.operands[0]? = some (.literal value spelling)) (hopcode : i.opcode = "OpConstant")
    (htype : resultType? m i = some type) (h : Constant.ofLiteral type value = .ok c) :
    c.same (.zero w s) = isScalarZero m w s i := by
  rw [isScalarZero, hopcode, htype, hoperand]
  obtain ⟨w', s', n, rfl, rfl, -, rfl⟩ | ⟨hother, rfl⟩ := Constant.ofLiteral_cases h
  · rw [Bool.eq_iff_iff]
    simp [Constant.zero, Constant.same, Ty.same, Number.same, Integer.low_eq]
    rintro rfl -
    rfl
  · cases type with
    | int w' s' => exact absurd rfl (hother w' s')
    | _ => rfl

theorem same_zero_of_declared (htype : resultType? m i = some type)
    (h : t.declared i type = .ok c) : c.same (.zero w s) = isScalarZero m w s i := by
  rcases ConstantTable.declared_cases h with ⟨hopcode, value, spelling, hoperand, hliteral⟩ |
    ⟨hopcode | hopcode, -, rfl⟩ | ⟨hopcode, cs, -, rfl⟩ | ⟨hconstant, -, -, -, rfl⟩
  · exact same_zero_of_literal hoperand hopcode htype hliteral
  · rw [isScalarZero, hopcode]
    rfl
  · rw [isScalarZero, hopcode]
    rfl
  · rw [isScalarZero, hopcode]
    rfl
  · rw [isScalarZero, beq_eq_false_iff_ne.2 hconstant]
    rfl

theorem same_zeros_of_declared (htype : resultType? m i = some type)
    (h : t.declared i type = .ok c) :
    c.same (.composite (.vector (.int w s) n) (List.replicate n z)) = isVectorOf m w s n z i := by
  rcases ConstantTable.declared_cases h with ⟨hopcode, value, spelling, -, hliteral⟩ |
    ⟨hopcode | hopcode, -, rfl⟩ | ⟨hopcode, cs, hcs, rfl⟩ | ⟨-, -, -, hcomposite, rfl⟩
  · obtain ⟨v, rfl⟩ := ConstantTable.exists_scalar_of_ofLiteral hliteral
    rw [isVectorOf, hopcode]
    rfl
  · rw [isVectorOf, hopcode]
    rfl
  · rw [isVectorOf, hopcode]
    rfl
  · have hoperands := ConstantTable.components_spec hcs
    have hall : (∀ operand ∈ i.operands, operand.id?.any (·.same z) = true) ↔
        ∀ id ∈ cs, id.same z = true := by
      constructor
      · intro h id hid
        obtain ⟨operand, hoperand, heq, -⟩ := exists_left_of_mem hoperands hid
        have hsame := h operand hoperand
        rwa [heq, Option.any_some] at hsame
      · intro h operand hoperand
        obtain ⟨id, hid, heq, -⟩ := exists_right_of_mem hoperands hoperand
        rw [heq, Option.any_some]
        exact h id hid
    rw [Bool.eq_iff_iff, isVectorOf, hopcode, htype, Constant.same, Bool.and_eq_true,
      Ty.same_vector_int_iff, isEqv_replicate_iff, ← hall, ← hoperands.length_eq]
    simp
  · rw [isVectorOf, beq_eq_false_iff_ne.2 hcomposite]
    rfl

end Declared

/-! ## The zeros of the tables

The first zero that is declared is the one the table gives, so the declarations can be counted
instead of the entries. -/

section Tables

variable {m : Module} (hanalyze : (ConstantTable.analyze m.declaredTypes m).1 = .ok ())
include hanalyze

/-- The first constant of a kind is the first one declared. -/
theorem find?_declaredConstants {p : Constant → Bool} {q : Instruction → Bool}
    (hdeclared : ∀ t i type c, resultType? m i = some type →
      ConstantTable.declared t i type = .ok c → p c = q i)
    (hother : ∀ i, i.isConstant = false → q i = false) :
    (m.declaredConstants.entries.find? fun entry => p entry.2).map (fun entry => some entry.1)
      = (m.globals.find? q).map Instruction.result := by
  have hread : ConstantTable.readAll m.declaredTypes {} m.globals = (.ok (), m.declaredConstants) :=
    Prod.ext hanalyze rfl
  rw [ConstantTable.find?_readAll (fun t i type c _ => hdeclared t i type c) hother hread]
  exact Option.none_or

/-- The table finds the first declared zero. -/
theorem id?_zero (w : Nat) (s : Bool) :
    m.declaredConstants.id? (.zero w s) = firstZero? m w s := by
  have hfind := find?_declaredConstants hanalyze (p := (·.same (.zero w s)))
    (q := isScalarZero m w s) (fun t i type c => same_zero_of_declared) fun i hi => by
      have hopcode : i.opcode ≠ "OpConstant" := by
        intro hopcode
        rw [Instruction.isConstant, hopcode] at hi
        cases hi
      rw [isScalarZero, beq_eq_false_iff_ne.2 hopcode]
      rfl
  rw [ConstantTable.id?, firstZero?]
  revert hfind
  cases m.declaredConstants.entries.find? fun entry => entry.2.same (.zero w s) <;>
    cases m.globals.find? (isScalarZero m w s) <;> exact congrArg Option.join

theorem isSome_id?_zeros (w : Nat) (s : Bool) (n : Nat) (z : Id) :
    (m.declaredConstants.id? (.composite (.vector (.int w s) n) (List.replicate n z))).isSome
      = m.globals.any (isVectorOf m w s n z) := by
  have hfind := find?_declaredConstants hanalyze
    (p := (·.same (.composite (.vector (.int w s) n) (List.replicate n z))))
    (q := isVectorOf m w s n z) (fun t i type c => same_zeros_of_declared) fun i hi => by
      have hopcode : i.opcode ≠ "OpConstantComposite" := by
        intro hopcode
        rw [Instruction.isConstant, hopcode] at hi
        cases hi
      rw [isVectorOf, beq_eq_false_iff_ne.2 hopcode]
      rfl
  have hsome := congrArg Option.isSome hfind
  rw [Option.isSome_map, Option.isSome_map, List.isSome_find?] at hsome
  rw [ConstantTable.id?, Option.isSome_map, List.isSome_find?, hsome, List.isSome_find?]

/-- **The zeros of the table are the declared ones.** -/
theorem hasZero_vector_eq (w : Nat) (s : Bool) (n : Nat) :
    hasZero m.declaredConstants (.vector (.int w s) n) = hasVectorZero m w s n := by
  rw [hasZero, hasVectorZero, id?_zero hanalyze]
  congr 1
  funext z
  exact isSome_id?_zeros hanalyze w s n z

end Tables

/-! ## What is missing -/

/-- Width and signedness of an integer type, or of the lanes of a vector of integers. -/
def lane? : Ty → Option (Nat × Bool)
  | .int w s | .vector (.int w s) _ => some (w, s)
  | _ => none

/-- Width, signedness and number of the lanes of a vector of integers. -/
def vector? : Ty → Option (Nat × Bool × Nat)
  | .vector (.int w s) n => some (w, s, n)
  | _ => none

/-- The integer types of candidates or of their lanes that have no declared zero. -/
def scalarsMissing (m : Module) : Finset (Nat × Bool) :=
  {type ∈ ((candidates m).filterMap fun i => (resultType? m i).bind lane?).toFinset |
    firstZero? m type.1 type.2 = none}

/-- The integer vector types of candidates that have no declared zero. -/
def vectorsMissing (m : Module) : Finset (Nat × Bool × Nat) :=
  {type ∈ ((candidates m).filterMap fun i => (resultType? m i).bind vector?).toFinset |
    hasVectorZero m type.1 type.2.1 type.2.2 = false}

section Missing

variable {m : Module} {i : Instruction} {w n : Nat} {s : Bool}

theorem int_mem_needsOf :
    .int w s ∈ needsOf m.declaredTypes i ↔ (resultType? m i).bind lane? = some (w, s) := by
  rw [needsOf, resultType?]
  cases i.type.bind m.declaredTypes.type? with
  | none => simp
  | some type =>
    rw [Option.elim_some, Option.bind_some]
    cases type with
    | vector element n => cases element <;> simp [needs, lane?, eq_comm]
    | _ => simp [needs, lane?, eq_comm]

theorem vector_mem_needsOf :
    .vector (.int w s) n ∈ needsOf m.declaredTypes i ↔
      (resultType? m i).bind vector? = some (w, s, n) := by
  rw [needsOf, resultType?]
  cases i.type.bind m.declaredTypes.type? with
  | none => simp
  | some type =>
    rw [Option.elim_some, Option.bind_some]
    cases type with
    | vector element n => cases element <;> simp [needs, vector?, eq_comm, and_assoc]
    | _ => simp [needs, vector?]

/-- Nothing but integers and vectors of integers is needed. -/
theorem isIntegral_of_mem_needsOf {types : TypeTable} {type : Ty} (h : type ∈ needsOf types i) :
    type.isIntegral = true := by
  rw [needsOf] at h
  cases hfound : i.type.bind types.type? with
  | none =>
    rw [hfound] at h
    cases h
  | some found =>
    rw [hfound, Option.elim_some] at h
    cases found with
    | int =>
      rw [List.mem_singleton.1 h]
      rfl
    | vector element n =>
      cases element with
      | int =>
        rcases List.mem_cons.1 h with rfl | h
        · rfl
        · rw [List.mem_singleton.1 h]
          rfl
      | _ => cases h
    | _ => cases h

theorem mem_scalarsMissing : (w, s) ∈ scalarsMissing m ↔
    (∃ i ∈ candidates m, (resultType? m i).bind lane? = some (w, s)) ∧
      firstZero? m w s = none := by
  rw [scalarsMissing, Finset.mem_filter, List.mem_toFinset, List.mem_filterMap]

theorem mem_vectorsMissing : (w, s, n) ∈ vectorsMissing m ↔
    (∃ i ∈ candidates m, (resultType? m i).bind vector? = some (w, s, n)) ∧
      hasVectorZero m w s n = false := by
  rw [vectorsMissing, Finset.mem_filter, List.mem_toFinset, List.mem_filterMap]

variable (hanalyze : (ConstantTable.analyze m.declaredTypes m).1 = .ok ())
include hanalyze

theorem int_mem_missing :
    .int w s ∈ missing m.declaredConstants ((candidates m).flatMap (needsOf m.declaredTypes)) ↔
      (w, s) ∈ scalarsMissing m := by
  rw [mem_missing, mem_scalarsMissing, List.mem_flatMap, hasZero_int, id?_zero hanalyze]
  simp only [int_mem_needsOf, Option.isSome_eq_false_iff, Option.isNone_iff_eq_none]

theorem vector_mem_missing :
    .vector (.int w s) n
        ∈ missing m.declaredConstants ((candidates m).flatMap (needsOf m.declaredTypes)) ↔
      (w, s, n) ∈ vectorsMissing m := by
  rw [mem_missing, mem_vectorsMissing, List.mem_flatMap, hasZero_vector_eq hanalyze]
  simp only [vector_mem_needsOf]

/-- **The missing zeros of the tables are the missing declarations.** -/
theorem card_missing_eq :
    (missing m.declaredConstants ((candidates m).flatMap (needsOf m.declaredTypes))).card
      = (scalarsMissing m).card + (vectorsMissing m).card := by
  let int : Nat × Bool → Ty := fun type => .int type.1 type.2
  let vector : Nat × Bool × Nat → Ty := fun type => .vector (.int type.1 type.2.1) type.2.2
  have hint : int.Injective := by
    rintro ⟨w, s⟩ ⟨w', s'⟩ heq
    cases heq
    rfl
  have hvector : vector.Injective := by
    rintro ⟨w, s, n⟩ ⟨w', s', n'⟩ heq
    cases heq
    rfl
  have hdisjoint : Disjoint ((scalarsMissing m).image int) ((vectorsMissing m).image vector) := by
    rw [Finset.disjoint_left]
    intro type htype htype'
    obtain ⟨_, -, rfl⟩ := Finset.mem_image.1 htype
    obtain ⟨_, -, heq⟩ := Finset.mem_image.1 htype'
    cases heq
  have hunion : missing m.declaredConstants ((candidates m).flatMap (needsOf m.declaredTypes))
      = (scalarsMissing m).image int ∪ (vectorsMissing m).image vector := by
    ext type
    rw [Finset.mem_union, Finset.mem_image, Finset.mem_image]
    constructor
    · intro htype
      obtain ⟨i, -, hi⟩ := List.mem_flatMap.1 (mem_missing.1 htype).1
      rcases Ty.cases_of_isIntegral (isIntegral_of_mem_needsOf hi) with
        ⟨w, s, rfl⟩ | ⟨w, s, n, rfl⟩
      · exact .inl ⟨(w, s), (int_mem_missing hanalyze).1 htype, rfl⟩
      · exact .inr ⟨(w, s, n), (vector_mem_missing hanalyze).1 htype, rfl⟩
    · rintro (⟨⟨w, s⟩, htype, rfl⟩ | ⟨⟨w, s, n⟩, htype, rfl⟩)
      · exact (int_mem_missing hanalyze).2 htype
      · exact (vector_mem_missing hanalyze).2 htype
  rw [hunion, Finset.card_union_of_disjoint hdisjoint, Finset.card_image_of_injective _ hint,
    Finset.card_image_of_injective _ hvector]

end Missing

/-! ## The resource law

Temporaries and zeros are counted separately, and their number is compared with the ids that are
left. -/

/-- The tables of a module in which no id is defined twice are in order. -/
theorem orderly_start {m : Module} (hm : m.WellFormed) (honce : m.DefinedOnce) (log : Log) :
    Orderly (Registry.start m log) where
  bound_pos := hm.bound_pos
  formed := (TypeTable.readFrom_analyze m).formed
  types_once := nodup_types honce
  types_valid entry hentry := by
    have hbelow := Outcome.global_below hm
      ((TypeTable.readFrom_analyze m).ids.subset (List.mem_map_of_mem hentry))
    exact bne_iff_ne.2 (Nat.ne_of_gt hbelow.1)
  constants_below entry hentry := constant_below hm hentry
  lanes_below entry hentry id hid := by
    have hformed := (ConstantTable.readFrom_analyze m.declaredTypes m).formed entry hentry
    rcases hconstant : entry.2 with _ | _ | ⟨type, ids⟩ | _
    case composite =>
      rw [hconstant] at hformed hid
      cases hformed with
      | composite hids =>
        obtain ⟨found, hfound, hsame⟩ := ConstantTable.isDeclared_iff.1 (hids id hid)
        have hbelow := constant_below hm hfound
        rw [Id.Below, Id.same_iff.1 hsame] at hbelow
        exact hbelow
    all_goals
      rw [hconstant] at hid
      cases hid

/-- On a fresh cache the pass runs on the tables of the module, if they can be made. -/
theorem runBarrier_of_ofModule {m : Module} {r : Registry} (hr : Registry.ofModule m = .ok r)
    (log : Log) : Pass.runBarrier { target := m, log } =
      Pass.barrierOn m.declaredTypes m.declaredConstants
        { target := m, log,
          cache := ⟨[.types m.declaredTypes, .constants (some m.declaredConstants)]⟩ } := by
  obtain ⟨htypes, hconstants, -⟩ := Registry.ofModule_eq_ok_iff.1 hr
  rw [Pass.runBarrier]
  dsimp only
  rw [Session.tables_run_eq]
  dsimp only
  rw [Cache.requestTypes_empty, htypes]
  dsimp only [Except.map]
  rw [Cache.requestConstants_types, hconstants]
  rfl

/-- If they cannot be made, the pass raises. -/
theorem exists_ofModule_of_runBarrier {m : Module} {log : Log} {run : PassRun} {s : Session}
    {status : PassStatus} (hrun : Pass.runBarrier { target := m, log } = (run, s))
    (hstatus : run.result = .ok status) : ∃ r, Registry.ofModule m = .ok r := by
  have hempty : Cache.Fresh m {} := Cache.Filled.empty.fresh
  obtain ⟨r, -, hr, -⟩ := runBarrier_fresh hempty hrun hstatus
  exact ⟨r, hr⟩

/-- A run on the tables of a module goes through the instructions of all blocks. -/
theorem barrierOn_sweep {m : Module} {log : Log} {cache : Cache} {run : PassRun} {s : Session}
    (hrun : Pass.barrierOn m.declaredTypes m.declaredConstants { target := m, cache, log }
      = (run, s)) :
    ∃ out stop last,
      sweep onInstruction (bodies m) { registry := Registry.start m log } = (out, stop, last) ∧
      (run.result = .ok .changed ∨ run.result = .ok .unchanged ↔ stop = none) ∧
      s.target.bound = last.registry.target.bound := by
  rcases hsweep : sweep onInstruction (bodies m) { registry := Registry.start m log } with
    ⟨out, stop, last⟩
  obtain ⟨functions, hbarrier⟩ := run_of_sweep (r := Registry.start m log) hsweep
  obtain ⟨stop', done, log', hbarrier', hended, -, rfl, -⟩ := barrierOn_eq hrun
  cases hbarrier.symm.trans hbarrier'
  exact ⟨out, stop, last, rfl, hended.succeeds_iff, rfl⟩

/-- The ids that the instructions of blocks refer to. -/
theorem uses_below {m : Module} (hm : m.WellFormed) :
    ∀ i ∈ bodies m, ∀ id ∈ i.uses, id.Below m.bound := fun i hi id hid =>
  hm.below i ((bodies_sublist m).subset hi) id (List.mem_append_right _ hid)

/-- A run that succeeds takes an id for every candidate and for every zero that is missing. -/
theorem barrierOn_bound {m : Module} (hm : m.WellFormed) (honce : m.DefinedOnce) {log : Log}
    {cache : Cache} {run : PassRun} {s : Session}
    (hrun : Pass.barrierOn m.declaredTypes m.declaredConstants { target := m, cache, log }
      = (run, s)) (hsuccess : run.result = .ok .changed ∨ run.result = .ok .unchanged) :
    s.target.bound = m.bound + (candidates m).length +
      (missing m.declaredConstants
        ((candidates m).flatMap (needsOf m.declaredTypes))).card := by
  obtain ⟨out, stop, last, hsweep, hsucceeds, hbound⟩ := barrierOn_sweep hrun
  obtain rfl := hsucceeds.1 hsuccess
  have hsupplied := sweep_supplied (s := { registry := Registry.start m log })
    (orderly_start hm honce log) (uses_below hm) hsweep rfl
  rw [hbound, hsupplied.bound]
  rfl

/-- A run of all candidates, or the end of it before that. -/
theorem barrierOn_law {m : Module} (hm : m.WellFormed) (honce : m.DefinedOnce)
    (hregular : ∀ i ∈ bodies m, Regular i) (log : Log) (cache : Cache) {run : PassRun}
    {s : Session} (hrun : Pass.barrierOn m.declaredTypes m.declaredConstants
      { target := m, cache, log } = (run, s)) :
    (run.result = .ok .changed ∨ run.result = .ok .unchanged ↔
      Affordable (Registry.start m log) (candidates m)) ∧
    (Affordable (Registry.start m log) (candidates m) →
      s.target.bound = m.bound + (candidates m).length +
        (missing m.declaredConstants
          ((candidates m).flatMap (needsOf m.declaredTypes))).card) := by
  obtain ⟨out, stop, last, hsweep, hsucceeds, -⟩ := barrierOn_sweep hrun
  have hlaw : run.result = .ok .changed ∨ run.result = .ok .unchanged ↔
      Affordable (Registry.start m log) (candidates m) :=
    hsucceeds.trans (sweep_law (s := { registry := Registry.start m log })
      (orderly_start hm honce log) hregular (uses_below hm) hsweep rfl)
  exact ⟨hlaw, fun haffordable => barrierOn_bound hm honce hrun (hlaw.2 haffordable)⟩

/-- On a fresh cache the pass succeeds if and only if the ids suffice for all candidates. -/
theorem runBarrier_law {settings : Settings} {source : String} {m : Module}
    (hparse : Assembly.parse settings source = .ok m) (honce : m.DefinedOnce) {r : Registry}
    (hr : Registry.ofModule m = .ok r)
    (hshifts : ∀ i ∈ bodies m, i.opcode = "OpShiftLeftLogical" →
      2 ≤ i.operands.length ∧ i.result.isSome = true)
    {log : Log} {run : PassRun} {s : Session}
    (hrun : Pass.runBarrier { target := m, log } = (run, s)) :
    (run.result = .ok .changed ∨ run.result = .ok .unchanged ↔
      Affordable (Registry.start m log) (candidates m)) ∧
    (Affordable (Registry.start m log) (candidates m) →
      s.target.bound = m.bound + (candidates m).length +
        (missing m.declaredConstants
          ((candidates m).flatMap (needsOf m.declaredTypes))).card) := by
  obtain ⟨-, ids, hprintable⟩ := Assembly.printable_of_parse hparse
  have hregular : ∀ i ∈ bodies m, Regular i := by
    intro i hi hopcode
    obtain ⟨hoperands, hresult⟩ := hshifts i hi hopcode
    have hlisted := Module.mem_listed.2 (.inl ((bodies_sublist m).subset hi))
    have htyped := (hprintable.within i hlisted).printable.typed
    rw [hresult, hopcode] at htyped
    exact ⟨hoperands, htyped, hresult⟩
  rw [runBarrier_of_ofModule hr] at hrun
  exact barrierOn_law (Assembly.wellFormed_of_parse hparse) honce hregular log _ hrun

/-- The ids that are needed, counted by kind. -/
theorem affordable_start_iff {m : Module}
    (hanalyze : (ConstantTable.analyze m.declaredTypes m).1 = .ok ()) (log : Log) :
    Affordable (Registry.start m log) (candidates m) ↔
      candidates m = [] ∨
        (∀ i ∈ candidates m,
          (resultType? m i).any Ty.isIntegral = true ∧ ∃ text, i.text = .ok text) ∧
        m.bound + (candidates m).length + (scalarsMissing m).card + (vectorsMissing m).card
          ≤ m.maxIdBound := by
  have hguardable : ∀ i, Guardable (Registry.start m log).types i ↔
      (resultType? m i).any Ty.isIntegral = true ∧ ∃ text, i.text = .ok text :=
    fun i => ⟨fun h => ⟨h.integral, h.writable⟩, fun h => ⟨h.1, h.2⟩⟩
  have hcard : (missing (Registry.start m log).constants
      ((candidates m).flatMap (needsOf (Registry.start m log).types))).card
        = (scalarsMissing m).card + (vectorsMissing m).card := card_missing_eq hanalyze
  simp only [Affordable, hguardable, hcard, ← Nat.add_assoc]
  rfl

/-- A run that succeeds guards all candidates; whatever else it adds are constants. -/
theorem Outcome.globals_of_success {m m' : Module} {es : List Event} {status : PassStatus}
    {count : GuardCount} (h : Outcome m es status count m') (hstatus : status ≠ .failure) :
    ∃ new, m'.globals = m.globals ++ new ∧
      m'.bound = m.bound + (candidates m).length + new.length ∧ ∀ i ∈ new, i.isType = false := by
  refine ⟨(declarations es).map Declaration.instruction, ?_, ?_, ?_⟩
  · rw [h.target, rewritten]
  · have hguards : (guards es).length = (candidates m).length := by
      have hle := h.first.length_le
      have hnot := mt statusAfter_eq_failure_iff.2 (h.status ▸ hstatus)
      rw [List.length_map] at hle
      omega
    have hlength := (perm_events Event.id es).length_eq
    rw [List.length_append, List.length_map, List.length_map, List.length_map] at hlength
    rw [h.bound_eq, List.length_map]
    omega
  · intro i hi
    obtain ⟨d, -, rfl⟩ := List.mem_map.1 hi
    exact isType_of_mem_constants (opcode_mem_constants d.constant)

/-- **When the pass succeeds, and what it adds.** -/
theorem runBarrier_resources {settings : Settings} {source : String} {m : Module}
    (hparse : Assembly.parse settings source = .ok m) (honce : m.DefinedOnce) {r : Registry}
    (hr : Registry.ofModule m = .ok r)
    (hshifts : ∀ i ∈ bodies m, i.opcode = "OpShiftLeftLogical" →
      2 ≤ i.operands.length ∧ i.result.isSome = true)
    {log : Log} {run : PassRun} {s : Session}
    (hrun : Pass.runBarrier { target := m, log } = (run, s)) :
    (run.result = .ok .changed ∨ run.result = .ok .unchanged ↔
      candidates m = [] ∨
        (∀ i ∈ candidates m,
          (resultType? m i).any Ty.isIntegral = true ∧ ∃ text, i.text = .ok text) ∧
        m.bound + (candidates m).length + (scalarsMissing m).card + (vectorsMissing m).card
          ≤ m.maxIdBound) ∧
    (run.result = .ok .changed ∨ run.result = .ok .unchanged →
      s.target.bound
        = m.bound + (candidates m).length + (scalarsMissing m).card + (vectorsMissing m).card ∧
      ∃ new, s.target.globals = m.globals ++ new ∧
        new.length = (scalarsMissing m).card + (vectorsMissing m).card ∧
        ∀ i ∈ new, i.isType = false) := by
  have hm := Assembly.wellFormed_of_parse hparse
  obtain ⟨-, hconstants, -⟩ := Registry.ofModule_eq_ok_iff.1 hr
  obtain ⟨hsucceeds, hbound⟩ := runBarrier_law hparse honce hr hshifts hrun
  rw [card_missing_eq hconstants, ← Nat.add_assoc] at hbound
  refine ⟨hsucceeds.trans (affordable_start_iff hconstants log), fun hsuccess => ?_⟩
  have hbound := hbound (hsucceeds.1 hsuccess)
  have hstatus : ∃ status, run.result = .ok status ∧ status ≠ .failure := by
    rcases hsuccess with h | h
    · exact ⟨_, h, nofun⟩
    · exact ⟨_, h, nofun⟩
  obtain ⟨status, hresult, hstatus⟩ := hstatus
  obtain ⟨es, count, -, houtcome⟩ :=
    runBarrier_outcome hm Cache.Reachable.empty.sound hrun hresult
  obtain ⟨new, hglobals, hbound', htypes⟩ := houtcome.globals_of_success hstatus
  refine ⟨hbound, new, hglobals, ?_, htypes⟩
  dsimp only at hbound'
  omega

/-- One guard and one zero. -/
theorem runBarrier_resources_sample :
    Assembly.parse {} sampleText = .ok sample ∧ sample.DefinedOnce ∧
      (∃ r, Registry.ofModule sample = .ok r) ∧
      (∀ i ∈ bodies sample, i.opcode = "OpShiftLeftLogical" →
        2 ≤ i.operands.length ∧ i.result.isSome = true) ∧
      (candidates sample).length = 1 ∧ (scalarsMissing sample).card = 1 ∧
      (vectorsMissing sample).card = 0 ∧
      (Pass.runBarrier { target := sample }).2.target.bound = 9 := by
  have honce : sample.DefinedOnce := by
    rw [Module.DefinedOnce]
    decide
  have hshifts : ∀ i ∈ bodies sample, i.opcode = "OpShiftLeftLogical" →
      2 ≤ i.operands.length ∧ i.result.isSome = true := by decide
  have hrun : Pass.runBarrier { target := sample } = (_, _) := Prod.mk.eta.symm
  obtain ⟨-, hadded⟩ := runBarrier_resources parse_sample honce rfl hshifts hrun
  exact ⟨parse_sample, honce, ⟨_, rfl⟩, hshifts, rfl, rfl, rfl, (hadded (.inl status_sample)).1⟩

/-! ### A literal that cannot be written -/

/-- The sample, but that it shifts a hexadecimal number. -/
def hexShiftLines (digits : List Char) : List String :=
  ["%1 = OpTypeInt 32 0", "%2 = OpConstant %1 3", "%3 = OpFunction %1 None %1",
    "%4 = OpFunctionParameter %1", "%5 = OpLabel",
    "%6 = OpShiftLeftLogical %1 " ++ String.ofList ('0' :: 'x' :: digits) ++ " %2",
    "OpReturnValue %6", "OpFunctionEnd"]

/-- A module with a shift of the number `n`, which a text may give in hexadecimal. -/
def hexShift (n : Nat) : Module :=
  { sample with
    functions :=
      [{ id := ⟨3, none⟩
         definition :=
           { opcode := "OpFunction", type := some ⟨1, none⟩, result := some ⟨3, none⟩,
             operands := [.enumerant "None", .id ⟨1, none⟩], serial := 2 }
         params :=
           [{ opcode := "OpFunctionParameter", type := some ⟨1, none⟩, result := some ⟨4, none⟩,
              serial := 3 }]
         blocks :=
           [{ label := ⟨5, none⟩
              instructions :=
                [{ opcode := "OpShiftLeftLogical", type := some ⟨1, none⟩,
                   result := some ⟨6, none⟩,
                   operands := [.literal (.int n) none, .id ⟨2, none⟩], serial := 4 },
                 { opcode := "OpReturnValue", operands := [.id ⟨6, none⟩], serial := 5 }] }] }] }

/-- The numbers of the lines matter to messages only. -/
theorem build_hexShift {n : Nat} {sources : List SourceInstruction}
    (h : List.Forall₂ (fun i s => ∃ line, s = i.source line) (hexShift n).listed sources) :
    Assembly.build {} sources = .ok (hexShift n) := by
  rcases h with _ | ⟨⟨l₁, rfl⟩, _ | ⟨⟨l₂, rfl⟩, _ | ⟨⟨l₃, rfl⟩, _ | ⟨⟨l₄, rfl⟩,
    _ | ⟨⟨l₅, rfl⟩, _ | ⟨⟨l₆, rfl⟩, _ | ⟨⟨l₇, rfl⟩, _ | ⟨⟨l₈, rfl⟩, _ | _⟩⟩⟩⟩⟩⟩⟩⟩
  have hkeys : Id.key ⟨1, none⟩ = "1" ∧ Id.key ⟨2, none⟩ = "2" ∧ Id.key ⟨3, none⟩ = "3" ∧
      Id.key ⟨4, none⟩ = "4" ∧ Id.key ⟨5, none⟩ = "5" ∧ Id.key ⟨6, none⟩ = "6" := by decide
  let ids : Numbering := ⟨["1", "2", "1", "3", "1", "1", "4", "1", "5", "6", "1", "2", "6"].zip
    ([1, 2, 1, 3, 1, 1, 4, 1, 5, 6, 1, 2, 6].map fun number => ⟨number, none⟩)⟩
  have hids : ids.id "1" = ⟨1, none⟩ ∧ ids.id "2" = ⟨2, none⟩ ∧ ids.id "3" = ⟨3, none⟩ ∧
      ids.id "4" = ⟨4, none⟩ ∧ ids.id "5" = ⟨5, none⟩ ∧ ids.id "6" = ⟨6, none⟩ := by decide
  have htyped : Opcode.hasResultType "OpTypeInt" = false ∧
      Opcode.hasResultType "OpConstant" = true ∧ Opcode.hasResultType "OpFunction" = true ∧
      Opcode.hasResultType "OpFunctionParameter" = true ∧
      Opcode.hasResultType "OpLabel" = false ∧
      Opcode.hasResultType "OpShiftLeftLogical" = true := by decide
  have houtside : Opcode.isPreamble "OpTypeInt" = false ∧
      Opcode.isPreamble "OpConstant" = false := by decide
  have hstart : ids.ids.foldl Module.reserve (Module.empty {}) = { bound := 7 } := rfl
  simp only [Instruction.source, Instruction.sourceOperands, Operand.source, Block.opening,
    Function.ending, Option.map_some, Option.map_none, Option.toList_some, Option.toList_none,
    List.map_cons, List.map_nil, List.cons_append, List.nil_append, hkeys]
  rw [Assembly.build]
  refine bind_eq_ok_iff.2 ⟨ids, rfl, ?_⟩
  rw [hstart]
  simp [bind, Except.bind, pure, Except.pure, Assembly.resolve, Assembly.resolveOperand, hids,
    htyped, houtside, Assembly.Builder.add, Assembly.Builder.addOutside, Module.addGlobal,
    Assembly.Builder.beginFunction, Module.hasFunction, Module.adopt, Assembly.Builder.addInside,
    Function.hasBlock, Function.labels, Assembly.Builder.appendToLast,
    Assembly.Builder.endFunction, Assembly.Builder.finish, hexShift, sample]

theorem parse_hexShift {digits : List Char} (hne : digits ≠ [])
    (hdigits : ∀ c ∈ digits, Scanner.isHexDigit c = true) :
    Assembly.parse {} (unlines (hexShiftLines digits))
      = .ok (hexShift (Numeral.natOfHex digits)) := by
  -- All lines but one are lines of the sample.
  obtain ⟨-, ids, hprintable⟩ := Assembly.printable_of_parse parse_sample
  have hline : ∀ (k : Nat) (i : Instruction), sample.listed[k]? = some i → i.Printable :=
    fun k i hi => (hprintable.within i (List.mem_of_getElem? hi)).printable
  have hid : ∀ {i : Id} {text key : String}, i.Spelled → i.text = text → i.key = key →
      SourceOperand.Denotes text (.name key) := by
    rintro i _ _ hi rfl rfl
    exact Operand.denotes_id hi
  have hshift : Instruction.Says
      ("%6 = OpShiftLeftLogical %1 " ++ String.ofList ('0' :: 'x' :: digits) ++ " %2")
      { opcode := "OpShiftLeftLogical", type := some ⟨1, none⟩, result := some ⟨6, none⟩,
        operands := [.literal (.int (Numeral.natOfHex digits)) none, .id ⟨2, none⟩],
        serial := 4 } := by
    have hone := hline 5 _ rfl
    refine ⟨hone.opcode, hone.result, ["%1", String.ofList ('0' :: 'x' :: digits), "%2"], ?_, ?_⟩
    · exact .cons (hid (.number (by decide) (by decide)) rfl rfl)
        (.cons (Operand.denotes_hex hne hdigits)
          (.cons (hid (.number (by decide) (by decide)) rfl rfl) .nil))
    · rw [String.toList_append, String.toList_append, String.toList_ofList]
      simp [Instruction.head, Id.key]
      rfl
  have hsays : List.Forall₂ Instruction.Says (hexShiftLines digits)
      (hexShift (Numeral.natOfHex digits)).listed :=
    .cons ((hline 0 _ rfl).says_of_text rfl) (.cons ((hline 1 _ rfl).says_of_text rfl)
      (.cons ((hline 2 _ rfl).says_of_text rfl) (.cons ((hline 3 _ rfl).says_of_text rfl)
        (.cons ((hline 4 _ rfl).says_of_text rfl) (.cons hshift
          (.cons ((hline 6 _ rfl).says_of_text rfl)
            (.cons ((hline 7 _ rfl).says_of_text rfl) .nil)))))))
  obtain ⟨statements, sources, hstatements, hsources, hall⟩ := Statement.ofText_unlines hsays
  rw [Assembly.parse, bind_eq_ok_iff]
  refine ⟨statements, mapError_eq_ok_iff.2 hstatements, ?_⟩
  rw [bind_eq_ok_iff]
  exact ⟨sources, mapError_eq_ok_iff.2 hsources, build_hexShift hall⟩

theorem natOfHex_one_zeros (k : Nat) :
    Numeral.natOfHex ('1' :: List.replicate k '0') = 16 ^ k := by
  have hfold : ∀ k n : Nat, (List.replicate k '0').foldl
      (fun n c => 16 * n + (Literal.hexValue? c).getD 0) n = n * 16 ^ k := by
    intro k
    induction k with
    | zero => intro n; simp
    | succ k ih =>
      intro n
      rw [List.replicate_succ, List.foldl_cons, ih]
      have hzero : (Literal.hexValue? '0').getD 0 = 0 := rfl
      rw [hzero, Nat.add_zero, Nat.pow_succ]
      ac_rfl
  exact (hfold k 1).trans (Nat.one_mul _)

/-- The line of a shift of too long a number. -/
theorem not_writable_hexShift {n : Nat} (h : 4 * Decimal.maxDigits < n.log2) :
    ∀ i ∈ candidates (hexShift n), ¬∃ text, i.text = .ok text := by
  rintro i hi ⟨text, htext⟩
  have hshift : candidates (hexShift n) = [_] := rfl
  rw [hshift, List.mem_singleton] at hi
  rw [Instruction.text, bind_eq_ok_iff] at htext
  obtain ⟨texts, htexts, -⟩ := htext
  rw [hi, List.mapM_cons, bind_eq_ok_iff] at htexts
  obtain ⟨word, hword, -⟩ := htexts
  have hdecimal : Decimal.ofNat n = .error .writing := by rw [Decimal.ofNat, if_pos h]
  have hsame : Operand.text (.literal (.int n) none) = Decimal.ofNat n := rfl
  rw [hsame, hdecimal] at hword
  cases hword

theorem definedOnce_hexShift (n : Nat) : (hexShift n).DefinedOnce := by
  rw [Module.DefinedOnce]
  change [1, 2, 3, 4, 6, 5].Nodup
  decide

theorem shifts_hexShift (n : Nat) : ∀ i ∈ bodies (hexShift n), i.opcode = "OpShiftLeftLogical" →
    2 ≤ i.operands.length ∧ i.result.isSome = true := by
  intro i hi hopcode
  rcases hi with _ | ⟨_, _ | ⟨_, hi⟩⟩
  · exact ⟨Nat.le_refl 2, rfl⟩
  · simp at hopcode
  · cases hi

/-- There are ids enough, yet the pass fails to log what it does. -/
theorem not_succeeds_hexShift {digits : List Char} (hne : digits ≠ [])
    (hdigits : ∀ c ∈ digits, Scanner.isHexDigit c = true) {n : Nat}
    (hn : Numeral.natOfHex digits = n) (h : 4 * Decimal.maxDigits < n.log2) :
    ¬((Pass.runBarrier { target := hexShift n }).1.result = .ok .changed ∨
      (Pass.runBarrier { target := hexShift n }).1.result = .ok .unchanged) := by
  subst hn
  have hrun : Pass.runBarrier { target := hexShift (Numeral.natOfHex digits) } = (_, _) :=
    Prod.mk.eta.symm
  rw [(runBarrier_law (parse_hexShift hne hdigits) (definedOnce_hexShift _) rfl (shifts_hexShift _)
    hrun).1]
  have hsome : candidates (hexShift (Numeral.natOfHex digits)) ≠ [] := nofun
  rintro (hnone | ⟨hguardable, -⟩)
  · exact hsome hnone
  · obtain ⟨i, hi⟩ := List.exists_mem_of_ne_nil _ hsome
    exact not_writable_hexShift h i hi (hguardable i hi).writable

/-! ### A vector of too few components -/

/-- A module with a vector constant of one component, which should have two. -/
def crookedText : String :=
  "%1 = OpTypeInt 32 0\n%2 = OpTypeVector %1 2\n%3 = OpConstant %1 0\n" ++
  "%4 = OpConstantComposite %2 %3\n%5 = OpFunction %2 None %2\n%6 = OpLabel\n" ++
  "%7 = OpShiftLeftLogical %2 %4 %4\nOpReturnValue %7\nOpFunctionEnd\n"

/-- The module of that text. -/
def crooked : Module :=
  { globals :=
      [{ opcode := "OpTypeInt", result := some ⟨1, none⟩,
         operands := [.literal (.int 32) none, .literal (.int 0) none], serial := 0 },
       { opcode := "OpTypeVector", result := some ⟨2, none⟩,
         operands := [.id ⟨1, none⟩, .literal (.int 2) none], serial := 1 },
       { opcode := "OpConstant", type := some ⟨1, none⟩, result := some ⟨3, none⟩,
         operands := [.literal (.int 0) none], serial := 2 },
       { opcode := "OpConstantComposite", type := some ⟨2, none⟩, result := some ⟨4, none⟩,
         operands := [.id ⟨3, none⟩], serial := 3 }]
    functions :=
      [{ id := ⟨5, none⟩
         definition :=
           { opcode := "OpFunction", type := some ⟨2, none⟩, result := some ⟨5, none⟩,
             operands := [.enumerant "None", .id ⟨2, none⟩], serial := 4 }
         blocks :=
           [{ label := ⟨6, none⟩
              instructions :=
                [{ opcode := "OpShiftLeftLogical", type := some ⟨2, none⟩,
                   result := some ⟨7, none⟩, operands := [.id ⟨4, none⟩, .id ⟨4, none⟩],
                   serial := 5 },
                 { opcode := "OpReturnValue", operands := [.id ⟨7, none⟩], serial := 6 }] }] }]
    bound := 8
    nextSerial := 7 }

theorem parse_crooked : Assembly.parse {} crookedText = .ok crooked :=
  toOption_eq_some_iff.1 (by decide +kernel)

/-- **The conditions on the lines and on the number of components cannot be left out.** -/
theorem resources_exceptions :
    (∃ source m r, Assembly.parse {} source = .ok m ∧ m.DefinedOnce ∧
      Registry.ofModule m = .ok r ∧
      (∀ i ∈ bodies m, i.opcode = "OpShiftLeftLogical" →
        2 ≤ i.operands.length ∧ i.result.isSome = true) ∧
      (∀ i ∈ candidates m, (resultType? m i).any Ty.isIntegral = true) ∧
      m.bound + (candidates m).length + (scalarsMissing m).card + (vectorsMissing m).card
        ≤ m.maxIdBound ∧
      ¬((Pass.runBarrier { target := m }).1.result = .ok .changed ∨
        (Pass.runBarrier { target := m }).1.result = .ok .unchanged)) ∧
    (Assembly.parse {} crookedText = .ok crooked ∧ crooked.DefinedOnce ∧
      (∃ r, Registry.ofModule crooked = .ok r) ∧
      (∀ i ∈ bodies crooked, i.opcode = "OpShiftLeftLogical" →
        2 ≤ i.operands.length ∧ i.result.isSome = true) ∧
      (candidates crooked).map (resultType? crooked) = [some (.vector (.int 32 false) 2)] ∧
      scalarsMissing crooked = ∅ ∧ firstZero? crooked 32 false = some ⟨3, none⟩ ∧
      (∃ i ∈ crooked.globals, i.opcode = "OpConstantComposite" ∧
        resultType? crooked i = some (.vector (.int 32 false) 2) ∧
        ∀ operand ∈ i.operands, operand = .id ⟨3, none⟩) ∧
      (Pass.runBarrier { target := crooked }).1.result = .ok .changed ∧
      (Pass.runBarrier { target := crooked }).2.target.bound = crooked.bound + 2) := by
  constructor
  · have hlog : 4 * Decimal.maxDigits < (16 ^ 4400).log2 := by
      have hpow : ∀ k, 16 ^ k = 2 ^ (4 * k) := fun k => (Nat.pow_mul 2 4 k).symm
      rw [hpow, Nat.log2_two_pow]
      decide
    have hdigits : ∀ c ∈ '1' :: List.replicate 4400 '0', Scanner.isHexDigit c = true := by
      intro c hc
      rcases List.mem_cons.1 hc with rfl | hc
      · rfl
      · rw [List.eq_of_mem_replicate hc]
        rfl
    have hparse := parse_hexShift (List.cons_ne_nil _ _) hdigits
    have hnot := not_succeeds_hexShift (List.cons_ne_nil _ _) hdigits (natOfHex_one_zeros _) hlog
    rw [natOfHex_one_zeros] at hparse
    generalize 16 ^ 4400 = n at hparse hnot
    refine ⟨_, _, _, hparse, definedOnce_hexShift n, rfl, shifts_hexShift n, ?_, ?_, hnot⟩
    · intro i hi
      obtain rfl := List.mem_singleton.1 hi
      rfl
    · exact Nat.le_of_ble_eq_true rfl
  · refine ⟨parse_crooked, ?_, ⟨_, rfl⟩, by decide, rfl, rfl, rfl,
      ⟨_, .tail _ (.tail _ (.tail _ (.head _))), rfl, rfl, by decide⟩, rfl, rfl⟩
    rw [Module.DefinedOnce]
    decide

end Barrier
end ShiftBarrier
