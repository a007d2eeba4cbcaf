import ShiftBarrier.Proofs.Barrier.Rewriting
import ShiftBarrier.Proofs.Reading

/-!
# What the pass does to a module

The pass puts guards behind the first candidates of a module and declares the zeros they need;
nothing else changes.  If it fails, the guards added by then stay, and each of them is complete.

* `Rewrites` says so of two modules.
* `runBarrier_rewrites` says that the pass does so, and what its status and its counts are.
-/

set_option autoImplicit false

namespace ShiftBarrier
namespace Barrier

/-- The module `m'` is `m` with the guards `gs` and the constants `ds`. -/
structure Rewrites (m : Module) (gs : List Guard) (ds : List Declaration) (m' : Module) : Prop where
  /-- The instructions in blocks are different from each other, so that a shift of a guard is one
  instruction at one place. -/
  nodup : (bodies m).Nodup
  /-- The guarded shifts are the first candidates. -/
  shifts : gs.map Guard.shift = (candidates m).take gs.length
  settings : m'.settings = m.settings
  preamble : m'.preamble = m.preamble
  globals : m'.globals = m.globals ++ ds.map Declaration.instruction
  functions : m'.functions = m.functions.map (guardedFunction gs)
  bound : m'.bound = m.bound + (ds.length + gs.length)
  /-- The new ids were not mentioned anywhere, and each was taken once. -/
  fresh : ((ds.map Declaration.id ++ gs.map Guard.temporary).map Id.number).Nodup ∧
    ∀ new ∈ ds.map Declaration.id ++ gs.map Guard.temporary,
      m.bound ≤ new.number ∧ new.number < m'.bound ∧ ∀ id ∈ m.mentions, id.same new = false
  /-- The new constants are zeros of declared types. -/
  zeros : ∀ d ∈ ds, (∃ type, IsZeroOf m.declaredTypes (constantsWith m ds) type d.constant) ∧
    m.declaredTypes.id? d.constant.type = some d.type
  /-- Each guard is made of a declared zero of the type of its shift. -/
  guards : ∀ g ∈ gs, g.shift.result.isSome = true ∧ ∃ id type c, g.shift.type = some id ∧
    m.declaredTypes.type? id = some type ∧ IsZeroOf m.declaredTypes (constantsWith m ds) type c ∧
    (constantsWith m ds).id? c = some g.zero

theorem Outcome.rewrites {m m' : Module} {es : List Event} {status : PassStatus}
    {count : GuardCount} (hm : m.WellFormed) (h : Outcome m es status count m') :
    Rewrites m (Barrier.guards es) (declarations es) m' where
  nodup := hm.nodup_instructions.sublist (bodies_sublist m)
  shifts := by
    have hprefix := List.prefix_iff_eq_take.1 h.first
    rwa [List.length_map] at hprefix
  settings := by rw [h.target, rewritten]
  preamble := by rw [h.target, rewritten]
  globals := by rw [h.target, rewritten]
  functions := by rw [h.target, rewritten]
  bound := by
    have hlength := (perm_events id es).length_eq
    rw [List.length_append, List.length_map, List.length_map, List.length_map] at hlength
    rw [h.bound_eq, hlength]
  fresh := by
    have hperm := perm_events Event.id es
    obtain ⟨hnodup, hall⟩ := h.fresh hm
    refine ⟨?_, fun new hnew => ?_⟩
    · refine (hperm.map Id.number).nodup_iff.2 ?_
      rw [List.map_map]
      exact hnodup
    · obtain ⟨e, he, rfl⟩ := List.mem_map.1 (hperm.mem_iff.1 hnew)
      exact hall e he
  zeros d hd := h.zero_of_mem hd
  guards g hg := h.guard_of_mem hg

/-- How the guards of scalars and vectors are counted. -/
theorem countGuards_eq (types : TypeTable) (n : GuardCount) (gs : List Guard) :
    countGuards types n gs =
      { scalar := n.scalar + gs.countP fun g => !isVectorResult types g.shift
        vector := n.vector + gs.countP fun g => isVectorResult types g.shift } := by
  induction gs generalizing n with
  | nil => rfl
  | cons g gs ih =>
    rw [countGuards, List.foldl_cons, ← countGuards, ih, List.countP_cons, List.countP_cons,
      GuardCount.add]
    cases isVectorResult types g.shift <;> simp <;> omega

/-- **The pass rewrites exactly the first candidates**, all of them unless it fails. -/
theorem runBarrier_rewrites {settings : Settings} {source : String} {m : Module}
    (hparse : Assembly.parse settings source = .ok m) {cache : Cache}
    (hcache : Cache.Reachable m cache) {log : Log} {run : PassRun} {s : Session}
    (hrun : Pass.runBarrier { target := m, cache, log } = (run, s)) {status : PassStatus}
    (hstatus : run.result = .ok status) :
    ∃ gs ds, Rewrites m gs ds s.target ∧
      run.guards = some
        { scalar := gs.countP fun g => !isVectorResult m.declaredTypes g.shift
          vector := gs.countP fun g => isVectorResult m.declaredTypes g.shift } ∧
      (status = .failure ↔ gs.length < (candidates m).length) ∧
      (status = .unchanged ↔ candidates m = []) ∧
      (status = .changed ↔ candidates m ≠ [] ∧ gs.length = (candidates m).length) := by
  have hm := Assembly.wellFormed_of_parse hparse
  obtain ⟨es, count, hcount, h⟩ := runBarrier_outcome hm hcache.sound hrun hstatus
  have hle : (guards es).length ≤ (candidates m).length := by
    have hlength := h.first.length_le
    rwa [List.length_map] at hlength
  refine ⟨guards es, declarations es, h.rewrites hm, ?_, ?_⟩
  · rw [hcount, h.count, countGuards_eq]
    simp
  · rw [h.status, ne_eq, ← List.length_eq_zero_iff]
    exact ⟨statusAfter_eq_failure_iff, statusAfter_eq_unchanged_iff,
      statusAfter_eq_changed_iff hle⟩

/-! ## An example -/

/-- A function that shifts its parameter by three. -/
def sampleText : String :=
  "%1 = OpTypeInt 32 0\n%2 = OpConstant %1 3\n%3 = OpFunction %1 None %1\n" ++
  "%4 = OpFunctionParameter %1\n%5 = OpLabel\n%6 = OpShiftLeftLogical %1 %4 %2\n" ++
  "OpReturnValue %6\nOpFunctionEnd\n"

/-- The module of that text. -/
def sample : Module :=
  { globals :=
      [{ opcode := "OpTypeInt", result := some ⟨1, none⟩,
         operands := [.literal (.int 32) none, .literal (.int 0) none], serial := 0 },
       { opcode := "OpConstant", type := some ⟨1, none⟩, result := some ⟨2, none⟩,
         operands := [.literal (.int 3) none], serial := 1 }]
    functions :=
      [{ id := ⟨3, none⟩
         definition :=
           { opcode := "OpFunction", type := some ⟨1, none⟩, result := some ⟨3, none⟩,
             operands := [.enumerant "None", .id ⟨1, none⟩], serial := 2 }
         params :=
           [{ opcode := "OpFunctionParameter", type := some ⟨1, none⟩, result := some ⟨4, none⟩,
              serial := 3 }]
         blocks :=
           [{ label := ⟨5, none⟩
              instructions :=
                [{ opcode := "OpShiftLeftLogical", type := some ⟨1, none⟩,
                   result := some ⟨6, none⟩, operands := [.id ⟨4, none⟩, .id ⟨2, none⟩],
                   serial := 4 },
                 { opcode := "OpReturnValue", operands := [.id ⟨6, none⟩], serial := 5 }] }] }]
    bound := 7
    nextSerial := 6 }

theorem parse_sample : Assembly.parse {} sampleText = .ok sample :=
  toOption_eq_some_iff.1 (by decide +kernel)

theorem status_sample : (Pass.runBarrier { target := sample }).1.result = .ok .changed := by
  rfl

theorem runBarrier_rewrites_sample :
    Assembly.parse {} sampleText = .ok sample ∧ (candidates sample).length = 1 ∧
      ∃ gs ds, Rewrites sample gs ds (Pass.runBarrier { target := sample }).2.target ∧
        gs.length = 1 := by
  obtain ⟨gs, ds, h, -, -, -, hchanged⟩ :=
    runBarrier_rewrites parse_sample .empty rfl status_sample
  exact ⟨parse_sample, rfl, gs, ds, h, (hchanged.1 rfl).2⟩

end Barrier
end ShiftBarrier
