import Mathlib.Order.WellFounded
import ShiftBarrier.Assembly
import ShiftBarrier.Proofs.Cache
import ShiftBarrier.Proofs.Evaluation
import ShiftBarrier.Proofs.Tables

/-!
# Composites of composites

A composite names its components, and their constants are looked up when its value is computed.  By
then another constant may be declared under the same id, even the composite itself, as a later
declaration goes before an earlier one.

* `ConstantTable.Component` relates a component to its composite, and `ConstantTable.Nested` says
  how deep the composites below an id are nested.
* `ConstantTable.Settled` is what keeps the nesting finite: no component is declared again.
* `ConstantTable.ordered_analyze` says that components are declared before their composite; so if
  no id is defined twice, the table is settled.
* `ConstantTable.component_wellFounded` puts this together; by
  `ConstantTable.component_of_itself` a composite may be made of itself.
-/

set_option autoImplicit false

namespace ShiftBarrier
namespace ConstantTable

variable {t t' : ConstantTable} {types : TypeTable} {i : Instruction} {m : Module} {n : Nat}
  {id c d : Id} {done rest : List (Id × Constant)}

/-! ## Nesting -/

/-- One id is a component of the other, as the table has it. -/
def Component (t : ConstantTable) (c d : Id) : Prop :=
  ∃ type cs, t.constant? d = some (.composite type cs) ∧ c ∈ cs

/-- Below an id, composites are nested no deeper than a number. -/
inductive Nested (t : ConstantTable) : Nat → Id → Prop
  | flat {n : Nat} {id : Id} (h : ∀ type cs, t.constant? id ≠ some (.composite type cs)) :
      Nested t n id
  | composite {n : Nat} {id : Id} {type : Ty} {cs : List Id}
      (h : t.constant? id = some (.composite type cs)) (hcs : ∀ c ∈ cs, Nested t n c) :
      Nested t (n + 1) id

theorem Nested.succ (h : t.Nested n id) : t.Nested (n + 1) id := by
  induction h with
  | flat h => exact .flat h
  | composite h _ ih => exact .composite h ih

theorem Nested.acc (h : t.Nested n id) : Acc t.Component id := by
  induction h with
  | flat h =>
    refine ⟨_, ?_⟩
    rintro c ⟨type, cs, heq, -⟩
    exact absurd heq (h type cs)
  | composite h _ ih =>
    refine ⟨_, ?_⟩
    rintro c ⟨type, cs, heq, hc⟩
    cases h.symm.trans heq
    exact ih c hc

/-! ## Settled tables

The table gives the last declaration of an id.  It is safe to follow components if no component was
declared again behind its composite. -/

/-- No component of a composite is declared again, be it by the composite or after it. -/
def Settled (t : ConstantTable) : Prop :=
  ∀ done id type cs rest, t.entries = done ++ (id, .composite type cs) :: rest →
    ∀ c ∈ cs, ∀ entry ∈ (id, .composite type cs) :: rest, entry.1.same c = false

/-- The last declaration of an id is the one that counts. -/
theorem constant?_of_split {entry : Id × Constant} (hsplit : t.entries = done ++ entry :: rest)
    (hsame : entry.1.same id = true) (hrest : ∀ entry ∈ rest, entry.1.same id = false) :
    t.constant? id = some entry.2 := by
  obtain ⟨entries⟩ := t
  obtain rfl : entries = (done ++ [entry]) ++ rest := by simpa using hsplit
  have hlast := constant?_add ⟨done⟩ entry.1 id entry.2
  rw [if_pos hsame] at hlast
  exact (constant?_append (t := ⟨done ++ [entry]⟩) hrest).trans hlast

/-- **A settled table is nested no deeper than it is long.**  The components of a composite are
declared before it, or not at all. -/
theorem Settled.nested (h : t.Settled) (hsplit : t.entries = done ++ rest)
    (hrest : ∀ entry ∈ rest, entry.1.same id = false) : t.Nested done.length id := by
  -- the induction is on the declarations up to the last one of the id
  induction done using List.reverseRecOn generalizing rest id with
  | nil =>
    refine .flat fun type cs heq => ?_
    obtain ⟨key, hsame, hmem⟩ := mem_of_constant? heq
    rw [hsplit, List.nil_append] at hmem
    rw [hrest _ hmem] at hsame
    cases hsame
  | append_singleton done entry ih =>
    rw [List.append_assoc, List.singleton_append] at hsplit
    rw [List.length_append, List.length_singleton]
    cases hsame : entry.1.same id with
    | false => exact (ih hsplit (List.forall_mem_cons.2 ⟨hsame, hrest⟩)).succ
    | true =>
      have hconstant := constant?_of_split hsplit hsame hrest
      obtain ⟨key, k⟩ := entry
      cases k with
      | composite type cs =>
        exact .composite hconstant fun c hc => ih hsplit (h done key type cs rest hsplit c hc)
      | _ => exact .flat fun type cs heq => by cases hconstant.symm.trans heq

/-! ## Reading -/

/-- What every declaration keeps, reading keeps. -/
theorem readAll_invariant {P : ConstantTable → Prop}
    (hread : ∀ t i t', P t → t.read types i = .ok t' → P t') (h : P t) (is : List Instruction) :
    P (t.readAll types is).2 := by
  induction is generalizing t with
  | nil => exact h
  | cons i is ih =>
    rw [readAll]
    cases hi : t.read types i with
    | ok t' => exact ih (hread t i t' h hi)
    | error e => exact h

/-- Components are declared before their composite. -/
def Ordered (t : ConstantTable) : Prop :=
  ∀ done id type cs rest, t.entries = done ++ (id, .composite type cs) :: rest →
    ∀ c ∈ cs, isDeclared ⟨done⟩ c = true

theorem Ordered.read (h : t.Ordered) (hread : t.read types i = .ok t') : t'.Ordered := by
  obtain ⟨-, rfl⟩ | ⟨id, type, k, -, -, -, hdeclared, rfl⟩ := read_eq_ok_iff.1 hread
  · exact h
  · intro done key type' cs rest hsplit c hc
    rw [add] at hsplit
    rcases List.eq_nil_or_concat rest with rfl | ⟨rest, last, rfl⟩
    · obtain ⟨rfl, heq⟩ := List.append_inj' hsplit rfl
      cases heq
      obtain ⟨-, value, spelling, -, hliteral⟩ | ⟨-, -, ⟨⟩⟩ | ⟨-, cs', hcs, heq⟩ |
        ⟨-, -, -, -, ⟨⟩⟩ := declared_cases hdeclared
      · obtain ⟨v, ⟨⟩⟩ := exists_scalar_of_ofLiteral hliteral
      · cases heq
        obtain ⟨operand, -, -, hdeclared⟩ := exists_left_of_mem (components_spec hcs) hc
        exact hdeclared
    · rw [List.concat_eq_append, ← List.cons_append, ← List.append_assoc] at hsplit
      exact h done key type' cs rest (List.append_inj' hsplit rfl).1 c hc

theorem ordered_analyze (types : TypeTable) (m : Module) : (analyze types m).2.Ordered := by
  refine readAll_invariant (fun _ _ _ h hread => h.read hread) ?_ m.globals
  intro done id type cs rest hsplit
  simp at hsplit

/-- If every constant is declared once, it is not declared again. -/
theorem Ordered.settled (h : t.Ordered) (hnodup : (t.entries.map (·.1.number)).Nodup) :
    t.Settled := by
  intro done id type cs rest hsplit c hc entry hentry
  obtain ⟨first, hfirst, hsame⟩ := isDeclared_iff.1 (h done id type cs rest hsplit c hc)
  rw [hsplit, List.map_append, List.nodup_append] at hnodup
  have hne := hnodup.2.2 _ (List.mem_map_of_mem hfirst) _ (List.mem_map_of_mem hentry)
  rw [Id.same_eq_false_iff, ← Id.same_iff.1 hsame]
  exact hne.symm

end ConstantTable

/-! ## Values

A value takes one unit of fuel for each level of composites, and a settled table has at most as many
levels as it has entries. -/

namespace Evaluator

variable {ev : Evaluator} {t : ConstantTable} {c : Option Constant} {n : Nat} {id : Id}

/-- Composites apart, the fuel does not matter. -/
theorem constantValue_flat (hc : ∀ type cs, c ≠ some (.composite type cs)) (fuel fuel' : Nat) :
    ev.constantValue fuel c = ev.constantValue fuel' c := by
  cases c with
  | none => cases fuel <;> cases fuel' <;> rfl
  | some c =>
    cases c with
    | scalar type value => cases value <;> cases fuel <;> cases fuel' <;> rfl
    | bool type value => cases fuel <;> cases fuel' <;> rfl
    | composite type cs => exact absurd rfl (hc type cs)
    | null type => cases type <;> cases fuel <;> cases fuel' <;> rfl

/-- Only composites can be nested too deep. -/
theorem constantValue_ne_nestedTooDeep (hc : ∀ type cs, c ≠ some (.composite type cs))
    {fuel : Nat} : ev.constantValue fuel c ≠ .error .nestedTooDeep := by
  rw [constantValue.eq_def]
  split
  · exact nofun
  · next type count =>
    rw [zeros]
    split
    · exact nofun
    · exact nofun
  · exact nofun
  · next type cs => exact absurd rfl (hc type cs)
  · next type cs => exact absurd rfl (hc type cs)
  · intro h
    obtain h | ⟨-, -, ⟨⟩⟩ := bind_eq_error_iff.1 h
    obtain ⟨-, -, ⟨⟩⟩ := mapError_eq_error_iff.1 h
  · exact nofun

/-- **A value takes as much fuel as composites are nested.**  More of it does not change the
value. -/
theorem constantValue_nested (types : TypeTable) (h : t.Nested n id) :
    (∀ fuel ≥ n, constantValue ⟨types, some t⟩ fuel (t.constant? id)
      = constantValue ⟨types, some t⟩ n (t.constant? id)) ∧
    constantValue ⟨types, some t⟩ n (t.constant? id) ≠ .error .nestedTooDeep := by
  induction h with
  | flat h =>
    refine ⟨fun fuel _ => ?_, constantValue_ne_nestedTooDeep h⟩
    exact constantValue_flat h fuel _
  | @composite n id type cs h _ ih =>
    rw [h]
    refine ⟨fun fuel hfuel => ?_, fun herror => ?_⟩
    · obtain ⟨fuel, rfl⟩ : ∃ k, fuel = k + 1 := ⟨fuel - 1, by omega⟩
      rw [constantValue, constantValue]
      congr 1
      refine mapM_congr fun c hc => ?_
      show (constantValue ⟨types, some t⟩ fuel (t.constant? c) >>= _) =
        (constantValue ⟨types, some t⟩ n (t.constant? c) >>= _)
      rw [(ih c hc).1 fuel (by omega)]
    · rw [constantValue] at herror
      obtain hlanes | ⟨-, -, ⟨⟩⟩ := bind_eq_error_iff.1 herror
      obtain ⟨before, c, after, rfl, -, hlane⟩ := mapM_eq_error_iff.1 hlanes
      have hlane : (constantValue ⟨types, some t⟩ n (t.constant? c) >>= _) = .error _ := hlane
      obtain hvalue | ⟨v, -, hv⟩ := bind_eq_error_iff.1 hlane
      · exact (ih c (by simp)).2 hvalue
      · cases v <;> cases hv

end Evaluator
namespace ConstantTable

/-- **Composites are well-founded, and have values, unless an id is declared again.**  If no id is
defined twice, no component is declared again; and then the components of a table are
well-founded, and as much fuel as it has entries is enough for every constant. -/
theorem component_wellFounded {m : Module} {r : Registry} (hr : Registry.ofModule m = .ok r) :
    (((m.globals.filterMap Instruction.result).map Id.number).Nodup → r.constants.Settled) ∧
    (r.constants.Settled → WellFounded r.constants.Component ∧
      ∀ id c, r.constants.constant? id = some c → ∃ value : Except Error Value,
        value ≠ .error .nestedTooDeep ∧ ∀ fuel ≥ r.constants.entries.length,
          Evaluator.constantValue ⟨r.types, some r.constants⟩ fuel (some c) = value) := by
  obtain ⟨-, -, rfl⟩ := Registry.ofModule_eq_ok_iff.1 hr
  refine ⟨fun honce => ?_, fun hsettled => ?_⟩
  · refine (ordered_analyze m.declaredTypes m).settled ?_
    have hsublist := (readFrom_analyze m.declaredTypes m).ids.map Id.number
    rw [List.map_map] at hsublist
    exact honce.sublist hsublist
  · have hnested : ∀ id, Nested m.declaredConstants m.declaredConstants.entries.length id :=
      fun id => hsettled.nested (List.append_nil _).symm (List.forall_mem_nil _)
    refine ⟨⟨fun id => (hnested id).acc⟩, fun id c hc => ?_⟩
    obtain ⟨hfuel, hvalue⟩ := Evaluator.constantValue_nested m.declaredTypes (hnested id)
    have hconstant : m.declaredConstants.constant? id = some c := hc
    rw [hconstant] at hfuel hvalue
    exact ⟨_, hvalue, hfuel⟩

/-! ### An example -/

/-- A composite of `%3`, which is 7, and another of that composite. -/
def nestingText : String :=
  "%1 = OpTypeInt 32 0\n%2 = OpTypeVector %1 2\n%3 = OpConstant %1 7\n" ++
  "%4 = OpConstantComposite %2 %3 %3\n%5 = OpConstantComposite %2 %4 %4\n"

/-- The module of that text. -/
def nesting : Module :=
  { globals :=
      [{ opcode := "OpTypeInt", result := some ⟨1, none⟩,
         operands := [.literal (.int 32) none, .literal (.int 0) none], serial := 0 },
       { opcode := "OpTypeVector", result := some ⟨2, none⟩,
         operands := [.id ⟨1, none⟩, .literal (.int 2) none], serial := 1 },
       { opcode := "OpConstant", type := some ⟨1, none⟩, result := some ⟨3, none⟩,
         operands := [.literal (.int 7) none], serial := 2 },
       { opcode := "OpConstantComposite", type := some ⟨2, none⟩, result := some ⟨4, none⟩,
         operands := [.id ⟨3, none⟩, .id ⟨3, none⟩], serial := 3 },
       { opcode := "OpConstantComposite", type := some ⟨2, none⟩, result := some ⟨5, none⟩,
         operands := [.id ⟨4, none⟩, .id ⟨4, none⟩], serial := 4 }]
    bound := 6
    nextSerial := 5 }

/-- Its constants. -/
def nestingConstants : ConstantTable :=
  ⟨[(⟨3, none⟩, .scalar (.int 32 false) (.int 7)),
    (⟨4, none⟩, .composite (.vector (.int 32 false) 2) [⟨3, none⟩, ⟨3, none⟩]),
    (⟨5, none⟩, .composite (.vector (.int 32 false) 2) [⟨4, none⟩, ⟨4, none⟩])]⟩

/-- Its types, which are also those of the next module. -/
def nestingTypes : TypeTable :=
  ⟨[(⟨1, none⟩, .int 32 false), (⟨2, none⟩, .vector (.int 32 false) 2)]⟩

theorem component_wellFounded_nesting :
    Assembly.parse {} nestingText = .ok nesting ∧
      Registry.ofModule nesting = .ok ⟨⟨nesting, nestingTypes, []⟩, nestingConstants⟩ ∧
      nestingConstants.Component ⟨3, none⟩ ⟨4, none⟩ ∧
      nestingConstants.Component ⟨4, none⟩ ⟨5, none⟩ ∧ WellFounded nestingConstants.Component := by
  have hr : Registry.ofModule nesting = .ok ⟨⟨nesting, nestingTypes, []⟩, nestingConstants⟩ := rfl
  obtain ⟨hsettled, hall⟩ := component_wellFounded hr
  obtain ⟨hwellFounded, -⟩ := hall (hsettled (by decide))
  exact ⟨toOption_eq_some_iff.1 (by decide +kernel), hr, ⟨_, _, rfl, List.mem_cons_self⟩,
    ⟨_, _, rfl, List.mem_cons_self⟩, hwellFounded⟩

/-- A composite that is declared under the id of its components, and a copy of it. -/
def selfMadeText : String :=
  "%1 = OpTypeInt 32 0\n%2 = OpTypeVector %1 2\n%3 = OpConstant %1 7\n" ++
  "%3 = OpConstantComposite %2 %3 %3\n%4 = OpFunction %1 None %1\n%5 = OpLabel\n" ++
  "%6 = OpCopyObject %2 %3\nOpReturn\nOpFunctionEnd\n"

/-- The copy of the composite. -/
def selfMadeCopy : Instruction :=
  { opcode := "OpCopyObject", type := some ⟨2, none⟩, result := some ⟨6, none⟩,
    operands := [.id ⟨3, none⟩], serial := 5 }

/-- The block it stands in. -/
def selfMadeBlock : Block :=
  { label := ⟨5, none⟩
    instructions := [selfMadeCopy, { opcode := "OpReturn", serial := 6 }] }

/-- The module of that text. -/
def selfMade : Module :=
  { globals :=
      [{ opcode := "OpTypeInt", result := some ⟨1, none⟩,
         operands := [.literal (.int 32) none, .literal (.int 0) none], serial := 0 },
       { opcode := "OpTypeVector", result := some ⟨2, none⟩,
         operands := [.id ⟨1, none⟩, .literal (.int 2) none], serial := 1 },
       { opcode := "OpConstant", type := some ⟨1, none⟩, result := some ⟨3, none⟩,
         operands := [.literal (.int 7) none], serial := 2 },
       { opcode := "OpConstantComposite", type := some ⟨2, none⟩, result := some ⟨3, none⟩,
         operands := [.id ⟨3, none⟩, .id ⟨3, none⟩], serial := 3 }]
    functions :=
      [{ id := ⟨4, none⟩
         definition :=
           { opcode := "OpFunction", type := some ⟨1, none⟩, result := some ⟨4, none⟩,
             operands := [.enumerant "None", .id ⟨1, none⟩], serial := 4 }
         blocks := [selfMadeBlock] }]
    bound := 7
    nextSerial := 7 }

/-- Its constants.  Of the two declarations of `%3` the last one counts. -/
def selfMadeConstants : ConstantTable :=
  ⟨[(⟨3, none⟩, .scalar (.int 32 false) (.int 7)),
    (⟨3, none⟩, .composite (.vector (.int 32 false) 2) [⟨3, none⟩, ⟨3, none⟩])]⟩

/-- The evaluator of that module. -/
def selfMadeEvaluator : Evaluator := ⟨nestingTypes, some selfMadeConstants⟩

/-- However much fuel there is, the composite needs more. -/
theorem constantValue_selfMade (fuel : Nat) :
    selfMadeEvaluator.constantValue fuel (selfMadeConstants.constant? ⟨3, none⟩)
      = .error .nestedTooDeep := by
  induction fuel with
  | zero => rfl
  | succ fuel ih =>
    have hlane : ∀ f : Value → Except Error Int,
        (selfMadeEvaluator.constantValue fuel (selfMadeConstants.constant? ⟨3, none⟩) >>= f)
          = .error .nestedTooDeep := fun f => by rw [ih]; rfl
    have hconstant : selfMadeConstants.constant? ⟨3, none⟩
        = some (.composite (.vector (.int 32 false) 2) [⟨3, none⟩, ⟨3, none⟩]) := rfl
    rw [hconstant, Evaluator.constantValue]
    refine bind_eq_error_iff.2 (.inl (mapM_eq_error_iff.2 ?_))
    exact ⟨[], ⟨3, none⟩, [⟨3, none⟩], rfl, List.forall_mem_nil _, hlane _⟩

/-- **A composite that is made of itself** is found to be sound, and has no value. -/
theorem component_of_itself :
    Assembly.parse {} selfMadeText = .ok selfMade ∧
      Evaluator.ofModule selfMade = .ok selfMadeEvaluator ∧
      selfMadeConstants.Component ⟨3, none⟩ ⟨3, none⟩ ∧
      ¬ WellFounded selfMadeConstants.Component ∧
      (∀ fuel, selfMadeEvaluator.constantValue fuel (selfMadeConstants.constant? ⟨3, none⟩)
        = .error .nestedTooDeep) ∧
      selfMadeEvaluator.block [] selfMadeBlock = .error .nestedTooDeep := by
  have hcomponent : selfMadeConstants.Component ⟨3, none⟩ ⟨3, none⟩ :=
    ⟨_, _, rfl, List.mem_cons_self⟩
  have hoperand : selfMadeEvaluator.operandValue [] (.id ⟨3, none⟩) = .error .nestedTooDeep :=
    (Evaluator.operandValue_of_constant? rfl rfl).trans (constantValue_selfMade _)
  have hcopy : selfMadeEvaluator.instruction [] selfMadeCopy = .error .nestedTooDeep := by
    rw [Evaluator.instruction]
    refine bind_eq_error_iff.2 (.inr ⟨32, rfl, bind_eq_error_iff.2 (.inl ?_)⟩)
    exact mapM_eq_error_iff.2 ⟨[], _, [], rfl, List.forall_mem_nil _, hoperand⟩
  refine ⟨toOption_eq_some_iff.1 (by decide +kernel), rfl, hcomponent, fun hwellFounded => ?_,
    constantValue_selfMade, ?_⟩
  · exact hwellFounded.irrefl.irrefl _ hcomponent
  · rw [Evaluator.block, selfMadeBlock, Evaluator.run_cons (by decide +kernel),
      Evaluator.step_of_result rfl rfl, hcopy]
    rfl

end ConstantTable
end ShiftBarrier
