import ShiftBarrier.Proofs.Numbering
import ShiftBarrier.Proofs.Spacing.Boundary

/-!
# Building without line numbers

The lines of a text are for the messages about it.  What is built does not depend on them.

* `SourceInstruction.bare` forgets the line of an instruction.
* `Numbering.ofInstructions_congr` says that the numbering of a text depends on its names only.
* `Assembly.build_bare` says that a module can be built of bare instructions.
* `Assembly.parse_eq_ok_iff` puts it together: what a text is read as depends on what it says.
-/

set_option autoImplicit false

namespace ShiftBarrier

/-! ## Instructions -/

namespace SourceInstruction

/-- An instruction without its place. -/
def bare (i : SourceInstruction) : SourceInstruction := { i with line := Position.start.line }

theorem ofStatement_bare (s : Statement) :
    ofStatement s.bare = (ofStatement s).map bare := by
  have hoperands : (s.operands.map Token.bare).mapM SourceOperand.ofToken
      = s.operands.mapM SourceOperand.ofToken := by
    rw [List.mapM_map]
    rfl
  rw [ofStatement, ofStatement]
  show ((s.operands.map Token.bare).mapM SourceOperand.ofToken >>= _) = _
  rw [hoperands]
  cases s.operands.mapM SourceOperand.ofToken <;> rfl

theorem mapM_ofStatement_bare (statements : List Statement) :
    (statements.map Statement.bare).mapM ofStatement
      = (statements.mapM ofStatement).map (List.map bare) := by
  induction statements with
  | nil => rfl
  | cons s statements ih =>
    rw [List.map_cons, List.mapM_cons, List.mapM_cons, ofStatement_bare, ih]
    cases ofStatement s with
    | error e => rfl
    | ok i => cases statements.mapM ofStatement <;> rfl

end SourceInstruction

/-! ## Numbers -/

namespace Numbering

variable {is is' : List SourceInstruction} {n : Numbering}

theorem short_of_ok (h : ofInstructions is = .ok n) : Short is := by
  intro name hname hnumeric
  rcases id_spec h (mem_fst h hname) with ⟨-, k, hk, -⟩ | ⟨hother, -⟩
  · exact Decimal.exists_toNat_iff.1 ⟨k, hk⟩
  · exact absurd (hnumeric.symm.trans hother) (by decide)

/-- **Texts of the same names are numbered alike.** -/
theorem ofInstructions_congr (hnames : names is' = names is) (h : ofInstructions is = .ok n) :
    ofInstructions is' = .ok n := by
  have hshort := short_of_ok h
  have hrange : ∀ name ∈ names is, isNumeric name → InRange name :=
    fun name => inRange_of_ok hshort h
  have hsame : ofNames is' = ofNames is := by simp only [ofNames, named, taken, hnames]
  cases h.symm.trans (ofInstructions_of_inRange hshort hrange)
  rw [← hsame]
  refine ofInstructions_of_inRange ?_ ?_
  · rwa [Short, hnames]
  · rwa [hnames]

theorem names_bare (is : List SourceInstruction) :
    names (is.map SourceInstruction.bare) = names is := by
  rw [names, List.flatMap_map]
  rfl

end Numbering

/-! ## Modules -/

namespace Assembly

open SourceInstruction

variable {settings : Settings} {m : Module}

theorem resolvesTo_bare_iff {ids : Numbering} {i : SourceInstruction} {j : Instruction} :
    ResolvesTo ids i.bare j ↔ ResolvesTo ids i j :=
  ⟨fun h => ⟨h.opcode, h.result, h.operands, h.typed, h.serial⟩,
    fun h => ⟨h.opcode, h.result, h.operands, h.typed, h.serial⟩⟩

theorem alike_resolve (ids : Numbering) (i : SourceInstruction) :
    Alike Eq (resolve ids i.bare) (resolve ids i) :=
  alike_eq_of_iff fun j => by
    rw [resolve_eq_ok_iff, resolve_eq_ok_iff, resolvesTo_bare_iff]

/-- **Lines do not matter.** -/
theorem build_bare {is : List SourceInstruction} :
    build settings (is.map bare) = .ok m ↔ build settings is = .ok m := by
  have hids : Alike Eq (Numbering.ofInstructions (is.map bare)) (Numbering.ofInstructions is) :=
    alike_eq_of_iff fun ids => ⟨Numbering.ofInstructions_congr (Numbering.names_bare is).symm,
      Numbering.ofInstructions_congr (Numbering.names_bare is)⟩
  refine Alike.eq_ok_iff (hids.bind ?_)
  rintro ids _ rfl
  dsimp only
  rw [List.foldlM_map]
  refine (Alike.foldlM (fun b i _ => ?_) _).bind ?_
  · refine (alike_resolve ids i).bind ?_
    rintro j _ rfl
    exact alike_eq_of_iff fun b' => Builder.add_eq_ok_iff.trans Builder.add_eq_ok_iff.symm
  · rintro built _ rfl
    exact alike_refl _

/-- **What a text is read as depends on what it says.** -/
theorem parse_eq_ok_iff {source : String} :
    parse settings source = .ok m ↔ ∃ statements is,
      Statement.spell .start (source.toList ++ ['\n']) = some statements ∧
      statements.mapM ofStatement = .ok is ∧ build settings is = .ok m := by
  have hspell : ∀ statements, Statement.spell .start (source.toList ++ ['\n']) = some statements ↔
      ∃ read, Statement.ofText source = .ok read ∧ read.map Statement.bare = statements := by
    intro statements
    rw [Statement.spell, Statement.said, Option.map_eq_some_iff, Statement.ofText_eq]
    simp only [toOption_eq_some_iff]
  rw [parse, bind_eq_ok_iff]
  simp only [mapError_eq_ok_iff, bind_eq_ok_iff, hspell]
  constructor
  · rintro ⟨read, hread, is, his, hbuild⟩
    refine ⟨_, is.map bare, ⟨read, hread, rfl⟩, ?_, build_bare.2 hbuild⟩
    rw [mapM_ofStatement_bare, his]
    rfl
  · rintro ⟨_, is, ⟨read, hread, rfl⟩, his, hbuild⟩
    rw [mapM_ofStatement_bare, map_eq_ok_iff] at his
    obtain ⟨is, his, rfl⟩ := his
    exact ⟨read, hread, is, his, build_bare.1 hbuild⟩

end Assembly
end ShiftBarrier
