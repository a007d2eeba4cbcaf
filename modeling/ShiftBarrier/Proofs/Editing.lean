import ShiftBarrier.Module.Edit
import ShiftBarrier.Proofs.Barrier.Run

/-!
# Edits in a body

An edit in a body concerns one place: renaming the result of an instruction changes what stands
there, and inserting an instruction behind it adds to it.  Everything around the place stays.

* `Between` says which element of a list an index stands for.
* `Spot` is a place in a body with all that is around it, and `Spot.fill` puts instructions there.
* `Module.setResult_eq_ok_iff` and `Module.insertAfter_eq_ok_iff` say when an edit is made and what
  it makes of the module.
* `Barrier.guard_eq_edits` says that the barrier works by these edits: a shift is guarded by
  renaming its result and by inserting the guard directly behind it.
-/

set_option autoImplicit false

namespace ShiftBarrier

/-! ## Elements of a list

An index counts from the front, or from the end if it is negative: `-1` is the last element. -/

section Elements

variable {α : Type} {as before behind : List α} {a : α} {index : Int}

/-- The index stands for the element between two parts of a list. -/
def Between (before behind : List α) (index : Int) : Prop :=
  index = before.length ∨ index = -(behind.length + 1 : Int)

theorem position?_eq_some_iff {length n : Nat} :
    position? length index = some n ↔ n < length ∧ (index = n ∨ index + length = n) := by
  rw [position?]
  split <;> split <;> simp <;> omega

theorem between_iff (a : α) :
    Between before behind index ↔
      position? (before ++ a :: behind).length index = some before.length := by
  rw [position?_eq_some_iff, Between, List.length_append, List.length_cons]
  omega

/-- What stands at an index has the list around it. -/
theorem elementAt_eq_ok_iff :
    elementAt as index = .ok a ↔
      ∃ before behind, as = before ++ a :: behind ∧ Between before behind index := by
  rw [elementAt, bind_eq_ok_iff]
  constructor
  · rintro ⟨n, hn, hget⟩
    rw [position] at hn
    split at hn
    · next k hk =>
      cases hn
      split at hget
      · next b hb =>
        cases hget
        obtain ⟨hlt, rfl⟩ := List.getElem?_eq_some_iff.1 hb
        have hsplit : as = as.take n ++ as[n] :: as.drop (n + 1) := by
          rw [← List.drop_eq_getElem_cons hlt, List.take_append_drop]
        refine ⟨_, _, hsplit, (between_iff as[n]).2 ?_⟩
        rw [← hsplit, hk, List.length_take, Nat.min_eq_left (Nat.le_of_lt hlt)]
      · cases hget
    · cases hn
  · rintro ⟨before, behind, rfl, hindex⟩
    refine ⟨before.length, ?_, ?_⟩
    · rw [position, (between_iff a).1 hindex]
    · rw [List.getElem?_append_right (Nat.le_refl _), Nat.sub_self]
      rfl

theorem modifyElement_of_between (f : α → α) (h : Between before behind index) :
    modifyElement index f (before ++ a :: behind) = before ++ f a :: behind := by
  rw [modifyElement, (between_iff a).1 h]
  exact List.modifyTailIdx_add (List.modifyHead f) 0 before (a :: behind)

end Elements

/-! ## Places in a body -/

/-- A place in the body of a function, with everything that is around it. -/
structure Spot where
  /-- The functions before that of the place. -/
  functions : List Function
  /-- The function of the place.  Its blocks are those of the place. -/
  function : Function
  /-- The functions behind it. -/
  functions' : List Function
  blocks : List Block
  label : Id
  blocks' : List Block
  instructions : List Instruction
  instructions' : List Instruction

namespace Spot

/-- The block of the place, with some instructions there. -/
def block (p : Spot) (is : List Instruction) : Block :=
  { label := p.label, instructions := p.instructions ++ is ++ p.instructions' }

/-- The functions of the module, with some instructions at the place. -/
def fill (p : Spot) (is : List Instruction) : List Function :=
  p.functions ++ { p.function with blocks := p.blocks ++ p.block is :: p.blocks' } :: p.functions'

/-- The indices stand for the block of the place. -/
structure NamesBlock (p : Spot) (function block : Int) : Prop where
  function : Between p.functions p.functions' function
  block : Between p.blocks p.blocks' block

/-- The indices stand for the place itself. -/
structure Names (p : Spot) (function block index : Int) : Prop extends
    p.NamesBlock function block where
  index : Between p.instructions p.instructions' index

end Spot

namespace Module

variable {m m' : Module} {p : Spot} {function block function' block' index : Int}
  {i j : Instruction} {is : List Instruction}

theorem functionAt_fill (hm : m.functions = p.fill is) (h : p.NamesBlock function block) :
    m.functionAt function = .ok { p.function with blocks := p.blocks ++ p.block is :: p.blocks' } :=
  elementAt_eq_ok_iff.2 ⟨_, _, hm, h.function⟩

theorem blockAt_fill (hm : m.functions = p.fill is) (h : p.NamesBlock function block) :
    m.blockAt function block = .ok (p.block is) := by
  rw [blockAt, functionAt_fill hm h]
  exact elementAt_eq_ok_iff.2 ⟨_, _, rfl, h.block⟩

/-- **What stands at a location of a body has the module around it.** -/
theorem instructionAt_body_iff :
    m.instructionAt (.body function block index) = .ok i ↔
      ∃ p : Spot, m.functions = p.fill [i] ∧ p.Names function block index := by
  constructor
  · intro h
    rw [instructionAt, bind_eq_ok_iff] at h
    obtain ⟨b, hb, hi⟩ := h
    rw [blockAt, bind_eq_ok_iff] at hb
    obtain ⟨f, hf, hb⟩ := hb
    obtain ⟨functions, functions', hfunctions, hfunction⟩ := elementAt_eq_ok_iff.1 hf
    obtain ⟨blocks, blocks', hblocks, hblock⟩ := elementAt_eq_ok_iff.1 hb
    obtain ⟨before, behind, hinstructions, hindex⟩ := elementAt_eq_ok_iff.1 hi
    refine ⟨⟨functions, f, functions', blocks, b.label, blocks', before, behind⟩, ?_,
      ⟨⟨hfunction, hblock⟩, hindex⟩⟩
    have hb' : b = { label := b.label, instructions := before ++ [i] ++ behind } := by
      rw [List.append_assoc, List.singleton_append, ← hinstructions]
    rw [hfunctions, Spot.fill, Spot.block, ← hb', ← hblocks]
  · rintro ⟨p, hm, h⟩
    rw [instructionAt, blockAt_fill hm h.toNamesBlock]
    refine elementAt_eq_ok_iff.2 ⟨_, _, ?_, h.index⟩
    rw [Spot.block, List.append_assoc, List.singleton_append]

/-- A change of the block of a place. -/
theorem modifyBlock_fill {f : Block → Block} {is' : List Instruction} (hm : m.functions = p.fill is)
    (h : p.NamesBlock function block) (hf : f (p.block is) = p.block is') :
    m.modifyBlock function block f = { m with functions := p.fill is' } := by
  rw [modifyBlock, modifyFunction, hm, Spot.fill, modifyElement_of_between _ h.function]
  dsimp only
  rw [modifyElement_of_between _ h.block, hf, Spot.fill]

/-- The place for an insertion behind an instruction. -/
theorem insert_fill (hm : m.functions = p.fill [i]) (h : p.NamesBlock function block) :
    m.insert function block (p.instructions.length + 1 : Nat) j
      = { m with
          functions := p.fill [i, { j with serial := m.nextSerial }]
          nextSerial := m.nextSerial + 1 } := by
  rw [insert]
  refine modifyBlock_fill (m := { m with nextSerial := m.nextSerial + 1 }) hm h ?_
  have hpoint : insertionPoint (p.block [i]).instructions.length (p.instructions.length + 1 : Nat)
      = (p.instructions ++ [i]).length := by
    simp only [insertionPoint, Spot.block, List.length_append, List.length_singleton]
    omega
  rw [hpoint, Spot.block, Spot.block]
  dsimp only
  have hinsert := List.modifyTailIdx_add (List.cons { j with serial := m.nextSerial }) 0
    (p.instructions ++ [i]) p.instructions'
  refine congrArg (Block.mk p.label) (hinsert.trans ?_)
  simp

/-! ## Two edits

Both are said from outside: the module before, with what stands at the place, and the module
after. -/

/-- **Renaming the result of an instruction.**  The instruction must have one, and the new id must
be valid; nothing else is changed. -/
theorem setResult_eq_ok_iff {id : Id} :
    m.setResult (.body function block index) (some id) = .ok m' ↔
      ∃ (p : Spot) (i : Instruction), m.functions = p.fill [i] ∧ p.Names function block index ∧
        i.result.isSome = true ∧ id.isValid = true ∧
        m' = { m with functions := p.fill [{ i with result := some id }] } := by
  have hmodify : ∀ {p : Spot} {i : Instruction}, m.functions = p.fill [i] →
      p.Names function block index →
      m.modifyInstruction (fun i => { i with result := some id }) (.body function block index)
        = { m with functions := p.fill [{ i with result := some id }] } := by
    intro p i hm h
    refine modifyBlock_fill hm h.toNamesBlock (congrArg (Block.mk p.label) ?_)
    show modifyElement index _ (p.instructions ++ [i] ++ p.instructions') = _
    rw [List.append_assoc, List.append_assoc]
    exact modifyElement_of_between _ h.index
  rw [setResult, bind_eq_ok_iff]
  constructor
  · rintro ⟨i, hi, h⟩
    obtain ⟨p, hm, hnames⟩ := instructionAt_body_iff.1 hi
    cases hresult : i.result with
    | none =>
      dsimp only at h
      rw [hresult, if_pos Option.isNone_none] at h
      rw [bind_eq_ok_iff] at h
      obtain ⟨text, -, h⟩ := h
      cases h
    | some old =>
      dsimp only at h
      rw [hresult, if_neg (by simp)] at h
      split at h
      · next hvalid =>
        cases h
        exact ⟨p, i, hm, hnames, by rw [hresult]; rfl, hvalid, hmodify hm hnames⟩
      · cases h
  · rintro ⟨p, i, hm, hnames, hresult, hvalid, rfl⟩
    refine ⟨i, instructionAt_body_iff.2 ⟨p, hm, hnames⟩, ?_⟩
    obtain ⟨old, hold⟩ := Option.isSome_iff_exists.1 hresult
    rw [hold, ← hmodify hm hnames]
    dsimp only
    rw [if_pos hvalid]
    rfl

/-- Only the indices that stand for a block name the same block. -/
theorem isSameBlock_iff (hm : m.functions = p.fill is) (h : p.NamesBlock function' block') :
    m.isSameBlock function block function' block' = true ↔ p.NamesBlock function block := by
  let f : Function := { p.function with blocks := p.blocks ++ p.block is :: p.blocks' }
  have hfill : m.functions = p.functions ++ f :: p.functions' := hm
  have hfunction :
      Between p.functions p.functions' function ↔
        position? (p.functions ++ f :: p.functions').length function = some p.functions.length :=
    between_iff f
  have hblock :
      Between p.blocks p.blocks' block ↔
        position? (p.blocks ++ p.block is :: p.blocks').length block = some p.blocks.length :=
    between_iff (p.block is)
  have hget : m.functions[p.functions.length]? = some f := by
    rw [hfill, List.getElem?_append_right (Nat.le_refl _), Nat.sub_self]
    rfl
  rw [isSameBlock, hfill, (between_iff f).1 h.function, ← hfill]
  constructor
  · intro heq
    split at heq
    · next n n' hn hn' =>
      cases hn'
      split at heq
      · next g hg =>
        obtain ⟨hsame, hindex⟩ := Bool.and_eq_true_iff.1 heq
        obtain rfl := beq_iff_eq.1 hsame
        cases hget.symm.trans hg
        rw [(between_iff (p.block is)).1 h.block] at hindex
        exact ⟨hfunction.2 (hfill ▸ hn), hblock.2 (beq_iff_eq.1 hindex)⟩
      · cases heq
    · cases heq
  · intro hnames
    rw [hfill, hfunction.1 hnames.function, ← hfill]
    dsimp only
    rw [hget]
    dsimp only
    rw [beq_self_eq_true, hblock.1 hnames.block, (between_iff (p.block is)).1 h.block]
    exact beq_self_eq_true _

/-- **Inserting an instruction behind another one.**  That one must be in the block and no
terminator.  The new instruction is the next of it, and one of the module's own; the others keep
their order. -/
theorem insertAfter_eq_ok_iff {n : Nat} :
    m.insertAfter function block (.body function' block' index) j = .ok (n, m') ↔
      ∃ (p : Spot) (i : Instruction), m.functions = p.fill [i] ∧ p.Names function' block' index ∧
        p.NamesBlock function block ∧ i.isTerminator = false ∧ n = p.instructions.length + 1 ∧
        m' = { m with
          functions := p.fill [i, { j with serial := m.nextSerial }]
          nextSerial := m.nextSerial + 1 } := by
  -- what is left to do once the place has been checked
  have hinsert : ∀ {p : Spot} {i : Instruction}, m.functions = p.fill [i] →
      p.NamesBlock function block → Between p.instructions p.instructions' index →
      (do
        let b ← m.blockAt function block
        let n ← position b.instructions.length index
        return (n + 1, m.insert function block (n + 1 : Nat) j) : Except Error (Nat × Module))
        = .ok (p.instructions.length + 1, { m with
            functions := p.fill [i, { j with serial := m.nextSerial }]
            nextSerial := m.nextSerial + 1 }) := by
    intro p i hm hblock hindex
    have hlength : (p.block [i]).instructions.length
        = (p.instructions ++ i :: p.instructions').length := by
      rw [Spot.block, List.append_assoc, List.singleton_append]
    rw [blockAt_fill hm hblock, ← insert_fill hm hblock]
    show (position (p.block [i]).instructions.length index >>= fun n => _) = _
    rw [position, hlength, (between_iff i).1 hindex]
    rfl
  rw [insertAfter, bind_eq_ok_iff]
  constructor
  · rintro ⟨i, hi, h⟩
    obtain ⟨p, hm, hnames⟩ := instructionAt_body_iff.1 hi
    dsimp only at h
    split at h
    · cases h
    · next hsame =>
      have hblock := (isSameBlock_iff hm hnames.toNamesBlock).1 (by simpa using hsame)
      split at h
      · cases h
      · next hterminator =>
        cases (hinsert hm hblock hnames.index).symm.trans h
        exact ⟨p, i, hm, hnames, hblock, by simpa using hterminator, rfl, rfl⟩
  · rintro ⟨p, i, hm, hnames, hblock, hterminator, rfl, rfl⟩
    refine ⟨i, instructionAt_body_iff.2 ⟨p, hm, hnames⟩, ?_⟩
    rw [(isSameBlock_iff hm hnames.toNamesBlock).2 hblock, hterminator]
    exact hinsert hm hblock hnames.index

end Module

/-! ## The edits of the barrier -/

namespace Barrier

/-- **A shift is guarded by two edits.**  Once there is a zero of its type and an id was taken, its
result is renamed to that id, and the guard is inserted directly behind it.  This is done wherever
in the module the shift stands. -/
theorem guard_eq_edits {types : TypeTable} {constants : ConstantTable} {i : Instruction}
    {c : Candidate} (hcandidate : candidate? types constants i = .ok (some c)) {s s' : State}
    {shift barrier : Instruction} {stop : Option Stop}
    (hguard : guard c s = ([shift, barrier], stop, s')) :
    ∃ zero r temporary r', s.registry.zeroId c.type = (zero, r) ∧ r.takeId = (temporary, r') ∧
      ∀ (p : Spot) (function block index : Int), p.Names function block index →
        ∃ renamed,
          ({ r'.target with functions := p.fill [i] } : Module).setResult
            (.body function block index) (some temporary) = .ok renamed ∧
          renamed.insertAfter function block (.body function block index)
              (guardInstruction c temporary zero)
            = .ok (p.instructions.length + 1,
                { s'.registry.target with functions := p.fill [shift, barrier] }) := by
  obtain ⟨⟨⟩, -⟩ | ⟨c, ⟨⟩, hshift, rfl, -, hresult, -⟩ := candidate?_cases hcandidate
  have hterminator : c.shift.isTerminator = false := by
    have hopcode : c.shift.opcode = "OpShiftLeftLogical" :=
      beq_iff_eq.1 (Bool.and_eq_true_iff.1 hshift).1
    rw [Instruction.isTerminator, hopcode]
    decide
  cases guard_outcome hguard with
  | @put zero r _ _ hzero _ hpos hlt _ =>
    obtain ⟨-, -, htake⟩ | ⟨hfull, -⟩ := r.takeId_cases
    · refine ⟨zero, r, _, _, hzero, htake, fun p function block index hnames => ?_⟩
      have hvalid : (⟨r.target.bound, none⟩ : Id).isValid = true := Id.isValid_of_pos hpos
      refine ⟨_, Module.setResult_eq_ok_iff.2
        ⟨p, c.shift, rfl, hnames, by rw [hresult]; rfl, hvalid, rfl⟩, ?_⟩
      exact Module.insertAfter_eq_ok_iff.2
        ⟨p, _, rfl, hnames, hnames.toNamesBlock, hterminator, rfl, rfl⟩
    · exact absurd (hfull hpos) (Nat.not_le.2 hlt)

end Barrier
end ShiftBarrier
