import LossyLink.Checksum
import LossyLink.Simulation.Step

/-! # Damage

The channel damages a packet by inverting its checksum. All else arrives as it was
sent, and either checksum gives the damage away.
-/

namespace LossyLink

theorem compl_ne (c : UInt16) : ~~~c ≠ c := by
  intro h
  have hbit := congrArg (fun d => d.toBitVec.getLsbD 0) h
  simp at hbit

namespace Packet

variable {p q : Packet}

/-- What arrives of a packet, if anything does. -/
def IsCopy (p q : Packet) : Prop := q = p ∨ q = p.damaged

theorem IsCopy.payload_eq (h : p.IsCopy q) : q.payload = p.payload := by
  rcases h with rfl | rfl <;> rfl

theorem IsCopy.seq_eq (h : p.IsCopy q) : q.header.seq = p.header.seq := by
  rcases h with rfl | rfl <;> rfl

theorem isCorrupted_damaged (h : p.isCorrupted = false) : p.damaged.isCorrupted = true := by
  simp only [isCorrupted, bne_eq_false_iff_eq, bne_iff_ne, ne_eq] at h ⊢
  exact fun he => compl_ne _ (he.symm.trans h)

theorem isIntact_damaged (h : p.isIntact = true) : p.damaged.isIntact = false := by
  simp only [isIntact, beq_iff_eq, beq_eq_false_iff_ne, ne_eq] at h ⊢
  exact fun he => compl_ne _ (he.symm.trans h)

theorem IsCopy.eq_of_not_isCorrupted (hp : p.isCorrupted = false) (h : p.IsCopy q)
    (hq : q.isCorrupted = false) : q = p := by
  rcases h with rfl | rfl
  · rfl
  · rw [isCorrupted_damaged hp] at hq
    cases hq

theorem IsCopy.eq_of_isIntact (hp : p.isIntact = true) (h : p.IsCopy q)
    (hq : q.isIntact = true) : q = p := by
  rcases h with rfl | rfl
  · rfl
  · rw [isIntact_damaged hp] at hq
    cases hq

end Packet

end LossyLink
