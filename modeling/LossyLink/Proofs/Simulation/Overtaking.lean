import LossyLink.Proofs.Simulation.Transit

/-! # Overtaking

A packet overtakes another one when it was sent later to the same node and is due
earlier. Copies of one packet may overtake one another without anybody noticing, so
only packets that differ in their numbers count. Where none overtakes on the way to a
node the packets behind a new one carry the numbers of the new one.
-/

namespace LossyLink

/-- The numbers by which the ends tell packets apart. -/
def Packet.numbers (p : Packet) : UInt32 × UInt32 := (p.header.seq, p.header.ack)

namespace Event

theorem exists_insert_eq (e : Event) {xs : List Event} (h : xs.Pairwise Before) :
    ∃ front back, xs = front ++ back ∧ e.insert xs = front ++ e :: back ∧
      ∀ x ∈ back, e.Before x := by
  induction xs with
  | nil => exact ⟨[], [], rfl, rfl, nofun⟩
  | cons x xs ih =>
    obtain ⟨hx, hxs⟩ := List.pairwise_cons.mp h
    by_cases hb : e.Before x
    · refine ⟨[], x :: xs, rfl, if_pos hb, ?_⟩
      rintro y (_ | ⟨_, hy⟩)
      · exact hb
      · exact hb.trans (hx y hy)
    · obtain ⟨front, back, hsplit, hinsert, hback⟩ := ih hxs
      refine ⟨x :: front, back, by rw [hsplit]; rfl, ?_, hback⟩
      rw [insert, if_neg hb, hinsert]
      rfl

end Event

namespace Queue

variable {q : Queue} {time : Nat} {node : Node} {p : Packet}

/-- Among the packets on their way to a node, those that were sent earlier are due
earlier, unless they carry the same numbers. -/
def InOrder (q : Queue) (node : Node) : Prop :=
  ∀ a ∈ q.toList, ∀ b ∈ q.toList, a.id < b.id → ∀ p ∈ a.packetTo? node,
    ∀ p' ∈ b.packetTo? node, p.numbers ≠ p'.numbers → a.time ≤ b.time

instance (q : Queue) (node : Node) : Decidable (q.InOrder node) :=
  inferInstanceAs (Decidable (∀ a ∈ q.toList, ∀ b ∈ q.toList, a.id < b.id →
    ∀ p ∈ a.packetTo? node, ∀ p' ∈ b.packetTo? node, p.numbers ≠ p'.numbers → a.time ≤ b.time))

theorem InOrder.inTransit_schedule (h : (q.schedule time (.arrival node p)).InOrder node) :
    ∃ front back, q.inTransit node = front ++ back ∧
      (q.schedule time (.arrival node p)).inTransit node = front ++ p :: back ∧
      ∀ p' ∈ back, p'.numbers = p.numbers := by
  obtain ⟨front, back, hsplit, hinsert, hback⟩ :=
    Event.exists_insert_eq ⟨time, q.nextId, .arrival node p⟩ q.pairwise_toList
  have hself : Event.packetTo? node ⟨time, q.nextId, .arrival node p⟩ = some p :=
    Event.packetTo?_eq_some_iff.mpr rfl
  refine ⟨front.filterMap (Event.packetTo? node), back.filterMap (Event.packetTo? node), ?_, ?_,
    ?_⟩
  · rw [inTransit, hsplit, List.filterMap_append]
  · rw [inTransit, toList_schedule, hinsert, List.filterMap_append,
      List.filterMap_cons_some hself]
  · intro p' hp'
    obtain ⟨b, hb, hbp⟩ := List.mem_filterMap.mp hp'
    have hmem : b ∈ q.toList := hsplit ▸ List.mem_append_right _ hb
    refine Decidable.byContradiction fun hne => ?_
    have hle := h b (mem_schedule.mpr (.inr hmem)) _ (mem_schedule.mpr (.inl rfl))
      (id_lt_nextId hmem) p' hbp p hself hne
    have hlt := id_lt_nextId hmem
    have hbefore := hback b hb
    unfold Event.Before at hbefore
    simp only at hle hbefore
    omega

end Queue

end LossyLink
