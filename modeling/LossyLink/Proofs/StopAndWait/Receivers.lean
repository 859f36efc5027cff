import LossyLink.Proofs.AlternatingBit.Reception
import LossyLink.Proofs.Queued.Sides

/-! # The two receivers

One receiver checks the Internet checksum and remembers its last acknowledgement, the other
checks nothing and remembers only the bit that it expects. If damage is shown to the second as a
number that is no bit, the two do the same over any packets: the acknowledgement remembered is
always that of the bit before the one expected.
-/

namespace LossyLink

/-- A packet whose damage shows in its number. -/
def Packet.marked (p : Packet) : Packet :=
  if p.isIntact then p else { p with header := { p.header with seq := 2 } }

theorem Packet.payload_marked (p : Packet) : p.marked.payload = p.payload := by
  unfold marked
  split <;> rfl

theorem Packet.seq_marked_iff {p : Packet} {b : SeqBit} :
    p.marked.header.seq = b.toUInt32 ↔ p.isIntact = true ∧ p.header.seq = b.toUInt32 := by
  cases hi : p.isIntact with
  | true => simp [marked, hi]
  | false => cases b <;> simp [marked, hi, SeqBit.toUInt32]

/-- The receivers expect the same bit, and the bit before it was acknowledged last. -/
structure Agree (r : Queued.Receiver) (r' : AlternatingBit.Receiver) : Prop where
  expected : r.expected = r'.expected
  lastAcked : r.lastAcked = r.expected.flip

/-- Two acknowledgements of the same number, each sound by its own checksum. -/
structure SameAck (p q : Packet) : Prop where
  number : p.header.ack = q.header.ack
  flags : p.header.isAck = true ∧ q.header.isAck = true
  empty : p.payload = [] ∧ q.payload = []
  intact : p.isIntact = true
  uncorrupted : q.isCorrupted = false

/-- Two answers that deliver the same and acknowledge the same, once each. -/
structure SameAnswer (actions actions' : List Action) : Prop where
  delivered : actions.filterMap Action.delivered? = actions'.filterMap Action.delivered?
  acks : ∃ p q, actions.filterMap Action.sent? = [p] ∧ actions'.filterMap Action.sent? = [q] ∧
    SameAck p q

theorem sameAck (b : SeqBit) :
    SameAck (Queued.Receiver.ackFor b) (AlternatingBit.Receiver.ackFor b) where
  number := rfl
  flags := ⟨Packet.isAck_acknowledgement b.toUInt32 b.toUInt32 0,
    Packet.isAck_acknowledgement 0 b.toUInt32 0⟩
  empty := ⟨rfl, rfl⟩
  intact := Packet.isIntact_sealed _
  uncorrupted := AlternatingBit.isCorrupted_ackFor b

section

variable {r : Queued.Receiver} {r' : AlternatingBit.Receiver}

/-- A packet, and the marked one, leave agreeing receivers in agreement. -/
theorem Agree.onPacket (h : Agree r r') (p : Packet) :
    Agree (r.onPacket p).1 (r'.onPacket p.marked).1 ∧
      SameAnswer (r.onPacket p).2 (r'.onPacket p.marked).2 := by
  have htakes : p.marked.header.seq = r'.expected.toUInt32 ↔ r.Takes p := by
    rw [Packet.seq_marked_iff, Queued.Receiver.Takes, h.expected]
  by_cases ht : r.Takes p
  · obtain ⟨first, second, hanswer⟩ := Queued.Receiver.exists_onPacket_of_takes ht
    rw [hanswer, AlternatingBit.Receiver.onPacket_of_expected (htakes.mpr ht)]
    constructor
    · exact ⟨congrArg SeqBit.flip h.expected, (SeqBit.flip_flip _).symm⟩
    · constructor
      · exact congrArg (fun data => [data]) p.payload_marked.symm
      · exact ⟨_, _, rfl, rfl, h.expected ▸ sameAck r.expected⟩
  · obtain ⟨first, second, hanswer⟩ := Queued.Receiver.exists_onPacket_of_not_takes ht
    obtain ⟨text, hanswer'⟩ := AlternatingBit.Receiver.exists_onPacket_of_not_expected
      (mt htakes.mp ht)
    rw [hanswer, hanswer']
    constructor
    · exact h
    · constructor
      · rfl
      · refine ⟨_, _, rfl, rfl, ?_⟩
        rw [h.lastAcked, h.expected]
        exact sameAck _

theorem Agree.run (h : Agree r r') (xs : List (Nat × Packet)) :
    Agree (Queued.receiver.run (arriving xs) r).1
        (AlternatingBit.receiver.run (arriving (xs.map (Prod.map id Packet.marked))) r').1 ∧
      List.Forall₂ SameAnswer (Queued.receiver.run (arriving xs) r).2
        (AlternatingBit.receiver.run (arriving (xs.map (Prod.map id Packet.marked))) r').2 := by
  induction xs generalizing r r' with
  | nil => exact ⟨h, .nil⟩
  | cons x xs ih =>
    obtain ⟨hnext, hanswer⟩ := h.onPacket x.2
    obtain ⟨hend, hrest⟩ := ih hnext
    exact ⟨hend, .cons hanswer hrest⟩

end

/-- Over any packets the receivers agree after each of them, the second being shown the marked
packets, and answer each in the same way. -/
theorem receivers_agree (xs : List (Nat × Packet)) :
    (∀ n, Agree (Queued.receiver.run (arriving (xs.take n)) Queued.receiver.start).1
      (AlternatingBit.receiver.run (arriving ((xs.map (Prod.map id Packet.marked)).take n))
        AlternatingBit.receiver.start).1) ∧
    List.Forall₂ SameAnswer (Queued.receiver.run (arriving xs) Queued.receiver.start).2
      (AlternatingBit.receiver.run (arriving (xs.map (Prod.map id Packet.marked)))
        AlternatingBit.receiver.start).2 := by
  have hstart : Agree Queued.receiver.start AlternatingBit.receiver.start := ⟨rfl, rfl⟩
  constructor
  · intro n
    rw [← List.map_take]
    exact (hstart.run (xs.take n)).1
  · exact (hstart.run xs).2

end LossyLink
