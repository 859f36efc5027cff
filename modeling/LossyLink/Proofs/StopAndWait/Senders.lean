import LossyLink.Proofs.AlternatingBit.Sides
import LossyLink.Proofs.Queued.Sides
import LossyLink.Proofs.StopAndWait.Attendance
import LossyLink.Proofs.StopAndWait.Delivery

/-! # No lost wake-up

Both senders are attentive: as long as a packet of theirs is outstanding its timer runs,
alone and due within the timeout, so that no peer and no channel can silence them. A run
that ends by itself leaves nothing that was not acknowledged.
-/

namespace LossyLink

/-- The message whose acknowledgement the sender takes for good. -/
def AlternatingBit.Sender.acknowledged? (s : AlternatingBit.Sender) : Stimulus → Option Payload
  | .packet p =>
    if !p.isCorrupted && s.acknowledges p then s.outstanding.map Packet.payload else none
  | .init => none
  | .timer _ => none
  | .app _ => none

/-- The message in flight, if the event is its acknowledgement. -/
def Queued.Sender.acknowledged? (s : Queued.Sender) (x : Stimulus) : Option Payload :=
  if s.confirmedBy x then s.inFlight.map Packet.payload else none

theorem AlternatingBit.acknowledged?_eq {s : AlternatingBit.Sender} {x : Stimulus}
    (hx : x ≠ .init) :
    (if s.finishes x then s.outstanding.map Packet.payload else none) = s.acknowledged? x := by
  cases ho : s.outstanding with
  | none => cases x <;> simp [Sender.acknowledged?, ho]
  | some outstanding =>
    have hw : s.isWaiting = true := by simp [Sender.isWaiting, ho]
    cases x with
    | init => exact absurd rfl hx
    | timer id =>
      have hstay : (s.react (.timer id)).1.isWaiting = true := by
        simp only [Sender.react, ho]
        split
        · exact hw
        · exact hw
      simp [Sender.finishes, Sender.acknowledged?, hstay]
    | app data =>
      have hstay : s.react (.app data) = (s, _) := if_pos hw
      simp [Sender.finishes, Sender.acknowledged?, hstay]
    | packet p =>
      have hreact : s.react (.packet p) = s.onPacket outstanding p := by simp [Sender.react, ho]
      have hwaits : (s.onPacket outstanding p).1.isWaiting =
          !(!p.isCorrupted && s.acknowledges p) := by
        have hagain : (s.retransmit outstanding).1.isWaiting = true := hw
        have hdone : Sender.isWaiting { s with outstanding := none, nextSeq := s.nextSeq.flip } =
            false := rfl
        unfold Sender.onPacket
        cases p.isCorrupted <;> cases s.acknowledges p <;> cases p.header.isAck <;>
          simp [hagain, hdone, hw]
      simp [Sender.finishes, Sender.acknowledged?, hreact, hwaits, hw, ho]

theorem senders_attentive :
    Attentive AlternatingBit.sender AlternatingBit.Sender.isWaiting AlternatingBit.Sender.timerId
        3000 (fun _ => []) AlternatingBit.Sender.taken? AlternatingBit.Sender.acknowledged? ∧
      Attentive Queued.sender (fun s => s.inFlight.isSome) (fun _ => 1) 1000
        Queued.Sender.pending (fun _ => Stimulus.submission?) Queued.Sender.acknowledged? := by
  constructor
  · refine AlternatingBit.sending_lawful.attentive ?_ ?_ ?_
    · exact fun s => Option.isSome_map
    · exact fun s => rfl
    · exact fun s x hx => AlternatingBit.acknowledged?_eq hx
  · refine Queued.sending_lawful.attentive ?_ ?_ ?_
    · exact fun s => Option.isSome_map
    · exact fun s => rfl
    · exact fun s x _ => rfl

theorem senders_attentive_over_noisy_link :
    (∃ s', ((Simulation.fresh (noisy 10 90)
        ⟨AlternatingBit.sender, AlternatingBit.receiver⟩).prepare workload).run
          ⟨AlternatingBit.sender, AlternatingBit.receiver⟩ 1000 = .ok (true, s') ∧
      s'.sender.isWaiting = false) ∧
    ∃ s', ((Simulation.fresh (noisy 10 90) ⟨Queued.sender, Queued.receiver⟩).prepare
        workload).run ⟨Queued.sender, Queued.receiver⟩ 1000 = .ok (true, s') ∧
      s'.sender.inFlight.isSome = false ∧ s'.sender.pending = [] := by
  have hbit : ∃ s', ((Simulation.fresh (noisy 10 90)
      ⟨AlternatingBit.sender, AlternatingBit.receiver⟩).prepare workload).run
        ⟨AlternatingBit.sender, AlternatingBit.receiver⟩ 1000 = .ok (true, s') :=
    Simulation.exists_run_of_completed (by decide +kernel)
  have hqueued : ∃ s', ((Simulation.fresh (noisy 10 90)
      ⟨Queued.sender, Queued.receiver⟩).prepare workload).run
        ⟨Queued.sender, Queued.receiver⟩ 1000 = .ok (true, s') :=
    Simulation.exists_run_of_completed (by decide +kernel)
  obtain ⟨s₁, h₁⟩ := hbit
  obtain ⟨s₂, h₂⟩ := hqueued
  have hidle := senders_attentive.1.run AlternatingBit.receiver workload
    (create_noisy (by decide)) h₁
  have hidle' := senders_attentive.2.run Queued.receiver workload (create_noisy (by decide)) h₂
  exact ⟨⟨s₁, h₁, hidle.1⟩, s₂, h₂, hidle'.1, hidle'.2.1⟩

end LossyLink
