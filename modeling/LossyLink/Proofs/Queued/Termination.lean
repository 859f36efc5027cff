import LossyLink.Proofs.Queued.Delivery
import LossyLink.Proofs.StopAndWait.Termination

/-! # Stop-and-wait with a queue ends in time

When packets are dropped by rules alone, and the channel is fast beside the timer, a run
ends within four events for each message and two for each rule. Then all messages are
delivered in the order of their times, and each packet beyond the first of a message makes
up for a drop.
-/

namespace LossyLink.Queued

open Situation

theorem expected_onPacket {r r' : Receiver} {b : SeqBit} {m : Payload} {actions : List Action}
    (hr : r.onPacket (format.data b m) = (r', actions)) : r'.expected = b.flip := by
  have hi : (format.data b m).isIntact = true := Packet.isIntact_sealed _
  have hseq : (format.data b m).header.seq = b.toUInt32 := rfl
  by_cases ht : r.Takes (format.data b m)
  · obtain rfl : b = r.expected := SeqBit.toUInt32_injective (hseq.symm.trans ht.2)
    obtain ⟨first, second, hanswer⟩ := Receiver.exists_onPacket_of_takes ht
    obtain ⟨rfl, -⟩ := Prod.mk.inj (hanswer.symm.trans hr)
    rfl
  · have hne : b ≠ r.expected := by
      rintro rfl
      exact ht ⟨hi, hseq⟩
    obtain ⟨first, second, hanswer⟩ := Receiver.exists_onPacket_of_not_takes ht
    obtain ⟨rfl, -⟩ := Prod.mk.inj (hanswer.symm.trans hr)
    exact SeqBit.eq_flip_of_ne hne

theorem faithful : sending.Faithful receiving where
  accepts h := h
  confirms := by
    intro s _ hw
    have hf : s.inFlight.isSome = true := by simpa [sending] using hw
    have hi : (Receiver.ackFor s.nextSeq).isIntact = true := Packet.isIntact_sealed _
    have ha : (Receiver.ackFor s.nextSeq).header.isAck = true :=
      Packet.isAck_acknowledgement s.nextSeq.toUInt32 s.nextSeq.toUInt32 0
    have hc : s.nextSeq.carriedBy (Receiver.ackFor s.nextSeq).header.ack = true :=
      SeqBit.carriedBy_iff.mpr rfl
    simp [sending, format, Sender.confirmedBy, hf, hi, ha, hc]
  expected _ hr := expected_onPacket hr

theorem completes_within_budget {config : Config} {s : Simulation Sender Receiver}
    (hs : Simulation.create config ends = .ok s) (hloss : IsZero config.lossRate)
    (hcorrupt : IsZero config.corruptRate) (hlatency : 2 * config.maxLatency < timeout)
    (plan : List Preparation) (hcount : (planned plan).length + (scripted plan).length < 2 ^ 32)
    {limit : Nat} (hl : 4 * (planned plan).length + 2 * (scripted plan).length ≤ limit) :
    Completes ends timeout s plan limit :=
  completes_of_faultless sending_lawful receiving_lawful faithful ⟨hloss, hcorrupt⟩ hlatency hs
    plan hcount (submitted_of_drained hs) hl

/-- Three messages and four rules, one of which never applies. -/
def hindered : List Preparation :=
  [.submit 20000 [3], .dropSeq 0, .submit 0 [1, 2], .dropAck 0, .dropAck 1, .submit 0 [9],
    .dropSeq 7]

def faultless : Config where
  minLatency := 10
  maxLatency := 90
  seed := 2

theorem completes_hindered_within_budget : ∃ s' : Simulation Sender Receiver,
    ((Simulation.fresh faultless ends).prepare hindered).run ends 20 = .ok (true, s') ∧
      s'.delivered.toList = outgoing hindered ∧ s'.senderPackets = 3 + s'.dropCount := by
  have hp : isProbability 0.0 = true := by decide +kernel
  have hs : Simulation.create faultless ends = .ok (Simulation.fresh faultless ends) :=
    Simulation.create_eq_ok_iff.mpr ⟨⟨hp, hp, by decide⟩, rfl⟩
  have h := completes_within_budget hs (.inl rfl) (.inl rfl) (by decide) hindered (by decide)
    (by decide : 4 * (planned hindered).length + 2 * (scripted hindered).length ≤ 20)
  obtain ⟨s', hrun⟩ := h.exists_run (by decide)
  obtain ⟨-, hdelivered, hcount⟩ := h.outcome true s' hrun
  exact ⟨s', hrun, hdelivered, hcount⟩

end LossyLink.Queued
