import LossyLink.Proofs.Queued.Termination
import LossyLink.Proofs.StopAndWait.Accounting
import LossyLink.Report

/-! # What stop-and-wait with a queue pays for faults

An attempt that fails is made up for by the timer alone, so it costs a packet and a timeout, and
at least one fault of the channel is behind it. Messages queue behind each other, but from the
last submission on the sender is busy until all are acknowledged.
-/

namespace LossyLink.Queued

open Situation

theorem checks : sending.Checks := by
  intro s b
  show s.confirmedBy (.packet (Receiver.ackFor b).damaged) = false
  have hi : (Receiver.ackFor b).damaged.isIntact = false :=
    Packet.isIntact_damaged (Packet.isIntact_sealed _)
  simp [Sender.confirmedBy, hi]

theorem accountable : sending.Accountable receiving False where
  sending := sending_lawful
  receiving := receiving_lawful
  faithful := faithful
  checks := checks
  eager h := h.elim

variable {config : Config} {s s' : Simulation Sender Receiver} {plan : List Preparation}
  {turns : List (Turn Sender Receiver)} {n : Nat}

theorem bounds_of_history (hs : Simulation.create config ends = .ok s)
    (hlatency : 2 * config.maxLatency < timeout)
    (h : (s.prepare plan).history ends n = .ok (turns, s')) :
    (submitted turns).length ≤ s'.senderPackets + s'.sender.pending.length ∧
    s'.senderPackets + s'.sender.pending.length ≤ (submitted turns).length + s'.faultCount ∧
    (s'.queue.isEmpty →
      (planned plan).length ≤ s'.senderPackets ∧
      s'.senderPackets ≤ (planned plan).length + s'.faultCount ∧
      s'.report.duration ≤ latest plan + timeout * s'.faultCount +
        2 * config.maxLatency * (planned plan).length) := by
  obtain ⟨x, hmoves, hx⟩ := exists_accounted_of_history accountable hlatency hs h
  have hcovered : x.Covered timeout config.maxLatency := Course.covered_of_moves hlatency hmoves
  obtain ⟨-, lower, upper, settled, timely⟩ := hcovered
  have hsubmitted : x.accepted = (submitted turns).length := hx.follows.accepted
  have hpending : x.backlog = s'.sender.pending.length := hx.follows.backlog
  rw [← hx.follows.sent_eq, ← hx.follows.faults_eq, ← hsubmitted, ← hpending]
  refine ⟨lower, by omega, ?_⟩
  intro hempty
  have hidle := hx.idle_of_drained hempty
  simp only [Course.Timely, Course.allowance, Course.busy, hidle] at timely settled
  have hlast : x.last ≤ latest plan := hx.follows.last ▸ lastTime_le_latest hs h
  have hduration : s'.report.duration = x.now := hx.follows.now.symm
  have hplanned : x.accepted = (planned plan).length := by
    rw [hsubmitted, submitted_of_drained hs h hempty, length_outgoing]
  have hconfirmed : x.confirmed = (planned plan).length := by omega
  rw [hconfirmed] at timely
  rw [hduration]
  refine ⟨?_, ?_, ?_⟩
  all_goals omega

/-- Every message was sent at least once or waits its turn, and every packet beyond that has a
fault of its own behind it. Faults and ways there and back also account for the time that a
drained history took. -/
theorem packets_bounded (hs : Simulation.create config ends = .ok s)
    (hlatency : 2 * config.maxLatency < timeout) (plan : List Preparation) :
    (∀ n turns s', (s.prepare plan).history ends n = .ok (turns, s') →
      (submitted turns).length ≤ s'.senderPackets + s'.sender.pending.length ∧
      s'.senderPackets + s'.sender.pending.length ≤ (submitted turns).length + s'.faultCount ∧
      (s'.queue.isEmpty →
        (planned plan).length ≤ s'.senderPackets ∧
        s'.senderPackets ≤ (planned plan).length + s'.faultCount ∧
        s'.report.duration ≤ latest plan + timeout * s'.faultCount +
          2 * config.maxLatency * (planned plan).length)) ∧
    ∀ limit s', (s.prepare plan).run ends limit = .ok (true, s') →
      (planned plan).length ≤ s'.senderPackets ∧
      s'.senderPackets ≤ (planned plan).length + s'.faultCount ∧
      s'.report.duration ≤ latest plan + timeout * s'.faultCount +
        2 * config.maxLatency * (planned plan).length := by
  constructor
  · intro n turns s' h
    exact bounds_of_history hs hlatency h
  · intro limit s' hrun
    obtain ⟨n, -, turns, s₁, h, hempty, rfl⟩ := Simulation.history_of_run hrun
    obtain ⟨-, -, hdrained⟩ := bounds_of_history hs hlatency h
    exact hdrained hempty

theorem packets_bounded_over_noisy_link : ∃ s' : Simulation Sender Receiver,
    ((Simulation.fresh (noisy 10 90) ends).prepare workload).run ends 1000 = .ok (true, s') ∧
      s'.faultCount = 4 ∧ s'.senderPackets = 6 ∧ s'.senderPackets ≤ 3 + 4 ∧
      s'.report.duration ≤ 20000 + 1000 * 4 + 180 * 3 := by
  have hrun : (((Simulation.fresh (noisy 10 90) ends).prepare workload).run ends 1000).map
      (fun r => (r.1, r.2.faultCount, r.2.senderPackets)) = .ok (true, 4, 6) := by decide +kernel
  obtain ⟨⟨completed, s'⟩, h, hcounts⟩ := exists_of_map_eq_ok hrun
  obtain ⟨rfl, hfaults, hpackets⟩ : completed = true ∧ s'.faultCount = 4 ∧
      s'.senderPackets = 6 := by simpa using hcounts
  obtain ⟨-, hupper, hduration⟩ :=
    (packets_bounded (create_noisy (by decide)) (by decide) workload).2 _ _ h
  rw [hfaults] at hupper hduration
  exact ⟨s', h, hfaults, hpackets, hupper, hduration⟩

end LossyLink.Queued
