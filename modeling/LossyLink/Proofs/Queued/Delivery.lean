import LossyLink.Proofs.Queued.Sides
import LossyLink.Proofs.Simulation.Submission
import LossyLink.Proofs.StopAndWait.Delivery

/-! # Stop-and-wait with a queue delivers everything

The sender turns nothing away, so what comes out is what the application submitted,
in the order of its times. As with the alternating-bit protocol, it takes a channel
on which no packet overtakes another.
-/

namespace LossyLink.Queued

open Situation

def ends : Ends Sender Receiver := ⟨sender, receiver⟩

/-- How many packets of the sender were acknowledged. -/
def acknowledged (turns : List (Turn Sender Receiver)) : Nat :=
  (heard turns).countP fun h => h.1.confirmedBy h.2

/-- What is submitted is all taken on, so in the end everything that was planned is delivered. -/
structure DeliversAll (s : Simulation Sender Receiver) (plan : List Preparation) : Prop extends
    Delivers ends submitted acknowledged (fun s => s.inFlight.isSome) s plan where
  submitted_inOrder : ∀ n turns s', (s.prepare plan).history ends n = .ok (turns, s') →
    submitted turns <+: outgoing plan
  drained_all : ∀ n turns s', (s.prepare plan).history ends n = .ok (turns, s') →
    s'.queue.isEmpty → s'.delivered.toList = outgoing plan
  completed_all : ∀ limit s', (s.prepare plan).run ends limit = .ok (true, s') →
    s'.delivered.toList = outgoing plan

variable {config : Config} {s : Simulation Sender Receiver} {R : Situation Sender Receiver → Prop}

theorem deliversAll_of_regime (hR : Regime sending receiving config R)
    (hs : Simulation.create config ends = .ok s) (plan : List Preparation) :
    DeliversAll s plan := by
  have hdelivers : Delivers ends submitted acknowledged (fun s => s.inFlight.isSome) s plan :=
    delivers_of_regime sending_lawful receiving_lawful hR hs plan (fun _ => rfl) (fun _ => rfl)
      fun _ => Option.isSome_map
  have hdrained : ∀ n turns s', (s.prepare plan).history ends n = .ok (turns, s') →
      s'.queue.isEmpty → s'.delivered.toList = outgoing plan := by
    intro n turns s' h hempty
    exact (hdelivers.drained n turns s' h hempty).trans (submitted_of_drained hs h hempty)
  constructor
  · exact hdelivers
  · intro n turns s' h
    exact ⟨_, submitted_append_submissions hs h⟩
  · exact hdrained
  · intro limit s' h
    obtain ⟨n, -, turns, s₁, hn, hempty, rfl⟩ := Simulation.history_of_run h
    exact hdrained n turns s₁ hn hempty

theorem delivers_submitted_of_latency_lt (hs : Simulation.create config ends = .ok s)
    (h : 2 * config.maxLatency < timeout) (plan : List Preparation) : DeliversAll s plan :=
  deliversAll_of_regime (regime_solitary sending_lawful receiving_lawful h) hs plan

theorem delivers_submitted_over_fast_link : ∃ s' : Simulation Sender Receiver,
    ((Simulation.fresh (noisy 10 90) ends).prepare workload).run ends 1000 = .ok (true, s') ∧
      s'.delivered.toList = outgoing workload := by
  have hrun : ∃ s', ((Simulation.fresh (noisy 10 90) ends).prepare workload).run ends 1000 =
      .ok (true, s') := Simulation.exists_run_of_completed (by decide +kernel)
  obtain ⟨s', hs'⟩ := hrun
  have hs : Simulation.create (noisy 10 90) ends = .ok _ := create_noisy (by decide)
  have h := delivers_submitted_of_latency_lt hs (by decide) workload
  exact ⟨s', hs', h.completed_all 1000 s' hs'⟩

theorem delivers_submitted_of_latency_eq (hs : Simulation.create config ends = .ok s)
    (h : config.minLatency = config.maxLatency) (plan : List Preparation) : DeliversAll s plan :=
  deliversAll_of_regime (regime_uniform h) hs plan

/-- The latency is seven times the time after which packets are sent again. -/
theorem delivers_submitted_over_slow_link : ∃ s' : Simulation Sender Receiver,
    ((Simulation.fresh (noisy 7000 7000) ends).prepare workload).run ends 1000 = .ok (true, s') ∧
      s'.delivered.toList = outgoing workload := by
  have hrun : ∃ s', ((Simulation.fresh (noisy 7000 7000) ends).prepare workload).run ends 1000 =
      .ok (true, s') := Simulation.exists_run_of_completed (by decide +kernel)
  obtain ⟨s', hs'⟩ := hrun
  have h := delivers_submitted_of_latency_eq (create_noisy (by decide : 7000 ≤ 7000)) rfl workload
  exact ⟨s', hs', h.completed_all 1000 s' hs'⟩

end LossyLink.Queued
