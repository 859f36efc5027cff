import LossyLink.Proofs.AlternatingBit.Sides
import LossyLink.Proofs.StopAndWait.Delivery

/-! # The alternating-bit protocol delivers what it accepts

The sender accepts a message that comes while it does not wait. Whatever the channel
loses or damages, the accepted messages come out in order and each at most once, and
none is missing once the queue has emptied. It takes a channel without overtaking:
one that is fast beside the timer, or one of equal latencies, however slow.
-/

namespace LossyLink.AlternatingBit

open Situation

def ends : Ends Sender Receiver := ⟨sender, receiver⟩

/-- The messages that the sender took on, in the order in which they came. -/
def accepted (turns : List (Turn Sender Receiver)) : List Payload :=
  (heard turns).filterMap fun h => h.1.taken? h.2

/-- How often the sender stopped waiting. -/
def acknowledged (turns : List (Turn Sender Receiver)) : Nat :=
  (heard turns).countP fun h => h.1.finishes h.2

variable {config : Config} {s : Simulation Sender Receiver}

theorem delivers_accepted_of_latency_lt (hs : Simulation.create config ends = .ok s)
    (h : 2 * config.maxLatency < timeout) (plan : List Preparation) :
    Delivers ends accepted acknowledged Sender.isWaiting s plan :=
  delivers_of_regime sending_lawful receiving_lawful
    (regime_solitary sending_lawful receiving_lawful h) hs plan (fun _ => rfl) (fun _ => rfl)
    fun _ => Option.isSome_map

theorem delivers_accepted_over_fast_link : ∃ s' : Simulation Sender Receiver,
    ((Simulation.fresh (noisy 10 90) ends).prepare workload).run ends 1000 = .ok (true, s') ∧
      ∃ n ≤ 1000, ∃ turns s₁,
        ((Simulation.fresh (noisy 10 90) ends).prepare workload).history ends n = .ok (turns, s₁) ∧
          s' = s₁.close 1000 true ∧ s'.delivered.toList = accepted turns := by
  have hrun : ∃ s', ((Simulation.fresh (noisy 10 90) ends).prepare workload).run ends 1000 =
      .ok (true, s') := Simulation.exists_run_of_completed (by decide +kernel)
  obtain ⟨s', hs'⟩ := hrun
  have hs : Simulation.create (noisy 10 90) ends = .ok _ := create_noisy (by decide)
  have h := delivers_accepted_of_latency_lt hs (by decide) workload
  exact ⟨s', hs', h.completed 1000 s' hs'⟩

theorem delivers_accepted_of_latency_eq (hs : Simulation.create config ends = .ok s)
    (h : config.minLatency = config.maxLatency) (plan : List Preparation) :
    Delivers ends accepted acknowledged Sender.isWaiting s plan :=
  delivers_of_regime sending_lawful receiving_lawful (regime_uniform h) hs plan (fun _ => rfl)
    (fun _ => rfl) fun _ => Option.isSome_map

/-- The latency is more than twice the time after which packets are sent again. -/
theorem delivers_accepted_over_slow_link : ∃ s' : Simulation Sender Receiver,
    ((Simulation.fresh (noisy 7000 7000) ends).prepare workload).run ends 1000 = .ok (true, s') ∧
      ∃ n ≤ 1000, ∃ turns s₁,
        ((Simulation.fresh (noisy 7000 7000) ends).prepare workload).history ends n =
            .ok (turns, s₁) ∧
          s' = s₁.close 1000 true ∧ s'.delivered.toList = accepted turns := by
  have hrun : ∃ s', ((Simulation.fresh (noisy 7000 7000) ends).prepare workload).run ends 1000 =
      .ok (true, s') := Simulation.exists_run_of_completed (by decide +kernel)
  obtain ⟨s', hs'⟩ := hrun
  have h := delivers_accepted_of_latency_eq (create_noisy (by decide : 7000 ≤ 7000)) rfl workload
  exact ⟨s', hs', h.completed 1000 s' hs'⟩

end LossyLink.AlternatingBit
