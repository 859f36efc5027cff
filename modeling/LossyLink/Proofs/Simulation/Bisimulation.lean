import LossyLink.Proofs.Simulation.Operation
import LossyLink.Proofs.Simulation.Reference

/-! # Simulations that go the same way

Two simulations are related by something that every action keeps, and the events that they take
from their queues are alike. Then they answer these events alike, step by step, and what can be
seen of the one from outside can be seen of the other.
-/

namespace LossyLink

variable {σ ρ : Type}

/-- The events happen at one time and show the same to the same end. -/
structure Event.Like (e e' : Event) : Prop where
  time : e'.time = e.time
  node : e'.what.node = e.what.node
  stimulus : e'.what.stimulus = e.what.stimulus

/-- What can be seen of a step: the clock before it, whether it took an event, and what it
showed to an end. -/
structure Glimpse where
  clock : Nat
  took : Bool
  call? : Option Call
  deriving DecidableEq, Repr

def Turn.glimpse (t : Turn σ ρ) : Glimpse := ⟨t.before.clock, t.outcome.took, t.outcome.call?⟩

namespace Simulation

theorem completed_close (s : Simulation σ ρ) (limit : Nat) (completed : Bool) :
    (s.close limit completed).completed = completed := by
  cases completed <;> rfl

/-- Related simulations take like events from their queues, and what happens to both relates
them again. -/
structure Bisimulation (R : Simulation σ ρ → Simulation σ ρ → Prop) : Prop
    extends KeepsActions R where
  clock_eq : ∀ {s t}, R s t → t.clock = s.clock
  sender_eq : ∀ {s t}, R s t → t.sender = s.sender
  receiver_eq : ∀ {s t}, R s t → t.receiver = s.receiver
  size_eq : ∀ {s t}, R s t → t.queue.size = s.queue.size
  clock : ∀ {s t} (clock : Nat), R s t → R { s with clock } { t with clock }
  sender : ∀ {s t} (sender : σ), R s t → R { s with sender } { t with sender }
  receiver : ∀ {s t} (receiver : ρ), R s t → R { s with receiver } { t with receiver }
  complete : ∀ {s t} (completed : Bool), R s t → R { s with completed } { t with completed }
  take : ∀ {s t e queue}, R s t → s.queue.pop? = some (e, queue) →
    ∃ e' queue', t.queue.pop? = some (e', queue') ∧ e.Like e' ∧ t.isStale e' = s.isStale e ∧
      R { s with queue } { t with queue := queue' }

namespace Bisimulation

variable {R : Simulation σ ρ → Simulation σ ρ → Prop} {s t : Simulation σ ρ}

theorem isEmpty_eq (hR : Bisimulation R) (h : R s t) : t.queue.isEmpty = s.queue.isEmpty := by
  unfold Queue.isEmpty
  rw [hR.size_eq h]

theorem handle (hR : Bisimulation R) (h : R s t) (ends : Ends σ ρ) (node : Node) (x : Stimulus) :
    Alike R (s.handle ends node x) (t.handle ends node x) := by
  rw [handle_eq, handle_eq, hR.clock_eq h, hR.sender_eq h, hR.receiver_eq h]
  apply hR.perform
  cases node with
  | sender =>
    have hstate : (ends.sender.react t.clock x t.sender).1 =
        (ends.sender.react s.clock x s.sender).1 := by
      rw [hR.clock_eq h, hR.sender_eq h]
    unfold Simulation.absorb
    rw [hstate]
    exact hR.sender _ h
  | receiver =>
    have hstate : (ends.receiver.react t.clock x t.receiver).1 =
        (ends.receiver.react s.clock x s.receiver).1 := by
      rw [hR.clock_eq h, hR.receiver_eq h]
    unfold Simulation.absorb
    rw [hstate]
    exact hR.receiver _ h

theorem init (hR : Bisimulation R) (h : R s t) (ends : Ends σ ρ) :
    Alike R (s.init ends) (t.init ends) :=
  (hR.handle h ends .sender .init).bind fun h => hR.handle h ends .receiver .init

theorem step (hR : Bisimulation R) (h : R s t) (ends : Ends σ ρ) :
    Alike (fun x y => y.1.took = x.1.took ∧ y.1.call? = x.1.call? ∧ R x.2 y.2)
      (s.step ends) (t.step ends) := by
  cases hq : s.queue.pop? with
  | none =>
    have hempty : s.queue.isEmpty = true := Queue.isEmpty_iff.mpr (Queue.pop?_eq_none_iff.mp hq)
    rw [step_of_isEmpty ends hempty, step_of_isEmpty ends ((hR.isEmpty_eq h).trans hempty)]
    exact .ok ⟨rfl, rfl, h⟩
  | some x =>
    obtain ⟨e, queue⟩ := x
    obtain ⟨e', queue', hq', hlike, hstale, hrest⟩ := hR.take h hq
    cases hs : s.isStale e with
    | true =>
      rw [step_of_stale hq hs, step_of_stale hq' (hstale.trans hs)]
      exact .ok ⟨rfl, rfl, hrest⟩
    | false =>
      rw [step_of_not_stale hq hs, step_of_not_stale hq' (hstale.trans hs), hlike.time,
        hlike.node, hlike.stimulus]
      apply (hR.handle (hR.clock e.time hrest) ends e.what.node e.what.stimulus).map
      rintro s' t' h'
      refine ⟨rfl, ?_, h'⟩
      simp only [Outcome.call?, hlike.time, hlike.node, hlike.stimulus]

theorem walk (hR : Bisimulation R) (h : R s t) (ends : Ends σ ρ) (n : Nat) :
    Alike (fun x y => y.1.map Turn.glimpse = x.1.map Turn.glimpse ∧ R x.2 y.2)
      (s.walk ends n) (t.walk ends n) := by
  induction n generalizing s t with
  | zero => exact .ok ⟨rfl, h⟩
  | succ n ih =>
    rw [walk_succ, walk_succ]
    apply (hR.step h ends).bind
    rintro ⟨o, s'⟩ ⟨o', t'⟩ ⟨htook, hcall, h'⟩
    apply (ih h').map
    rintro ⟨turns, s''⟩ ⟨turns', t''⟩ ⟨hturns, h''⟩
    refine ⟨?_, h''⟩
    have hfirst : Turn.glimpse ⟨t, o'⟩ = Turn.glimpse ⟨s, o⟩ := by
      unfold Turn.glimpse
      rw [hR.clock_eq h, htook, hcall]
    rw [List.map_cons, List.map_cons, hfirst, hturns]

theorem history (hR : Bisimulation R) (h : R s t) (ends : Ends σ ρ) (n : Nat) :
    Alike (fun x y => y.1.map Turn.glimpse = x.1.map Turn.glimpse ∧ R x.2 y.2)
      (s.history ends n) (t.history ends n) := by
  rw [history_eq, history_eq]
  exact (hR.init h ends).bind fun h => hR.walk h ends n

theorem close (hR : Bisimulation R) (h : R s t) (limit : Nat) (completed : Bool) :
    R (s.close limit completed) (t.close limit completed) := by
  cases completed with
  | true => exact hR.complete true h
  | false =>
    show R _ ({ t with completed := false }.notify (.stopped limit t.queue.size))
    rw [hR.size_eq h]
    exact hR.notify _ (hR.complete false h)

theorem run (hR : Bisimulation R) (h : R s t) (ends : Ends σ ρ) (limit : Nat) :
    Alike (fun x y => y.1 = x.1 ∧ y.2.completed = x.2.completed ∧ R x.2 y.2)
      (s.run ends limit) (t.run ends limit) := by
  rw [run_eq_history, run_eq_history]
  apply (hR.history h ends limit).map
  rintro ⟨turns, s'⟩ ⟨turns', t'⟩ ⟨-, h'⟩
  rw [hR.isEmpty_eq h']
  refine ⟨rfl, ?_, hR.close h' limit _⟩
  rw [completed_close, completed_close]

end Bisimulation

end Simulation

end LossyLink
