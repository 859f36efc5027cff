import LossyLink.Proofs.Simulation.Congruence
import LossyLink.Proofs.Simulation.History

/-! # Operations

A simulation may be prepared further, started again, taken a step or run at any time and in
any order. What the changes of which these consist keep, every sequence of them keeps.
-/

namespace LossyLink

variable {σ ρ : Type}

namespace Simulation

section

variable {ends : Ends σ ρ} {s : Simulation σ ρ} {e : Event} {queue : Queue}

theorem step_of_stale (hq : s.queue.pop? = some (e, queue)) (he : s.isStale e = true) :
    s.step ends = .ok (.stale e, { s with queue }) := by
  have hstale : ({ s with queue } : Simulation σ ρ).isStale e = true := he
  simp only [step, hq, hstale, if_true]

theorem step_of_not_stale (hq : s.queue.pop? = some (e, queue)) (he : s.isStale e = false) :
    s.step ends = ({ s with queue, clock := e.time }.handle ends e.what.node
      e.what.stimulus).map fun s => (.handled e, s) := by
  have hstale : ({ s with queue } : Simulation σ ρ).isStale e = false := he
  simp only [step, hq, hstale, Bool.false_eq_true, if_false]
  cases Simulation.handle ends _ e.what.node e.what.stimulus <;> rfl

end

theorem steps_succ (ends : Ends σ ρ) (limit : Nat) (s : Simulation σ ρ) :
    s.steps ends (limit + 1) = s.step ends >>= fun x =>
      if x.1.took then x.2.steps ends limit else .ok (true, x.2) := by
  simp only [steps]
  cases s.step ends with
  | error o => rfl
  | ok x => obtain ⟨_ | e | e, s⟩ := x <;> rfl

theorem run_eq (ends : Ends σ ρ) (limit : Nat) (s : Simulation σ ρ) :
    s.run ends limit = s.init ends >>= fun s =>
      (s.steps ends limit).map fun x => (x.1, x.2.close limit x.1) := by
  unfold run
  cases s.init ends with
  | error o => rfl
  | ok s =>
    simp only [bind, Except.bind]
    cases s.steps ends limit <;> rfl

theorem walk_succ (ends : Ends σ ρ) (n : Nat) (s : Simulation σ ρ) :
    s.walk ends (n + 1) = s.step ends >>= fun x =>
      (x.2.walk ends n).map fun y => (⟨s, x.1⟩ :: y.1, y.2) := by
  simp only [walk]
  cases s.step ends with
  | error o => rfl
  | ok x =>
    obtain ⟨o, t⟩ := x
    simp only [bind, Except.bind]
    cases t.walk ends n <;> rfl

theorem length_of_walk {n : Nat} {s' : Simulation σ ρ} {ends : Ends σ ρ} {turns : List (Turn σ ρ)}
    {s : Simulation σ ρ} (h : s.walk ends n = .ok (turns, s')) : turns.length = n := by
  induction n generalizing s turns with
  | zero =>
    cases h
    rfl
  | succ n ih =>
    obtain ⟨o, t, rest, -, hw, rfl⟩ := walk_succ_eq_ok h
    exact congrArg (· + 1) (ih hw)

theorem step_of_isEmpty {s : Simulation σ ρ} (ends : Ends σ ρ) (h : s.queue.isEmpty = true) :
    s.step ends = .ok (.drained, s) := by
  have hq : s.queue.pop? = none := Queue.pop?_eq_none_iff.mpr (Queue.isEmpty_iff.mp h)
  simp only [step, hq]

theorem walk_of_isEmpty {s : Simulation σ ρ} (ends : Ends σ ρ) (h : s.queue.isEmpty = true)
    (n : Nat) : s.walk ends n = .ok (List.replicate n ⟨s, .drained⟩, s) := by
  induction n with
  | zero => rfl
  | succ n ih =>
    rw [walk_succ, step_of_isEmpty ends h]
    show (s.walk ends n).map _ = _
    rw [ih]
    rfl

theorem steps_eq_walk (ends : Ends σ ρ) (limit : Nat) (s : Simulation σ ρ) :
    s.steps ends limit = (s.walk ends limit).map fun x => (x.2.queue.isEmpty, x.2) := by
  induction limit generalizing s with
  | zero => rfl
  | succ limit ih =>
    rw [steps_succ, walk_succ]
    cases hs : s.step ends with
    | error o => rfl
    | ok x =>
      obtain ⟨o, t⟩ := x
      cases ho : o.took with
      | true =>
        simp only [bind, Except.bind, ho, if_true, ih]
        cases t.walk ends limit <;> rfl
      | false =>
        obtain rfl : o = .drained := by
          cases o with
          | drained => rfl
          | stale e => cases ho
          | handled e => cases ho
        obtain ⟨hempty, rfl⟩ := step_eq_drained hs
        simp only [bind, Except.bind, ho, walk_of_isEmpty ends hempty]
        simp [Except.map, hempty]

theorem history_eq (ends : Ends σ ρ) (n : Nat) (s : Simulation σ ρ) :
    s.history ends n = s.init ends >>= fun s => s.walk ends n := by
  unfold history
  cases s.init ends <;> rfl

theorem run_eq_history (ends : Ends σ ρ) (limit : Nat) (s : Simulation σ ρ) :
    s.run ends limit = (s.history ends limit).map fun x =>
      (x.2.queue.isEmpty, x.2.close limit x.2.queue.isEmpty) := by
  rw [run_eq, history_eq]
  cases s.init ends with
  | error o => rfl
  | ok t =>
    simp only [bind, Except.bind, steps_eq_walk]
    cases t.walk ends limit <;> rfl

end Simulation

inductive Operation where
  | arrange (p : Preparation)
  | init
  | step
  | run (limit : Nat)
  deriving DecidableEq, Repr

namespace Simulation

def operate (ends : Ends σ ρ) (s : Simulation σ ρ) :
    Operation → Except ClockOverflow (Simulation σ ρ)
  | .arrange p => .ok (s.arrange p)
  | .init => s.init ends
  | .step => (s.step ends).map Prod.snd
  | .run limit => (s.run ends limit).map Prod.snd

/-- Carry out operations one after another. -/
def operateAll (ends : Ends σ ρ) (s : Simulation σ ρ) (ops : List Operation) :
    Except ClockOverflow (Simulation σ ρ) :=
  ops.foldlM (operate ends) s

/-- Every change that an operation makes keeps it. -/
structure Permanent (P : Simulation σ ρ → Prop) : Prop extends Invariant P where
  absorb : ∀ {s} (sender : σ) (receiver : ρ), P s → P { s with sender, receiver }
  arrange : ∀ {s} (p : Preparation), P s → P (s.arrange p)
  take : ∀ {s e queue}, P s → s.queue.pop? = some (e, queue) → P { s with queue }
  reach : ∀ {s e queue}, P s → s.queue.pop? = some (e, queue) →
    P { s with queue, clock := e.time }
  complete : ∀ {s} (completed : Bool), P s → P { s with completed }

namespace Permanent

variable {P : Simulation σ ρ → Prop} {ends : Ends σ ρ} {s s' : Simulation σ ρ}

theorem init (hP : Permanent P) (h : P s) (hs : s.init ends = .ok s') : P s' := by
  obtain ⟨t, hsender, hreceiver⟩ := init_eq_ok hs
  exact hP.handle hP.absorb (hP.handle hP.absorb h hsender) hreceiver

theorem step (hP : Permanent P) {o : Outcome} (h : P s) (hs : s.step ends = .ok (o, s')) :
    P s' := by
  rcases step_eq_ok hs with ⟨-, -, rfl⟩ | ⟨e, queue, hq, -, -, rfl⟩ | ⟨e, queue, hq, -, -, hh⟩
  · exact h
  · exact hP.take h hq
  · exact hP.handle hP.absorb (hP.reach h hq) hh

theorem steps (hP : Permanent P) {limit : Nat} {completed : Bool} (h : P s)
    (hs : s.steps ends limit = .ok (completed, s')) : P s' := by
  induction limit generalizing s with
  | zero => cases hs; exact h
  | succ limit ih =>
    rw [steps_succ] at hs
    obtain ⟨⟨o, t⟩, ht, hs⟩ := exists_of_bind_eq_ok hs
    split at hs
    · exact ih (hP.step h ht) hs
    · cases hs
      exact hP.step h ht

theorem close (hP : Permanent P) (limit : Nat) (completed : Bool) (h : P s) :
    P (s.close limit completed) := by
  cases completed with
  | true => exact hP.complete true h
  | false => exact hP.notify _ (hP.complete false h)

theorem run (hP : Permanent P) {limit : Nat} {completed : Bool} (h : P s)
    (hs : s.run ends limit = .ok (completed, s')) : P s' := by
  rw [run_eq] at hs
  obtain ⟨s₀, hinit, hs⟩ := exists_of_bind_eq_ok hs
  obtain ⟨⟨c, s₁⟩, hsteps, hend⟩ := exists_of_map_eq_ok hs
  obtain ⟨rfl, rfl⟩ := Prod.mk.inj hend
  exact hP.close _ _ (hP.steps (hP.init h hinit) hsteps)

theorem operate (hP : Permanent P) (op : Operation) (h : P s)
    (hs : s.operate ends op = .ok s') : P s' := by
  cases op with
  | arrange p => cases hs; exact hP.arrange p h
  | init => exact hP.init h hs
  | step =>
    obtain ⟨⟨o, t⟩, ht, rfl⟩ := exists_of_map_eq_ok hs
    exact hP.step h ht
  | run limit =>
    obtain ⟨⟨completed, t⟩, ht, rfl⟩ := exists_of_map_eq_ok hs
    exact hP.run h ht

theorem operateAll (hP : Permanent P) (ops : List Operation) (h : P s)
    (hs : s.operateAll ends ops = .ok s') : P s' := by
  unfold Simulation.operateAll at hs
  induction ops generalizing s with
  | nil => cases hs; exact h
  | cons op ops ih =>
    rw [List.foldlM_cons] at hs
    obtain ⟨t, ht, hs⟩ := exists_of_bind_eq_ok hs
    exact ih (hP.operate op h ht) hs

end Permanent

end Simulation

end LossyLink
