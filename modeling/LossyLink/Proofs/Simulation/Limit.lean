import LossyLink.Proofs.Simulation.Bisimulation
import LossyLink.Protocol.Scripted
import LossyLink.Report

/-! # Limits of runs

A run may end in two ways: a step finds the queue empty, or all steps allowed were taken and the
queue is looked at once more. Both come to the same, since a step that finds the queue empty does
nothing: a run with a limit ends in the state after as many steps, and from the first state with an
empty queue on this is always the same state.
-/

namespace LossyLink

variable {σ ρ : Type}

namespace Simulation

/-- The state after the start and a number of steps. -/
def stateAfter (ends : Ends σ ρ) (s : Simulation σ ρ) :
    Nat → Except ClockOverflow (Simulation σ ρ)
  | 0 => s.init ends
  | k + 1 => s.stateAfter ends k >>= fun t => (t.step ends).map Prod.snd

/-- The queue is empty after so many steps, and it was not after fewer. -/
structure EmptiedAt (ends : Ends σ ρ) (s : Simulation σ ρ) (k : Nat) (t : Simulation σ ρ) :
    Prop where
  reached : s.stateAfter ends k = .ok t
  empty : t.queue.isEmpty = true
  first : ∀ j < k, ∀ u, s.stateAfter ends j = .ok u → u.queue.isEmpty = false

variable {ends : Ends σ ρ} {s t u : Simulation σ ρ} {k m : Nat}

theorem walk_concat (ends : Ends σ ρ) (n : Nat) (s : Simulation σ ρ) :
    s.walk ends (n + 1) = s.walk ends n >>= fun x =>
      (x.2.step ends).map fun y => (x.1 ++ [⟨x.2, y.1⟩], y.2) := by
  induction n generalizing s with
  | zero =>
    rw [walk_succ]
    show _ = (s.step ends).map _
    cases s.step ends <;> rfl
  | succ n ih =>
    rw [walk_succ, walk_succ ends n]
    cases s.step ends with
    | error o => rfl
    | ok x =>
      simp only [bind, Except.bind, ih]
      cases x.2.walk ends n with
      | error o => rfl
      | ok y =>
        simp only [Except.map]
        cases y.2.step ends <;> rfl

theorem stateAfter_eq_history (ends : Ends σ ρ) (s : Simulation σ ρ) (k : Nat) :
    s.stateAfter ends k = (s.history ends k).map Prod.snd := by
  induction k with
  | zero =>
    rw [history_eq]
    show s.init ends = _
    cases s.init ends <;> rfl
  | succ k ih =>
    rw [stateAfter, ih, history_eq, history_eq]
    cases s.init ends with
    | error o => rfl
    | ok t =>
      simp only [bind, Except.bind, walk_concat]
      cases t.walk ends k with
      | error o => rfl
      | ok x =>
        simp only [Except.map]
        cases x.2.step ends <;> rfl

/-- A run ends in the state after as many steps as it is allowed. -/
theorem run_eq_stateAfter (ends : Ends σ ρ) (s : Simulation σ ρ) (limit : Nat) :
    s.run ends limit = (s.stateAfter ends limit).map fun t =>
      (t.queue.isEmpty, t.close limit t.queue.isEmpty) := by
  rw [run_eq_history, stateAfter_eq_history]
  cases s.history ends limit <;> rfl

/-- Where the queue is empty the state stays what it is. -/
theorem stateAfter_add (h : s.stateAfter ends k = .ok t) (hempty : t.queue.isEmpty = true)
    (n : Nat) : s.stateAfter ends (k + n) = .ok t := by
  induction n with
  | zero => exact h
  | succ n ih =>
    show s.stateAfter ends (k + n) >>= _ = _
    rw [ih]
    show (t.step ends).map _ = _
    rw [step_of_isEmpty ends hempty]
    rfl

theorem stateAfter_of_le (h : s.stateAfter ends k = .ok t) (hempty : t.queue.isEmpty = true)
    (hle : k ≤ m) : s.stateAfter ends m = .ok t := by
  obtain ⟨n, rfl⟩ := Nat.exists_eq_add_of_le hle
  exact stateAfter_add h hempty n

theorem run_of_stateAfter (h : s.stateAfter ends m = .ok t) :
    s.run ends m = .ok (t.queue.isEmpty, t.close m t.queue.isEmpty) := by
  rw [run_eq_stateAfter, h]
  rfl

theorem run_of_emptied (h : s.stateAfter ends k = .ok t) (hempty : t.queue.isEmpty = true)
    (hle : k ≤ m) : s.run ends m = .ok (true, { t with completed := true }) := by
  rw [run_of_stateAfter (stateAfter_of_le h hempty hle), hempty]
  rfl

theorem stateAfter_of_run {completed : Bool} (h : s.run ends m = .ok (completed, t)) :
    ∃ u, s.stateAfter ends m = .ok u ∧ u.queue.isEmpty = completed ∧ t = u.close m completed := by
  rw [run_eq_stateAfter] at h
  obtain ⟨u, hu, hend⟩ := exists_of_map_eq_ok h
  obtain ⟨rfl, rfl⟩ := Prod.mk.inj hend
  exact ⟨u, hu, rfl, rfl⟩

theorem completes_iff : (s.run ends m).map Prod.fst = .ok true ↔
    ∃ k ≤ m, ∃ t, s.stateAfter ends k = .ok t ∧ t.queue.isEmpty = true := by
  constructor
  · intro h
    obtain ⟨t, ht⟩ := exists_run_of_completed h
    obtain ⟨u, hu, hempty, -⟩ := stateAfter_of_run ht
    exact ⟨m, Nat.le_refl m, u, hu, hempty⟩
  · rintro ⟨k, hle, t, ht, hempty⟩
    rw [run_of_emptied ht hempty hle]
    rfl

/-- A run with a limit completes exactly if the queue is empty after so many steps or fewer, an
event that is thrown away being a step as well, and its report says so. It ends in the first state
with an empty queue, or else in the state after all steps, with a warning. When it completes, so
does every run with a higher limit, in the same way. -/
theorem run_ends_when_first_empty (ends : Ends σ ρ) (s : Simulation σ ρ) (m : Nat) :
    ((s.run ends m).map Prod.fst = .ok true ↔
      ∃ k ≤ m, ∃ t, s.stateAfter ends k = .ok t ∧ t.queue.isEmpty = true) ∧
    (∀ completed t, s.run ends m = .ok (completed, t) → t.report.completed = completed) ∧
    (∀ k ≤ m, ∀ t, s.EmptiedAt ends k t →
      s.run ends m = .ok (true, { t with completed := true })) ∧
    (∀ t, s.stateAfter ends m = .ok t →
      (∀ k ≤ m, ∀ u, s.stateAfter ends k = .ok u → u.queue.isEmpty = false) →
      s.run ends m =
        .ok (false, { t with completed := false }.notify (.stopped m t.queue.size))) ∧
    ∀ t, s.run ends m = .ok (true, t) → ∀ m' ≥ m, s.run ends m' = .ok (true, t) := by
  refine ⟨completes_iff, ?_, ?_, ?_, ?_⟩
  · intro completed t h
    obtain ⟨u, -, -, rfl⟩ := stateAfter_of_run h
    exact completed_close u m completed
  · rintro k hle t h
    exact run_of_emptied h.reached h.empty hle
  · intro t h hnone
    rw [run_of_stateAfter h, hnone m (Nat.le_refl m) t h]
    rfl
  · rintro t h m' hle
    obtain ⟨u, hu, hempty, rfl⟩ := stateAfter_of_run h
    exact run_of_emptied hu hempty hle

/-- A sender that starts a timer twice. -/
def restarter : Ends Unit Unit where
  sender := Script.endpoint { init := [.act (.start 7 2), .act (.start 20 2)] }
  receiver := Script.endpoint {}

/-- The first of two steps throws an event away. With one step less the run does not complete. -/
theorem run_ends_when_first_empty_at_last_step : ∃ t u,
    (fresh {} restarter).EmptiedAt restarter 2 t ∧ t.clock = 20 ∧
      (fresh {} restarter).run restarter 2 = .ok (true, { t with completed := true }) ∧
      (fresh {} restarter).run restarter 100 = .ok (true, { t with completed := true }) ∧
      (fresh {} restarter).stateAfter restarter 1 = .ok u ∧ u.clock = 0 ∧
      (fresh {} restarter).run restarter 1 =
        .ok (false, { u with completed := false }.notify (.stopped 1 u.queue.size)) := by
  have hstates : ∀ k, k ≤ 2 → ∃ t, (fresh {} restarter).stateAfter restarter k = .ok t ∧
      (t.queue.isEmpty, t.clock) = (k == 2, if k = 2 then 20 else 0) := by
    intro k hk
    apply exists_of_map_eq_ok
    revert k
    decide +kernel
  obtain ⟨t, ht, hlast⟩ := hstates 2 (by decide)
  obtain ⟨u, hu, hsecond⟩ := hstates 1 (by decide)
  have hearlier : ∀ k ≤ 1, ∀ u, (fresh {} restarter).stateAfter restarter k = .ok u →
      u.queue.isEmpty = false := by
    intro k hk u hu
    obtain ⟨u', hu', hseen⟩ := hstates k (by omega)
    obtain rfl : u' = u := Except.ok.inj (hu'.symm.trans hu)
    have hk2 : (k == 2) = false := beq_eq_false_iff_ne.mpr (by omega)
    exact (Prod.mk.inj hseen).1.trans hk2
  have hemptied : (fresh {} restarter).EmptiedAt restarter 2 t :=
    ⟨ht, (Prod.mk.inj hlast).1, fun j hj => hearlier j (by omega)⟩
  obtain ⟨-, -, htwo, -, hmore⟩ := run_ends_when_first_empty restarter (fresh {} restarter) 2
  obtain ⟨-, -, -, hone, -⟩ := run_ends_when_first_empty restarter (fresh {} restarter) 1
  have hrun := htwo 2 (Nat.le_refl 2) t hemptied
  exact ⟨t, u, hemptied, (Prod.mk.inj hlast).2, hrun, hmore _ hrun 100 (by decide), hu,
    (Prod.mk.inj hsecond).2, hone u hu hearlier⟩

end Simulation

end LossyLink
