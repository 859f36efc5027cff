import LossyLink.Proofs.Simulation.Situation
import LossyLink.Proofs.Simulation.Transit

/-! # Coherent situations

Nothing in the queue is overdue, no packet travels longer than the channel allows,
and no expiry belongs to a generation that has not begun. This holds in every
situation of a run, whatever the two ends do.
-/

namespace LossyLink

theorem Generations.get_le_get_bump (g : Generations) (k k' : TimerKey) :
    g.get k' ≤ (g.bump k).get k' := by
  rw [get_bump]
  split
  · rename_i h
    exact h ▸ Nat.le_succ _
  · exact Nat.le_refl _

namespace Situation

variable {σ ρ : Type} {ends : Ends σ ρ} {c c' : Situation σ ρ} {node : Node}

structure Coherent (c : Situation σ ρ) : Prop where
  clock_le : ∀ e ∈ c.queue.toList, c.clock ≤ e.time
  arrival_le : ∀ e ∈ c.queue.arrivals, e.time ≤ c.clock + c.config.maxLatency
  generation_le : ∀ e ∈ c.queue.toList, ∀ {node id generation},
    e.what = .expiry node id generation → generation ≤ c.generations.get (node, id)

theorem coherent_of_submissions (hc : c.clock = 0)
    (h : ∀ e ∈ c.queue.toList, ∃ data, e.what = .submission data) : c.Coherent where
  clock_le e _ := hc ▸ Nat.zero_le _
  arrival_le e he := by
    obtain ⟨he, ha⟩ := List.mem_filter.mp he
    obtain ⟨data, hd⟩ := h e he
    simp [Event.isArrival, hd] at ha
  generation_le e he := by
    obtain ⟨data, hd⟩ := h e he
    simp [hd]

theorem Coherent.enqueue (h : c.Coherent) {time : Nat} {what : Happening}
    (ht : c.clock ≤ time)
    (ha : ∀ {node p}, what = .arrival node p → time ≤ c.clock + c.config.maxLatency)
    (hg : ∀ {node id generation}, what = .expiry node id generation →
      generation ≤ c.generations.get (node, id)) : (c.enqueue time what).Coherent where
  clock_le e he := by
    rcases Queue.mem_schedule.mp he with rfl | he
    · exact ht
    · exact h.clock_le e he
  arrival_le e he := by
    obtain ⟨he, hi⟩ := List.mem_filter.mp he
    rcases Queue.mem_schedule.mp he with rfl | he
    · obtain ⟨node, p, hw⟩ := Event.isArrival_iff.mp hi
      exact ha hw
    · exact h.arrival_le e (List.mem_filter.mpr ⟨he, hi⟩)
  generation_le e he := by
    rcases Queue.mem_schedule.mp he with rfl | he
    · exact hg
    · exact h.generation_le e he

theorem Coherent.bump (h : c.Coherent) (k : TimerKey) :
    { c with generations := c.generations.bump k }.Coherent where
  clock_le := h.clock_le
  arrival_le := h.arrival_le
  generation_le e he _ _ _ hw :=
    Nat.le_trans (h.generation_le e he hw) (Generations.get_le_get_bump _ _ _)

theorem Coherent.timer (h : c.Coherent) (op : TimerOp) : (c.timer node op).Coherent := by
  cases op with
  | cancel id => exact h.bump _
  | start delay id =>
    refine (h.bump (node, id)).enqueue (Nat.le_add_right _ _) nofun ?_
    rintro _ _ _ ⟨⟩
    exact Nat.le_refl _

theorem Coherent.carried {p : Packet} (h : c.Coherent) (hc : Carried node p c c') :
    c'.Coherent := by
  cases hc with
  | dropped => exact h
  | sent hq hmin hmax =>
    exact h.enqueue (Nat.le_add_right _ _) (fun _ => Nat.add_le_add_left hmax _) nofun

theorem Coherent.handled {x : Stimulus} (h : c.Coherent) (hh : Handled ends x c node c') :
    c'.Coherent := by
  refine hh.invariant ?_ ?_ ?_ h
  · intro d sender receiver delivered hd
    exact ⟨hd.clock_le, hd.arrival_le, hd.generation_le⟩
  · intro d op hd
    exact hd.timer op
  · intro d d' p hd hp
    exact hd.carried hp

theorem Coherent.drop {e : Event} {queue : Queue} (h : c.Coherent)
    (hq : c.queue.pop? = some (e, queue)) : { c with queue }.Coherent where
  clock_le x hx := h.clock_le x (Queue.mem_of_mem_rest hq hx)
  arrival_le x hx := by
    obtain ⟨hx, ha⟩ := List.mem_filter.mp hx
    exact h.arrival_le x
      (List.mem_filter.mpr ⟨Queue.mem_of_mem_rest hq hx, ha⟩)
  generation_le x hx := h.generation_le x (Queue.mem_of_mem_rest hq hx)

theorem Coherent.clock_le_of_pop? {e : Event} {queue : Queue} (h : c.Coherent)
    (hq : c.queue.pop? = some (e, queue)) : c.clock ≤ e.time :=
  h.clock_le e (Queue.first_mem_of_pop?_eq_some hq)

theorem Coherent.reach {e : Event} {queue : Queue} (h : c.Coherent)
    (hq : c.queue.pop? = some (e, queue)) : (c.reach e queue).Coherent where
  clock_le := Queue.time_le_of_pop?_eq_some hq
  arrival_le x hx :=
    Nat.le_trans ((h.drop hq).arrival_le x hx) (Nat.add_le_add_right (h.clock_le_of_pop? hq) _)
  generation_le := (h.drop hq).generation_le

theorem Coherent.step {o : Outcome} (h : c.Coherent) (hs : Step ends c o c') :
    c'.Coherent := by
  cases hs with
  | drained => exact h
  | stale hq _ => exact h.drop hq
  | handled hq _ hc => exact (h.reach hq).handled hc

end Situation

end LossyLink
