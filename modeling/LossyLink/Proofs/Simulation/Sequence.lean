import LossyLink.Proofs.AlternatingBit.Delivery
import LossyLink.Proofs.Simulation.Channel
import LossyLink.Proofs.Simulation.Congruence

/-! # The order of events

Over a whole run the queue hands out every event once and in order: by time, and among
events of one instant as they were scheduled. Nothing is scheduled for a time that has
passed, so whatever waits comes after all that was taken, and the records are kept in the
order of time.
-/

namespace LossyLink

/-- The queue is left when events were scheduled and others taken, in any alternation, each
kind listed one after the other. -/
inductive Queue.Traced : List Event → List Event → Queue → Prop where
  | empty : Traced [] [] .empty
  | schedule {scheduled taken : List Event} {q : Queue} (time : Nat) (what : Happening)
      (h : Traced scheduled taken q) :
      Traced (scheduled ++ [⟨time, q.nextId, what⟩]) taken (q.schedule time what)
  | take {scheduled taken : List Event} {q q' : Queue} {e : Event}
      (h : Traced scheduled taken q) (hq : q.pop? = some (e, q')) :
      Traced scheduled (taken ++ [e]) q'

namespace Queue.Traced

variable {scheduled taken : List Event} {q : Queue}

theorem map_id (h : q.Traced scheduled taken) :
    scheduled.map Event.id = List.range q.nextId := by
  induction h with
  | empty => rfl
  | schedule time what _ ih => rw [List.map_append, ih, nextId_schedule, List.range_succ]; rfl
  | take _ hq ih => rw [ih, nextId_of_pop?_eq_some hq]

theorem perm (h : q.Traced scheduled taken) : (taken ++ q.toList).Perm scheduled := by
  induction h with
  | empty => exact .refl _
  | @schedule scheduled taken q time what _ ih =>
    rw [toList_schedule]
    refine ((Event.insert_perm _ _).append_left taken).trans (List.perm_middle.trans ?_)
    exact (ih.cons _).trans (List.perm_append_singleton _ _).symm
  | take _ hq ih =>
    rw [List.append_assoc, List.singleton_append, ← toList_of_pop?_eq_some hq]
    exact ih

theorem id_lt (h : q.Traced scheduled taken) {e : Event} (he : e ∈ taken) :
    e.id < q.nextId := by
  have hs : e ∈ scheduled := h.perm.mem_iff.mp (List.mem_append_left _ he)
  exact List.mem_range.mp (h.map_id ▸ List.mem_map_of_mem hs)

end Queue.Traced

/-- Times one after the other, none of them after `now`. -/
def Chronological (now : Nat) (times : List Nat) : Prop :=
  times.Pairwise (· ≤ ·) ∧ ∀ t ∈ times, t ≤ now

namespace Chronological

variable {now now' : Nat} {times times' : List Nat}

theorem later (h : Chronological now times) (hn : now ≤ now') : Chronological now' times :=
  ⟨h.1, fun t ht => Nat.le_trans (h.2 t ht) hn⟩

theorem concat (h : Chronological now times) : Chronological now (times ++ [now]) := by
  refine ⟨List.pairwise_append.mpr ⟨h.1, List.pairwise_singleton _ _, fun t ht => ?_⟩, ?_⟩
  · simpa using h.2 t ht
  · intro t ht
    rcases List.mem_append.mp ht with ht | ht
    · exact h.2 t ht
    · exact Nat.le_of_eq (List.mem_singleton.mp ht)

theorem sublist (h : Chronological now times) (hs : times'.Sublist times) :
    Chronological now times' :=
  ⟨h.1.sublist hs, fun t ht => h.2 t (hs.subset ht)⟩

end Chronological

/-- The event that was taken from the queue. -/
def Outcome.event? : Outcome → Option Event
  | .drained => none
  | .stale e => some e
  | .handled e => some e

variable {σ ρ : Type}

/-- What was taken from the queue, one event after another. -/
def taken (turns : List (Turn σ ρ)) : List Event := turns.filterMap fun t => t.outcome.event?

theorem taken_append (turns : List (Turn σ ρ)) (t : Turn σ ρ) :
    taken (turns ++ [t]) = taken turns ++ t.outcome.event?.toList := by
  unfold taken
  rw [List.filterMap_append]
  cases h : t.outcome.event? <;> simp [h]

/-- So far the events were taken in order, and the records are in order as well. -/
structure Orderly (scheduled past : List Event) (s : Simulation σ ρ) : Prop where
  traced : s.queue.Traced scheduled past
  ahead : (past ++ s.queue.toList).Pairwise Event.Before
  due : ∀ e ∈ s.queue.toList, s.clock ≤ e.time
  links : Chronological s.clock (s.links.toList.map LinkEvent.time)
  samples : Chronological s.clock (s.samples.toList.map Sample.time)

namespace Orderly

open Simulation

variable {scheduled past : List Event} {s : Simulation σ ρ}

theorem enqueue (h : Orderly scheduled past s) (hpast : ∀ e ∈ past, e.time ≤ s.clock)
    {time : Nat} (what : Happening) (ht : s.clock ≤ time) :
    Orderly (scheduled ++ [⟨time, s.queue.nextId, what⟩]) past (s.enqueue time what) where
  traced := h.traced.schedule time what
  ahead := by
    obtain ⟨htaken, -, hbefore⟩ := List.pairwise_append.mp h.ahead
    refine List.pairwise_append.mpr ⟨htaken, Queue.pairwise_toList _, fun a ha e he => ?_⟩
    rcases Queue.mem_schedule.mp he with rfl | he
    · -- The new event has the greatest number, so it may even fall due at once.
      have htime := hpast a ha
      have hid := h.traced.id_lt ha
      simp only [Event.Before]
      omega
    · exact hbefore a ha e he
  due e he := by
    rcases Queue.mem_schedule.mp he with rfl | he
    · exact ht
    · exact h.due e he
  links := h.links
  samples := h.samples

theorem link (h : Orderly scheduled past s) (node : Node) (change : LinkChange) :
    Orderly scheduled past (s.link node change) where
  traced := h.traced
  ahead := h.ahead
  due := h.due
  links := by
    simp only [Simulation.link, Array.toList_push, List.map_append]
    exact h.links.concat
  samples := h.samples

theorem sample (h : Orderly scheduled past s) (name : String) (value : Float) :
    Orderly scheduled past (s.sample name value) where
  traced := h.traced
  ahead := h.ahead
  due := h.due
  links := h.links
  samples := by
    simp only [Simulation.sample, Array.toList_push, List.map_append]
    exact h.samples.concat

theorem take {e : Event} {queue : Queue} (h : Orderly scheduled past s)
    (hq : s.queue.pop? = some (e, queue)) :
    Orderly scheduled (past ++ [e]) { s with queue } where
  traced := h.traced.take hq
  ahead := by
    rw [List.append_assoc, List.singleton_append, ← Queue.toList_of_pop?_eq_some hq]
    exact h.ahead
  due x hx := h.due x (Queue.mem_of_mem_rest hq hx)
  links := h.links
  samples := h.samples

theorem reach {e : Event} {queue : Queue} (h : Orderly scheduled past s)
    (hq : s.queue.pop? = some (e, queue)) :
    Orderly scheduled (past ++ [e]) { s with queue, clock := e.time } where
  traced := (h.take hq).traced
  ahead := (h.take hq).ahead
  due := Queue.time_le_of_pop?_eq_some hq
  links := h.links.later (h.due e (Queue.first_mem_of_pop?_eq_some hq))
  samples := h.samples.later (h.due e (Queue.first_mem_of_pop?_eq_some hq))

end Orderly

/-- The state is orderly, and the clock has reached all that was taken. So it is while an
answer is carried out; an expiry that is thrown away may lie ahead of the clock. -/
def Current (past : List Event) (s : Simulation σ ρ) : Prop :=
  (∃ scheduled, Orderly scheduled past s) ∧ ∀ e ∈ past, e.time ≤ s.clock

namespace Current

open Simulation

variable {past : List Event} {s s' : Simulation σ ρ}

theorem after (h : Current past s) {delay : Nat} {what : Happening}
    (hs : s.after delay what = .ok s') : Current past s' := by
  obtain ⟨⟨scheduled, h⟩, hpast⟩ := h
  rw [after_eq_ok hs]
  exact ⟨⟨_, h.enqueue hpast what (Nat.le_add_right _ _)⟩, hpast⟩

theorem link (h : Current past s) (node : Node) (change : LinkChange) :
    Current past (s.link node change) :=
  ⟨h.1.imp fun _ h => h.link node change, h.2⟩

theorem congr {t : Simulation σ ρ} (h : Current past s) (hq : t.queue = s.queue)
    (hc : t.clock = s.clock) (hl : t.links = s.links) (hs : t.samples = s.samples) :
    Current past t := by
  obtain ⟨⟨scheduled, h⟩, hpast⟩ := h
  exact ⟨⟨scheduled, hq ▸ h.traced, hq ▸ h.ahead, hq ▸ hc ▸ h.due, hl ▸ hc ▸ h.links,
    hs ▸ hc ▸ h.samples⟩, hc ▸ hpast⟩

theorem timer {node : Node} {op : TimerOp} (h : Current past s)
    (hs : s.timer node op = .ok s') : Current past s' :=
  timer_keeps (fun _ h => h.congr rfl rfl rfl rfl) (fun h hs => h.after hs) h hs

theorem links (h : Current past s) (node : Node) (changes : List LinkChange) :
    Current past (changes.foldl (fun s change => s.link node change) s) := by
  induction changes generalizing s with
  | nil => exact h
  | cons change changes ih => exact ih (h.link node change)

theorem pass {node : Node} {x : Post} (h : Current past s) (hs : s.pass node x = .ok s') :
    Current past s' := by
  have hlinks := h.links node x.changes
  unfold Simulation.pass at hs
  split at hs
  · cases hs
    exact hlinks
  · exact hlinks.after hs

theorem transmit {node : Node} {p : Packet} (h : Current past s)
    (hs : s.transmit node p = .ok s') : Current past s' := by
  rw [transmit_eq] at hs
  refine Current.pass ?_ hs
  cases node <;> exact h.congr rfl rfl rfl rfl

theorem invariant (past : List Event) :
    Simulation.Invariant (Current past : Simulation σ ρ → Prop) where
  sample name value h := ⟨h.1.imp fun _ h => h.sample name value, h.2⟩
  notify _ h := h.congr rfl rfl rfl rfl
  deliver node data h := by
    have hnotify : Current past (Simulation.notify _ (.delivered node data.length)) :=
      h.congr rfl rfl rfl rfl
    exact (hnotify.link node (.delivered data.length)).congr rfl rfl rfl rfl
  timer _ _ h hs := h.timer hs
  transmit _ _ h hs := h.transmit hs

theorem handle {ends : Ends σ ρ} {node : Node} {x : Stimulus} (h : Current past s)
    (hs : s.handle ends node x = .ok s') : Current past s' :=
  (invariant past).handle (fun _ _ h => h.congr rfl rfl rfl rfl) h hs

end Current

namespace Simulation

variable {ends : Ends σ ρ} {s s' : Simulation σ ρ}

theorem current_prepare (h : Current [] s) (plan : List Preparation)
    (hc : s.clock = 0) : Current [] (s.prepare plan) := by
  induction plan generalizing s with
  | nil => exact h
  | cons p plan ih =>
    rw [prepare_cons]
    cases p with
    | submit time data =>
      obtain ⟨⟨scheduled, h⟩, -⟩ := h
      refine ih ⟨⟨_, h.enqueue nofun _ (hc ▸ Nat.zero_le _)⟩, nofun⟩ hc
    | dropSeq seq => exact ih (h.congr rfl rfl rfl rfl) hc
    | dropAck ack => exact ih (h.congr rfl rfl rfl rfl) hc

theorem current_fresh (config : Config) (ends : Ends σ ρ) : Current [] (fresh config ends) :=
  ⟨⟨[], .empty, .nil, nofun, ⟨.nil, nofun⟩, ⟨.nil, nofun⟩⟩, nofun⟩

theorem exists_orderly_of_step {past : List Event} {o : Outcome}
    (h : ∃ scheduled, Orderly scheduled past s) (hs : s.step ends = .ok (o, s')) :
    ∃ scheduled, Orderly scheduled (past ++ o.event?.toList) s' := by
  obtain ⟨scheduled, h⟩ := h
  rcases step_eq_ok hs with ⟨-, rfl, rfl⟩ | ⟨e, queue, hq, -, rfl, rfl⟩ |
    ⟨e, queue, hq, -, rfl, hh⟩
  · exact ⟨scheduled, by simpa [Outcome.event?] using h⟩
  · exact ⟨scheduled, h.take hq⟩
  · have hreach := h.reach hq
    have hpast : ∀ a ∈ past ++ [e], a.time ≤ e.time := by
      intro a ha
      rcases List.mem_append.mp ha with ha | ha
      · have hbefore := (List.pairwise_append.mp h.ahead).2.2 a ha e
          (Queue.first_mem_of_pop?_eq_some hq)
        simp only [Event.Before] at hbefore
        omega
      · exact Nat.le_of_eq (congrArg Event.time (List.mem_singleton.mp ha))
    exact (Current.handle ⟨⟨scheduled, hreach⟩, hpast⟩ hh).1

theorem exists_orderly_of_history {config : Config} {plan : List Preparation} {n : Nat}
    {turns : List (Turn σ ρ)} (hs : create config ends = .ok s)
    (h : (s.prepare plan).history ends n = .ok (turns, s')) :
    ∃ scheduled, Orderly scheduled (taken turns) s' := by
  obtain ⟨-, rfl⟩ := create_eq_ok_iff.mp hs
  obtain ⟨s₁, hinit, hwalk⟩ := history_eq_ok h
  obtain ⟨t, hsender, hreceiver⟩ := init_eq_ok hinit
  have hstart := ((current_prepare (current_fresh config ends) plan rfl).handle hsender).handle
    hreceiver
  refine walk_induction (P := fun past t => ∃ scheduled, Orderly scheduled (taken past) t) ?_ []
    hstart.1 hwalk
  intro past t o t' ht hstep
  rw [taken_append]
  exact exists_orderly_of_step ht hstep

theorem chronological_metric {now : Nat}
    (h : Chronological now (s.samples.toList.map Sample.time)) {name : String}
    {series : List (Nat × Float)} (hm : s.metric? name = some series) :
    Chronological now (series.map Prod.fst) := by
  unfold metric? at hm
  split at hm
  · cases hm
  · rw [← Option.some.inj hm, List.map_map]
    exact h.sublist (List.filter_sublist.map Sample.time)

/-- The order of events in every history of any two ends: each event has a number of its
own and is taken at most once, in strictly increasing order and before all that waits;
nothing that waits is overdue; and the link and every metric are recorded in order of time. -/
theorem events_taken_in_order {config : Config} {plan : List Preparation} {n : Nat}
    {turns : List (Turn σ ρ)} (hs : create config ends = .ok s)
    (h : (s.prepare plan).history ends n = .ok (turns, s')) :
    ∃ scheduled, s'.queue.Traced scheduled (taken turns) ∧
      (scheduled.map Event.id).Nodup ∧
      (taken turns ++ s'.queue.toList).Perm scheduled ∧
      (taken turns).Pairwise Event.Before ∧
      (∀ e ∈ s'.queue.toList, s'.clock ≤ e.time ∧ ∀ a ∈ taken turns, a.Before e) ∧
      Chronological s'.clock (s'.links.toList.map LinkEvent.time) ∧
      ∀ name series, s'.metric? name = some series →
        Chronological s'.clock (series.map Prod.fst) := by
  obtain ⟨scheduled, ho⟩ := exists_orderly_of_history hs h
  obtain ⟨hinorder, -, hahead⟩ := List.pairwise_append.mp ho.ahead
  refine ⟨scheduled, ho.traced, ?_, ho.traced.perm, hinorder,
    fun e he => ⟨ho.due e he, fun a ha => hahead a ha e he⟩, ho.links,
    fun name series hm => chronological_metric ho.samples hm⟩
  rw [ho.traced.map_id]
  exact List.nodup_range

/-- Without any latency several events fall due at one instant. The events at 6000 and 23000
are stale, and the last one leaves the clock behind. -/
theorem events_taken_in_order_at_one_instant :
    ∃ turns s', ((fresh (noisy 0 0) AlternatingBit.ends).prepare workload).history
        AlternatingBit.ends 11 = .ok (turns, s') ∧
      (taken turns).map (fun e => (e.time, e.id)) =
        [(0, 1), (0, 2), (0, 4), (3000, 3), (3000, 6), (3000, 7), (6000, 5), (20000, 0),
          (20000, 9), (20000, 10), (23000, 8)] ∧
      s'.clock = 20000 ∧ (taken turns).Pairwise Event.Before ∧
      Chronological 20000 (s'.links.toList.map LinkEvent.time) := by
  have hrun : (((fresh (noisy 0 0) AlternatingBit.ends).prepare workload).history
      AlternatingBit.ends 11).map (fun x => ((taken x.1).map fun e => (e.time, e.id), x.2.clock)) =
        .ok ([(0, 1), (0, 2), (0, 4), (3000, 3), (3000, 6), (3000, 7), (6000, 5), (20000, 0),
          (20000, 9), (20000, 10), (23000, 8)], 20000) := by
    decide +kernel
  obtain ⟨⟨turns, s'⟩, hrun, hend⟩ := exists_of_map_eq_ok hrun
  obtain ⟨htaken, hclock⟩ := Prod.mk.inj hend
  obtain ⟨-, -, -, -, hordered, -, hlinks, -⟩ :=
    events_taken_in_order (create_noisy (Nat.le_refl 0)) hrun
  exact ⟨turns, s', hrun, htaken, hclock, hordered, hclock ▸ hlinks⟩

end Simulation

end LossyLink
