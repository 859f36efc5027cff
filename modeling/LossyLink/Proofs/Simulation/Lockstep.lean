import LossyLink.Proofs.Simulation.Congruence
import LossyLink.Proofs.Simulation.Reference

/-! # Lockstep

A simulation agrees with one that keeps alarms when the two are the same but for their
timers and the alarm of every timer is its pending expiry. They stay in agreement: what
an end is shown the one shows it exactly when the other does, and a stale expiry is a
step that the other does not take.
-/

namespace LossyLink

variable {σ ρ : Type}

def Event.isExpiry (e : Event) : Bool :=
  match e.what with
  | .expiry .. => true
  | .arrival .. => false
  | .submission _ => false

namespace Queue

variable {q q' : Queue} {e : Event} {time : Nat} {what : Happening}

/-- What waits apart from expiries. -/
def lasting (q : Queue) : List Event := q.toList.filter fun e => !e.isExpiry

theorem mem_lasting : e ∈ q.lasting ↔ e ∈ q.toList ∧ e.isExpiry = false := by
  simp [lasting, List.mem_filter]

theorem lasting_schedule_of_expiry (h : Event.isExpiry ⟨time, q.nextId, what⟩ = true) :
    (q.schedule time what).lasting = q.lasting := by
  simp only [lasting, ← List.filterMap_eq_filter]
  exact filterMap_schedule_of_none (by simp [Option.guard, h])

theorem lasting_schedule (h : Event.isExpiry ⟨time, q.nextId, what⟩ = false) :
    (q.schedule time what).lasting = Event.insert ⟨time, q.nextId, what⟩ q.lasting := by
  refine Event.eq_of_perm_of_pairwise ?_ (List.Pairwise.filter _ (pairwise_toList _))
    (Event.pairwise_insert (List.Pairwise.filter _ q.pairwise_toList) fun x hx =>
      Nat.ne_of_lt (id_lt_nextId (mem_lasting.mp hx).1))
  rw [lasting, toList_schedule]
  refine ((Event.insert_perm _ _).filter _).trans ?_
  rw [List.filter_cons_of_pos (by simpa using h)]
  exact (Event.insert_perm _ _).symm

theorem lasting_of_pop?_eq_some (h : q.pop? = some (e, q')) :
    q.lasting = if e.isExpiry then q'.lasting else e :: q'.lasting := by
  rw [lasting, toList_of_pop?_eq_some h, List.filter_cons]
  cases e.isExpiry <;> rfl

end Queue

/-- The second simulation is the first one without its timers. -/
structure Mirrors (s t : Simulation σ ρ) : Prop where
  rest : ∃ queue generations, t = { s with queue, generations }
  queue : t.queue.toList = s.queue.lasting
  nextId : t.queue.nextId = s.queue.nextId

namespace Mirrors

variable {s t : Simulation σ ρ} {node : Node}

theorem after {delay : Nat} {what : Happening} (h : Mirrors s t)
    (hw : ∀ e : Event, e.what = what → e.isExpiry = false) :
    Alike Mirrors (s.after delay what) (t.after delay what) := by
  obtain ⟨⟨queue, generations, rfl⟩, hq, hn⟩ := h
  unfold Simulation.after
  simp only
  split
  · refine .ok ⟨⟨_, _, rfl⟩, ?_, congrArg Nat.succ hn⟩
    simp only at hq hn
    simp only [Simulation.enqueue, Queue.toList_schedule, Queue.lasting_schedule (hw _ rfl), hq, hn]
  · exact .error _

theorem carry {p : Packet} (h : Mirrors s t) : Alike Mirrors (s.carry node p) (t.carry node p) := by
  obtain ⟨⟨queue, generations, rfl⟩, hq, hn⟩ := h
  cases ht : s.drops.take? node p.header with
  | some x =>
    simp only [Simulation.carry, ht]
    exact .ok ⟨⟨queue, generations, rfl⟩, hq, hn⟩
  | none =>
    simp only [Simulation.carry, ht]
    split
    · exact .ok ⟨⟨queue, generations, rfl⟩, hq, hn⟩
    · exact after ⟨⟨queue, generations, rfl⟩, hq, hn⟩ fun e he => by simp [Event.isExpiry, he]
    · exact after ⟨⟨queue, generations, rfl⟩, hq, hn⟩ fun e he => by simp [Event.isExpiry, he]

theorem transmit {p : Packet} (h : Mirrors s t) :
    Alike Mirrors (s.transmit node p) (t.transmit node p) := by
  refine carry ?_
  obtain ⟨⟨queue, generations, rfl⟩, hq, hn⟩ := h
  cases node <;> exact ⟨⟨queue, generations, rfl⟩, hq, hn⟩

theorem keepsRecords :
    Simulation.KeepsRecords (Mirrors : Simulation σ ρ → Simulation σ ρ → Prop) := by
  constructor
  · rintro s t name value ⟨⟨queue, generations, rfl⟩, hq, hn⟩
    exact ⟨⟨queue, generations, rfl⟩, hq, hn⟩
  · rintro s t n ⟨⟨queue, generations, rfl⟩, hq, hn⟩
    exact ⟨⟨queue, generations, rfl⟩, hq, hn⟩
  · rintro s t node data ⟨⟨queue, generations, rfl⟩, hq, hn⟩
    exact ⟨⟨queue, generations, rfl⟩, hq, hn⟩

theorem record (h : Mirrors s t) (actions : List Action) :
    Mirrors (s.record node actions) (t.record node actions) := keepsRecords.record h actions

end Mirrors

/-- The alarm that goes off when the event is due. -/
def Event.alarm (e : Event) : Alarm := ⟨e.time, e.id⟩

/-- The alarm of every timer is its pending expiry, and all but the timers is the same. That
the first simulation is coherent is what keeps this up. -/
structure Agrees (s : Simulation σ ρ) (r : Reference σ ρ) : Prop where
  mirrors : Mirrors s r.base
  alarm : ∀ k a, r.alarms.lookup k = some a ↔ ∃ e, s.situation.Pending k e ∧ e.alarm = a
  coherent : s.situation.Coherent
  latency : s.config.minLatency ≤ s.config.maxLatency

namespace Agrees

open Simulation Situation

variable {ends : Ends σ ρ} {s s' : Simulation σ ρ} {r : Reference σ ρ} {node : Node}
  {k : TimerKey} {e : Event}

theorem lookup_eq_some (h : Agrees s r) (hp : s.situation.Pending k e) :
    r.alarms.lookup k = some e.alarm := (h.alarm k _).mpr ⟨e, hp, rfl⟩

theorem congr {t : Simulation σ ρ} (h : Agrees s r) {base : Simulation σ ρ}
    (hm : Mirrors t base) (hq : t.queue = s.queue) (hg : t.generations = s.generations)
    (hclock : t.clock = s.clock) (hconfig : t.config = s.config) :
    Agrees t { r with base } := by
  have hp : ∀ k e, t.situation.Pending k e ↔ s.situation.Pending k e := by
    intro k e
    simp only [Pending, situation, hq, hg]
  refine ⟨hm, fun k a => ?_, ⟨?_, ?_, ?_⟩, hconfig ▸ h.latency⟩
  · simp only [hp]
    exact h.alarm k a
  · simpa only [situation, hq, hclock] using h.coherent.clock_le
  · simpa only [situation, hq, hclock, hconfig] using h.coherent.arrival_le
  · simpa only [situation, hq, hg] using h.coherent.generation_le

theorem record (h : Agrees s r) (actions : List Action) :
    Agrees (s.record node actions) { r with base := r.base.record node actions } := by
  have hs := situation_record s node actions
  exact h.congr (h.mirrors.record actions) (congrArg Situation.queue hs)
    (congrArg Situation.generations hs) (congrArg Situation.clock hs)
    (congrArg Situation.config hs)

theorem cancel (h : Agrees s r) (node : Node) (id : UInt32) :
    Alike Agrees (s.timer node (.cancel id)) (r.timer node (.cancel id)) := by
  obtain ⟨base, alarms⟩ := r
  obtain ⟨⟨⟨queue, generations, rfl⟩, hq, hn⟩, halarm, hcoh, hl⟩ := h
  refine .ok ⟨⟨⟨queue, generations, rfl⟩, hq, hn⟩, fun k a => ?_, hcoh.timer (.cancel id), hl⟩
  change _ ↔ ∃ e, (s.situation.timer node (.cancel id)).Pending k e ∧ e.alarm = a
  simp only [pending_cancel hcoh]
  by_cases hk : k = (node, id)
  · subst hk
    simp
  · simpa [hk, AList.lookup_erase_ne hk] using halarm k a

theorem start (h : Agrees s r) (node : Node) (delay : Nat) (id : UInt32) :
    Alike Agrees (s.timer node (.start delay id)) (r.timer node (.start delay id)) := by
  obtain ⟨base, alarms⟩ := r
  obtain ⟨⟨⟨queue, generations, rfl⟩, hq, hn⟩, halarm, hcoh, hl⟩ := h
  simp only at hq hn halarm
  simp only [Simulation.timer, Simulation.after, Reference.timer]
  split
  · refine .ok ⟨⟨⟨_, _, rfl⟩, ?_, ?_⟩, fun k a => ?_, hcoh.timer (.start delay id), hl⟩
    · rw [Queue.toList_skip, hq]
      exact (Queue.lasting_schedule_of_expiry rfl).symm
    · rw [Queue.nextId_skip, hn]
      exact (Queue.nextId_schedule _ _ _).symm
    · change _ ↔ ∃ e, (s.situation.timer node (.start delay id)).Pending k e ∧ e.alarm = a
      simp only [pending_start hcoh]
      by_cases hk : k = (node, id)
      · subst hk
        simp [expiryOf, Event.alarm, hn, situation, eq_comm]
      · simpa [hk, AList.lookup_insert_ne hk] using halarm k a
  · exact .error _

theorem timer (h : Agrees s r) (op : TimerOp) :
    Alike Agrees (s.timer node op) (r.timer node op) := by
  cases op with
  | start delay id => exact h.start node delay id
  | cancel id => exact h.cancel node id

theorem transmit (h : Agrees s r) (p : Packet) :
    Alike Agrees (s.transmit node p) (r.transmit node p) := by
  refine h.mirrors.transmit.map_right fun hs hm => ?_
  have hc := situation_transmit h.latency hs
  obtain ⟨queue, hframe⟩ := hc.frame
  have hconfig : Simulation.config _ = s.config := congrArg Situation.config hframe
  refine ⟨hm, fun k a => ?_, h.coherent.carried hc, ?_⟩
  · simp only [hc.pending_iff]
    exact h.alarm k a
  · exact hconfig ▸ h.latency

theorem perform (h : Agrees s r) (actions : List Action) :
    Alike Agrees (s.perform node actions) (r.perform node actions) := by
  rw [perform_eq]
  refine (Alike.foldlM (fun op h => h.timer op) _ (h.record actions)).bind fun h => ?_
  exact Alike.foldlM (fun p h => h.transmit p) _ h

theorem handle (h : Agrees s r) (x : Stimulus) :
    Alike Agrees (s.handle ends node x) (r.handle ends node x) := by
  obtain ⟨base, alarms⟩ := r
  obtain ⟨queue, generations, rfl⟩ := h.mirrors.rest
  have hm : ∀ (sender : σ) (receiver : ρ), Agrees { s with sender, receiver }
      ⟨{ s with queue, generations, sender, receiver }, alarms⟩ := fun _ _ =>
    h.congr ⟨⟨queue, generations, rfl⟩, h.mirrors.queue, h.mirrors.nextId⟩ rfl rfl rfl rfl
  unfold Simulation.handle Reference.handle
  cases node with
  | sender => exact (hm _ s.receiver).perform _
  | receiver => exact (hm s.sender _).perform _

theorem init (h : Agrees s r) : Alike Agrees (s.init ends) (r.init ends) :=
  (h.handle .init).bind fun h => h.handle .init

/-- The clocks move together, up to the first event. -/
theorem move {clock : Nat} (h : Agrees s r) (hle : s.clock ≤ clock)
    (hq : ∀ e ∈ s.queue.toList, clock ≤ e.time) :
    Agrees { s with clock } { r with base := { r.base with clock } } := by
  obtain ⟨⟨queue, generations, hb⟩, hlasting, hn⟩ := h.mirrors
  refine ⟨⟨⟨queue, generations, by rw [hb]⟩, hlasting, hn⟩, h.alarm, ⟨hq, fun e he => ?_, ?_⟩,
    h.latency⟩
  · exact Nat.le_trans (h.coherent.arrival_le e he) (Nat.add_le_add_right hle _)
  · exact h.coherent.generation_le

section Step

variable {queue rest : Queue}

/-- The first event is taken from the queue; in the other simulation it is taken as well, or
its alarm is cleared, or there is nothing to do. -/
theorem drop {alarms : Alarms} (h : Agrees s r) (hq : s.queue.pop? = some (e, queue))
    (hrest : rest.toList = queue.lasting) (hnext : rest.nextId = r.base.queue.nextId)
    (ha : ∀ k a, alarms.lookup k = some a ↔
      ∃ x, (s.situation.Pending k x ∧ x ≠ e) ∧ x.alarm = a) :
    Agrees { s with queue } ⟨{ r.base with queue := rest }, alarms⟩ := by
  obtain ⟨⟨queue', generations, hb⟩, -, hn⟩ := h.mirrors
  have hp : ∀ k x, { s with queue }.situation.Pending k x ↔ s.situation.Pending k x ∧ x ≠ e :=
    fun k x => pending_reach (c := s.situation) hq
  refine ⟨⟨⟨rest, generations, by rw [hb]⟩, hrest, ?_⟩, fun k a => ?_, h.coherent.drop hq,
    h.latency⟩
  · exact hnext.trans (hn.trans (Queue.nextId_of_pop?_eq_some hq).symm)
  · simp only [hp]
    exact ha k a

theorem lookup_eq_some_iff_of_not_pending (h : Agrees s r)
    (he : ∀ k, ¬ s.situation.Pending k e) (k : TimerKey) (a : Alarm) :
    r.alarms.lookup k = some a ↔ ∃ x, (s.situation.Pending k x ∧ x ≠ e) ∧ x.alarm = a := by
  refine (h.alarm k a).trans ⟨?_, ?_⟩
  · rintro ⟨x, hp, rfl⟩
    exact ⟨x, ⟨hp, fun hx => he k (hx ▸ hp)⟩, rfl⟩
  · rintro ⟨x, ⟨hp, -⟩, rfl⟩
    exact ⟨x, hp, rfl⟩

theorem stale (h : Agrees s r) (hq : s.queue.pop? = some (e, queue)) (hs : s.isStale e = true) :
    Agrees { s with queue } r := by
  have hx : e.isExpiry = true := by
    unfold Simulation.isStale at hs
    unfold Event.isExpiry
    split at hs <;> simp_all
  have hlasting := h.mirrors.queue
  rw [Queue.lasting_of_pop?_eq_some hq, if_pos hx] at hlasting
  refine h.drop hq hlasting rfl (h.lookup_eq_some_iff_of_not_pending fun k hp => ?_)
  have hf : s.isStale e = false := hp.not_stale
  rw [hf] at hs
  cases hs

theorem next?_of_pending (h : Agrees s r) (hq : s.queue.pop? = some (e, queue))
    (hp : s.situation.Pending k e) :
    ∃ r', r.next? = some (⟨e.time, k.1, .timer k.2⟩, r') ∧ Agrees { s with queue } r' := by
  have hbefore : ∀ {x}, x ∈ s.queue.toList → x ≠ e → e.Before x :=
    Queue.before_of_mem_of_ne hq
  have hexpiry : e.isExpiry = true := by simp [Event.isExpiry, hp.2]
  have hlasting := h.mirrors.queue
  have hfirst : r.alarms.first? = some ⟨k, e.alarm⟩ := by
    refine Alarms.first?_eq_some (h.lookup_eq_some hp) fun k' a' hk ha' => ?_
    obtain ⟨x, hpx, rfl⟩ := (h.alarm k' a').mp ha'
    exact hbefore hpx.1 fun hx => hk (hpx.key_inj (hx ▸ hp))
  refine ⟨_, Reference.next?_eq_ring hfirst fun x hx => ?_, h.drop hq ?_ rfl fun k' a => ?_⟩
  · rw [hlasting, Queue.mem_lasting] at hx
    refine hbefore hx.1 ?_
    rintro rfl
    rw [hexpiry] at hx
    cases hx.2
  · rw [hlasting, Queue.lasting_of_pop?_eq_some hq, if_pos hexpiry]
  · by_cases hk : k' = k
    · subst hk
      simp only [AList.lookup_erase, reduceCtorEq, false_iff]
      rintro ⟨x, ⟨hpx, hne⟩, -⟩
      have hlookup := (h.lookup_eq_some hpx).symm.trans (h.lookup_eq_some hp)
      injection (Option.some.inj hlookup) with htime hid
      have hb := hbefore hpx.1 hne
      unfold Event.Before at hb
      omega
    · rw [AList.lookup_erase_ne hk, h.alarm k' a]
      have hne : ∀ {x}, s.situation.Pending k' x → x ≠ e := fun hpx hx =>
        hk (hpx.key_inj (hx ▸ hp))
      exact exists_congr fun x => and_congr_left fun _ => (and_iff_left_of_imp hne).symm

theorem next?_of_not_expiry (h : Agrees s r) (hq : s.queue.pop? = some (e, queue))
    (he : e.isExpiry = false) :
    ∃ r', r.next? = some (⟨e.time, e.what.node, e.what.stimulus⟩, r') ∧
      Agrees { s with queue } r' := by
  have hlasting := h.mirrors.queue
  rw [Queue.lasting_of_pop?_eq_some hq, he, if_neg (by simp)] at hlasting
  obtain ⟨rest, hpop, hrest⟩ := Queue.exists_pop?_of_toList_eq_cons hlasting
  have hne : ∀ k, ¬ s.situation.Pending k e := by
    intro k hp
    simp [Event.isExpiry, hp.2] at he
  refine ⟨_, Reference.next?_eq_take hpop fun k a ha => ?_, h.drop hq hrest
    (Queue.nextId_of_pop?_eq_some hpop) (h.lookup_eq_some_iff_of_not_pending hne)⟩
  obtain ⟨x, hp, rfl⟩ := (h.alarm k a).mp ha
  exact (Queue.before_of_mem_of_ne hq hp.1 fun hx => hne k (hx ▸ hp)).asymm

/-- What is not stale is what the other simulation is shown next. -/
theorem next?_of_not_stale (h : Agrees s r) (hq : s.queue.pop? = some (e, queue))
    (hs : s.isStale e = false) :
    ∃ r', r.next? = some (⟨e.time, e.what.node, e.what.stimulus⟩, r') ∧
      Agrees { s with queue } r' := by
  cases he : e.isExpiry with
  | false => exact h.next?_of_not_expiry hq he
  | true =>
    unfold Event.isExpiry at he
    split at he
    · rename_i node id generation hw
      have hp : s.situation.Pending (node, id) e :=
        pending_of_not_stale (Queue.first_mem_of_pop?_eq_some hq) hw hs
      rw [hw]
      exact h.next?_of_pending hq hp
    · cases he
    · cases he

theorem next?_eq_none (h : Agrees s r) (hq : s.queue.isEmpty) : r.next? = none := by
  have hnil := Queue.isEmpty_iff.mp hq
  refine Reference.next?_eq_none (fun k => Option.eq_none_iff_forall_ne_some.mpr ?_) ?_
  · rintro a ha
    obtain ⟨x, hp, -⟩ := (h.alarm k a).mp ha
    exact List.ne_nil_of_mem hp.1 hnil
  · rw [h.mirrors.queue, Queue.lasting, hnil, List.filter_nil]

/-- A step is stale, and the other simulation does nothing, or both take it. -/
theorem step (ends : Ends σ ρ) (h : Agrees s r) :
    (∃ e queue, s.queue.pop? = some (e, queue) ∧ s.step ends = .ok (.stale e, { s with queue }) ∧
      Agrees { s with queue } r) ∨
    Alike (fun x y => x.1.call? = y.1 ∧ (∀ e, x.1 ≠ .stale e) ∧ Agrees x.2 y.2)
      (s.step ends) (r.step ends) := by
  cases hq : s.queue.pop? with
  | none =>
    have hnext := h.next?_eq_none (Queue.isEmpty_iff.mpr (Queue.pop?_eq_none_iff.mp hq))
    simp only [Simulation.step, hq, Reference.step, hnext]
    exact .inr (.ok ⟨rfl, nofun, h⟩)
  | some x =>
    obtain ⟨e, queue⟩ := x
    cases hs : s.isStale e with
    | true =>
      have hst : { s with queue }.isStale e = true := hs
      refine .inl ⟨e, queue, rfl, ?_, h.stale hq hs⟩
      simp only [Simulation.step, hq, hst, if_true]
    | false =>
      have hst : { s with queue }.isStale e = false := hs
      obtain ⟨r', hnext, hr⟩ := h.next?_of_not_stale hq hs
      have hh : Alike Agrees
          ({ s with queue, clock := e.time }.handle ends e.what.node e.what.stimulus)
          ({ r' with base := { r'.base with clock := e.time } }.handle ends e.what.node
            e.what.stimulus) :=
        (hr.move (h.coherent.clock_le_of_pop? hq) (Queue.time_le_of_pop?_eq_some hq)).handle _
      simp only [Simulation.step, hq, hst, Reference.step, hnext]
      refine .inr ?_
      revert hh
      generalize Simulation.handle ends _ _ _ = x
      generalize Reference.handle ends _ _ _ = y
      rintro (o | hh)
      · exact .error o
      · exact .ok ⟨rfl, nofun, hh⟩

end Step

/-- What the simulation does in a number of steps, the other one does in no more. -/
theorem walk (h : Agrees s r) {n : Nat} {turns : List (Turn σ ρ)}
    (hw : s.walk ends n = .ok (turns, s')) :
    ∃ m ≤ n, ∃ r', r.walk ends m = .ok (calls turns, r') ∧ Agrees s' r' := by
  induction n generalizing s r turns with
  | zero =>
    cases hw
    exact ⟨0, Nat.le_refl 0, r, rfl, h⟩
  | succ n ih =>
    obtain ⟨o, s₁, rest, hs, hrest, rfl⟩ := walk_succ_eq_ok hw
    rcases h.step ends with ⟨e, queue, -, hst, hr⟩ | hmatch
    · rw [hst] at hs
      cases hs
      obtain ⟨m, hm, r', hr', hagree⟩ := ih hr hrest
      exact ⟨m, Nat.le_succ_of_le hm, r', hr', hagree⟩
    · obtain ⟨⟨call, r₁⟩, hr, rfl, -, hagree⟩ := hmatch.of_eq_ok hs
      obtain ⟨m, hm, r', hr', hagree'⟩ := ih hagree hrest
      refine ⟨m + 1, Nat.succ_le_succ hm, r', ?_, hagree'⟩
      simp only [Reference.walk, hr, hr', calls_cons]

theorem settle (ends : Ends σ ρ) (h : Agrees s r) :
    ∃ n turns s', s.walk ends n = .ok (turns, s') ∧ calls turns = [] ∧ Agrees s' r ∧
      Alike (fun x y => x.1.call? = y.1 ∧ (∀ e, x.1 ≠ .stale e) ∧ Agrees x.2 y.2)
        (s'.step ends) (r.step ends) := by
  induction hsize : s.queue.size generalizing s with
  | zero =>
    rcases h.step ends with ⟨e, queue, hq, -⟩ | hmatch
    · have hlen := congrArg List.length (Queue.toList_of_pop?_eq_some hq)
      rw [Queue.length_toList, hsize] at hlen
      cases hlen
    · exact ⟨0, [], s, rfl, rfl, h, hmatch⟩
  | succ size ih =>
    rcases h.step ends with ⟨e, queue, hq, hst, hr⟩ | hmatch
    · have hlen := congrArg List.length (Queue.toList_of_pop?_eq_some hq)
      rw [Queue.length_toList, hsize, List.length_cons, Queue.length_toList] at hlen
      obtain ⟨n, turns, s', hw, hcalls, hagree, hmatch⟩ := ih hr (Nat.succ.inj hlen).symm
      refine ⟨n + 1, ⟨s, .stale e⟩ :: turns, s', ?_, ?_, hagree, hmatch⟩
      · simp only [Simulation.walk, hst, hw]
      · rw [calls_cons, hcalls]
        rfl
    · exact ⟨0, [], s, rfl, rfl, h, hmatch⟩

theorem walk_of_reference (h : Agrees s r) {m : Nat} {cs : List Call} {r' : Reference σ ρ}
    (hw : r.walk ends m = .ok (cs, r')) :
    ∃ n turns s', s.walk ends n = .ok (turns, s') ∧ calls turns = cs ∧ Agrees s' r' ∧
      (r'.next? = none → s'.queue.isEmpty) := by
  induction m generalizing s r cs with
  | zero =>
    cases hw
    obtain ⟨n, turns, s', hs, hcalls, hagree, hmatch⟩ := h.settle ends
    refine ⟨n, turns, s', hs, hcalls, hagree, fun hnext => ?_⟩
    have hr : r'.step ends = .ok (none, r') := by simp only [Reference.step, hnext]
    obtain ⟨⟨o, t⟩, ht, ho, hstale, -⟩ := hmatch.of_eq_ok' hr
    cases o with
    | drained => exact (step_eq_drained ht).1
    | stale e => exact absurd rfl (hstale e)
    | handled e => cases ho
  | succ m ih =>
    obtain ⟨call, r₁, rest, hr, hrest, rfl⟩ := Reference.walk_succ_eq_ok hw
    obtain ⟨n₁, turns₁, s₁, hs₁, hcalls₁, -, hmatch⟩ := h.settle ends
    obtain ⟨⟨o, s₂⟩, hs₂, ho, -, hagree⟩ := hmatch.of_eq_ok' hr
    obtain ⟨n, turns, s', hs', hcalls, hagree', hempty⟩ := ih hagree hrest
    refine ⟨n₁ + (n + 1), turns₁ ++ ⟨s₁, o⟩ :: turns, s', ?_, ?_, hagree', hempty⟩
    · exact walk_append hs₁ (by simp only [Simulation.walk, hs₂, hs'])
    · rw [calls_append, calls_cons, hcalls₁, hcalls, List.nil_append]
      exact congrArg (fun c : Option Call => c.toList ++ rest) ho

end Agrees

end LossyLink
