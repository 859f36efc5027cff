import LossyLink.Proofs.Simulation.Renewal

/-! # Plans put off

The ends of the protocols never look at the clock, and of the times of events nothing counts but
which comes first. So when everything is submitted later by some time, everything happens later by
that time, and nothing else is different. Only the start of both ends stays where it was; they log
something at most.

The later simulation comes nearer to the end of the clock. So the two are compared in one direction:
if the later one does not fail, the other one does not.
-/

namespace LossyLink

/-- If the second computation succeeds then so does the first, with a related result. -/
def Backed {ε α β : Type} (R : α → β → Prop) (x : Except ε α) (y : Except ε β) : Prop :=
  ∀ b, y = .ok b → ∃ a, x = .ok a ∧ R a b

namespace Backed

variable {ε α β γ α' β' : Type} {R : α → β → Prop} {S : α' → β' → Prop} {x : Except ε α}
  {y : Except ε β}

theorem ok {a : α} {b : β} (h : R a b) : Backed (ε := ε) R (.ok a) (.ok b) := by
  rintro _ ⟨⟩
  exact ⟨a, rfl, h⟩

theorem bind {f : α → Except ε α'} {g : β → Except ε β'} (h : Backed R x y)
    (hf : ∀ {a b}, R a b → Backed S (f a) (g b)) : Backed S (x >>= f) (y >>= g) := by
  intro b' hb'
  obtain ⟨b, hb, hb'⟩ := exists_of_bind_eq_ok hb'
  obtain ⟨a, rfl, hab⟩ := h b hb
  exact hf hab b' hb'

theorem map {f : α → α'} {g : β → β'} (h : Backed R x y) (hf : ∀ {a b}, R a b → S (f a) (g b)) :
    Backed S (x.map f) (y.map g) := by
  intro b' hb'
  obtain ⟨b, hb, rfl⟩ := exists_of_map_eq_ok hb'
  obtain ⟨a, rfl, hab⟩ := h b hb
  exact ⟨f a, rfl, hf hab⟩

theorem foldlM {f : α → γ → Except ε α} {g : β → γ → Except ε β}
    (hf : ∀ {a b} c, R a b → Backed R (f a c) (g b c)) (cs : List γ) {a : α} {b : β}
    (h : R a b) : Backed R (cs.foldlM f a) (cs.foldlM g b) := by
  induction cs generalizing a b with
  | nil => exact ok h
  | cons c cs ih =>
    rw [List.foldlM_cons, List.foldlM_cons]
    exact (hf c h).bind ih

end Backed

variable {σ ρ : Type}

/-- The end never looks at the clock, and all it does at its start is to log. -/
structure Endpoint.Timeless (e : Endpoint σ) : Prop where
  react_eq : ∀ now now' x s, e.react now x s = e.react now' x s
  start : ∀ now s, ∀ a ∈ (e.react now .init s).2, ∃ text, a = .log text

namespace Protocol

theorem sender_timeless (p : Protocol) : p.sender.endpoint.Timeless := by
  constructor
  · cases p <;> exact fun _ _ _ _ => rfl
  · intro now s a ha
    cases p with
    | ideal => exact ⟨_, List.mem_singleton.mp ha⟩
    | queued => exact ⟨_, List.mem_singleton.mp ha⟩
    | alternatingBit => cases ha

theorem receiver_timeless (p : Protocol) : p.receiver.endpoint.Timeless := by
  constructor
  · cases p <;> exact fun _ _ _ _ => rfl
  · intro now s a ha
    cases p with
    | ideal => exact ⟨_, List.mem_singleton.mp ha⟩
    | queued => exact ⟨_, List.mem_singleton.mp ha⟩
    | alternatingBit => cases ha

end Protocol

structure Ends.Timeless (ends : Ends σ ρ) : Prop where
  sender : ends.sender.Timeless
  receiver : ends.receiver.Timeless

namespace Ends.Timeless

variable {ends : Ends σ ρ}

theorem answer_eq (h : ends.Timeless) (node : Node) (now now' : Nat) (x : Stimulus) (sender : σ)
    (receiver : ρ) :
    ends.answer node now x sender receiver = ends.answer node now' x sender receiver := by
  cases node with
  | sender => exact congrArg Prod.snd (h.sender.react_eq now now' x sender)
  | receiver => exact congrArg Prod.snd (h.receiver.react_eq now now' x receiver)

theorem start (h : ends.Timeless) (node : Node) (now : Nat) (sender : σ) (receiver : ρ) :
    ∀ a ∈ ends.answer node now .init sender receiver, ∃ text, a = .log text := by
  cases node with
  | sender => exact h.sender.start now sender
  | receiver => exact h.receiver.start now receiver

end Ends.Timeless

def Entry.delayed (d : Nat) (x : Entry) : Entry := (x.1 + d, x.2)

def LinkEvent.delayed (d : Nat) (e : LinkEvent) : LinkEvent := { e with time := e.time + d }

def Sample.delayed (d : Nat) (x : Sample) : Sample := { x with time := x.time + d }

def Preparation.delayed (d : Nat) : Preparation → Preparation
  | .submit time data => .submit (time + d) data
  | .dropSeq seq => .dropSeq seq
  | .dropAck ack => .dropAck ack

theorem Post.map_delayed_events (d time : Nat) (node : Node) (x : Post) :
    (x.events time node).map (LinkEvent.delayed d) = x.events (time + d) node := by
  unfold events
  rw [List.map_map]
  rfl

/-- It concerns neither the queue nor anything that has a time. -/
def Simulation.LeavesTimes (f : Simulation σ ρ → Simulation σ ρ) : Prop :=
  ∀ s clock queue links samples, f { s with clock, queue, links, samples } =
    { f s with clock, queue, links, samples }

theorem Simulation.LeavesTimes.keeps {f : Simulation σ ρ → Simulation σ ρ} (hf : LeavesTimes f)
    (s : Simulation σ ρ) : (f s).clock = s.clock ∧ (f s).queue = s.queue ∧
      (f s).links = s.links ∧ (f s).samples = s.samples := by
  have hself : f s = { f s with
      clock := s.clock, queue := s.queue, links := s.links, samples := s.samples } :=
    hf s s.clock s.queue s.links s.samples
  rw [hself]
  exact ⟨rfl, rfl, rfl, rfl⟩

/-- What is to happen and what was recorded is the same, but later. The clock is left aside. -/
structure Delayed (d : Nat) (s t : Simulation σ ρ) : Prop where
  rest : ∃ clock queue, t = { s with
    clock, queue
    links := s.links.map (LinkEvent.delayed d)
    samples := s.samples.map (Sample.delayed d) }
  agenda : t.queue.agenda = s.queue.agenda.map (Entry.delayed d)

/-- The clock is later as well. -/
structure Shifted (d : Nat) (s t : Simulation σ ρ) : Prop extends Delayed d s t where
  clock : t.clock = s.clock + d

namespace Delayed

open Simulation

variable {d : Nat} {s t : Simulation σ ρ}

theorem map {f : Simulation σ ρ → Simulation σ ρ} (hf : LeavesTimes f) (h : Delayed d s t) :
    Delayed d (f s) (f t) := by
  obtain ⟨-, hqueue, hlinks, hsamples⟩ := hf.keeps s
  obtain ⟨⟨clock, queue, rfl⟩, hagenda⟩ := h
  rw [hf s clock queue _ _]
  constructor
  · exact ⟨clock, queue, by rw [← hlinks, ← hsamples]⟩
  · exact hqueue ▸ hagenda

theorem notify (h : Delayed d s t) (n : Notice) : Delayed d (s.notify n) (t.notify n) :=
  h.map (f := fun s => s.notify n) fun _ _ _ _ _ => rfl

theorem complete (h : Delayed d s t) (completed : Bool) :
    Delayed d { s with completed } { t with completed } :=
  h.map (f := fun s => { s with completed }) fun _ _ _ _ _ => rfl

theorem size_eq (h : Delayed d s t) : t.queue.size = s.queue.size :=
  Queue.size_eq_of_agenda_eq_map h.agenda

theorem isEmpty_eq (h : Delayed d s t) : t.queue.isEmpty = s.queue.isEmpty := by
  unfold Queue.isEmpty
  rw [h.size_eq]

theorem enqueue (h : Delayed d s t) (time : Nat) (what : Happening) :
    Delayed d (s.enqueue time what) (t.enqueue (time + d) what) := by
  obtain ⟨⟨clock, queue, rfl⟩, hagenda⟩ := h
  constructor
  · exact ⟨clock, _, rfl⟩
  · unfold Simulation.enqueue
    simp only at hagenda ⊢
    rw [Queue.agenda_schedule, Queue.agenda_schedule, hagenda,
      Entry.map_insert (f := Entry.delayed d) fun _ _ => Nat.add_lt_add_iff_right]
    rfl

theorem prepare (h : Delayed d s t) (plan : List Preparation) :
    Delayed d (s.prepare plan) (t.prepare (plan.map (Preparation.delayed d))) := by
  induction plan generalizing s t with
  | nil => exact h
  | cons p plan ih =>
    rw [List.map_cons, prepare_cons, prepare_cons]
    apply ih
    cases p with
    | submit time data => exact h.enqueue time (.submission data)
    | dropSeq seq => exact h.map (f := fun s => s.dropSeq seq) fun _ _ _ _ _ => rfl
    | dropAck ack => exact h.map (f := fun s => s.dropAck ack) fun _ _ _ _ _ => rfl

theorem answer_eq {ends : Ends σ ρ} {node : Node} {x : Stimulus} (hends : ends.Timeless)
    (h : Delayed d s t) : ends.answer node t.clock x t.sender t.receiver =
      ends.answer node s.clock x s.sender s.receiver := by
  obtain ⟨⟨clock, queue, rfl⟩, -⟩ := h
  exact hends.answer_eq node clock s.clock x s.sender s.receiver

theorem absorb {ends : Ends σ ρ} {node : Node} (hends : ends.Timeless) (h : Delayed d s t)
    (x : Stimulus) : Delayed d (s.absorb ends node x) (t.absorb ends node x) := by
  obtain ⟨⟨clock, queue, rfl⟩, hagenda⟩ := h
  cases node with
  | sender =>
    refine ⟨⟨clock, queue, ?_⟩, hagenda⟩
    simp only [Simulation.absorb, hends.sender.react_eq clock s.clock]
  | receiver =>
    refine ⟨⟨clock, queue, ?_⟩, hagenda⟩
    simp only [Simulation.absorb, hends.receiver.react_eq clock s.clock]

theorem close (h : Delayed d s t) (limit : Nat) (completed : Bool) :
    Delayed d (s.close limit completed) (t.close limit completed) := by
  cases completed with
  | true => exact h.complete true
  | false =>
    show Delayed d _ ({ t with completed := false }.notify (.stopped limit t.queue.size))
    rw [h.size_eq]
    exact (h.complete false).notify _

end Delayed

namespace Shifted

open Simulation

variable {d : Nat} {s t : Simulation σ ρ} {node : Node}

theorem map {f : Simulation σ ρ → Simulation σ ρ} (hf : LeavesTimes f) (h : Shifted d s t) :
    Shifted d (f s) (f t) := by
  constructor
  · exact h.toDelayed.map hf
  · rw [(hf.keeps s).1, (hf.keeps t).1, h.clock]

theorem sample (h : Shifted d s t) (name : String) (value : Float) :
    Shifted d (s.sample name value) (t.sample name value) := by
  obtain ⟨⟨⟨clock, queue, rfl⟩, hagenda⟩, rfl⟩ := h
  refine ⟨⟨⟨s.clock + d, queue, ?_⟩, hagenda⟩, rfl⟩
  simp [Simulation.sample, Sample.delayed]

theorem links (h : Shifted d s t) (x : Post) :
    Shifted d { s with links := s.links ++ x.events s.clock node }
      { t with links := t.links ++ x.events t.clock node } := by
  obtain ⟨⟨⟨clock, queue, rfl⟩, hagenda⟩, rfl⟩ := h
  have hlinks : s.links.map (LinkEvent.delayed d) ++ x.events (s.clock + d) node =
      (s.links ++ x.events s.clock node).map (LinkEvent.delayed d) := by
    apply Array.ext'
    simp [← Post.map_delayed_events]
  exact ⟨⟨⟨s.clock + d, queue, by rw [hlinks]⟩, hagenda⟩, rfl⟩

theorem deliver (h : Shifted d s t) (node : Node) (data : Payload) :
    Shifted d (s.deliver node data) (t.deliver node data) := by
  obtain ⟨⟨⟨clock, queue, rfl⟩, hagenda⟩, rfl⟩ := h
  refine ⟨⟨⟨s.clock + d, queue, ?_⟩, hagenda⟩, rfl⟩
  simp [Simulation.deliver, Simulation.notify, link, LinkEvent.delayed]

theorem keepsRecords (d : Nat) :
    KeepsRecords (Shifted d : Simulation σ ρ → Simulation σ ρ → Prop) where
  sample name value h := h.sample name value
  notify n h := h.map (f := fun s => s.notify n) fun _ _ _ _ _ => rfl
  deliver node data h := h.deliver node data

theorem after (h : Shifted d s t) (delay : Nat) (what : Happening) :
    Backed (Shifted d) (s.after delay what) (t.after delay what) := by
  have hdue : t.clock + delay = s.clock + delay + d := by rw [h.clock, Nat.add_right_comm]
  have hnext := h.toDelayed.enqueue (s.clock + delay) what
  rw [← hdue] at hnext
  intro t' ht'
  unfold Simulation.after at ht' ⊢
  split at ht'
  · rename_i hlimit
    cases ht'
    have hlimit' : s.clock + delay < clockLimit := by omega
    rw [if_pos hlimit']
    exact ⟨_, rfl, hnext, h.clock⟩
  · cases ht'

theorem timer (h : Shifted d s t) (op : TimerOp) :
    Backed (Shifted d) (s.timer node op) (t.timer node op) := by
  have hbump : ∀ id, Shifted d { s with generations := s.generations.bump (node, id) }
      { t with generations := t.generations.bump (node, id) } := fun id =>
    h.map (f := fun s => { s with generations := s.generations.bump (node, id) })
      fun _ _ _ _ _ => rfl
  cases op with
  | cancel id => exact .ok (hbump id)
  | start delay id =>
    obtain ⟨⟨⟨clock, queue, rfl⟩, -⟩, -⟩ := h
    exact (hbump id).after delay _

theorem pass (h : Shifted d s t) (x : Post) :
    Backed (Shifted d) (s.pass node x) (t.pass node x) := by
  unfold Simulation.pass
  rw [links_eq, links_eq]
  cases x.passage with
  | dropped reason => exact .ok (h.links x)
  | carried damaged latency => exact (h.links x).after latency _

theorem transmit (h : Shifted d s t) (p : Packet) :
    Backed (Shifted d) (s.transmit node p) (t.transmit node p) := by
  have hdecision : t.decision node p = s.decision node p := by
    obtain ⟨⟨⟨clock, queue, rfl⟩, -⟩, -⟩ := h
    rfl
  rw [transmit_eq, transmit_eq, hdecision]
  apply Shifted.pass
  apply h.map (f := fun s' => s'.decided node (s.decision node p))
  rintro s' clock queue links samples
  cases node <;> rfl

theorem perform (h : Shifted d s t) (actions : List Action) :
    Backed (Shifted d) (s.perform node actions) (t.perform node actions) := by
  rw [perform_eq, perform_eq]
  refine (Backed.foldlM (fun op h => h.timer op) _
    ((keepsRecords d).record h actions)).bind fun h => ?_
  exact Backed.foldlM (fun p h => h.transmit p) _ h

theorem handle {ends : Ends σ ρ} (hends : ends.Timeless) (h : Shifted d s t) (x : Stimulus) :
    Backed (Shifted d) (s.handle ends node x) (t.handle ends node x) := by
  rw [handle_eq, handle_eq, h.answer_eq hends]
  exact Shifted.perform ⟨h.absorb hends x, by rw [clock_absorb, clock_absorb, h.clock]⟩ _

end Shifted

namespace Simulation

theorem perform_of_logs (s : Simulation σ ρ) (node : Node) {actions : List Action}
    (h : ∀ a ∈ actions, ∃ text, a = .log text) :
    s.perform node actions = .ok ((actions.filterMap Action.log?).foldl
      (fun s text => s.notify (.ofNode node text)) s) := by
  have hnone : ∀ {α : Type} {f : Action → Option α}, (∀ text, f (.log text) = none) →
      actions.filterMap f = [] := by
    intro α f hf
    rw [List.filterMap_eq_nil_iff]
    intro a ha
    obtain ⟨text, rfl⟩ := h a ha
    exact hf text
  unfold perform
  rw [hnone (f := Action.metric?) fun _ => rfl, hnone (f := Action.delivered?) fun _ => rfl,
    hnone (f := Action.timer?) fun _ => rfl, hnone (f := Action.sent?) fun _ => rfl]
  rfl

theorem clock_close (s : Simulation σ ρ) (limit : Nat) (completed : Bool) :
    (s.close limit completed).clock = s.clock := by
  cases completed <;> rfl

end Simulation

namespace Delayed

open Simulation

variable {d : Nat} {s t : Simulation σ ρ} {ends : Ends σ ρ}

theorem start (hends : ends.Timeless) (h : Delayed d s t) (node : Node) :
    Backed (Delayed d) (s.handle ends node .init) (t.handle ends node .init) := by
  have hlogs := hends.start node s.clock s.sender s.receiver
  rw [handle_eq, handle_eq, h.answer_eq hends, perform_of_logs _ node hlogs,
    perform_of_logs _ node hlogs]
  exact .ok (List.foldl_rel (h.absorb hends .init) fun _ _ _ _ h => h.notify _)

theorem init (hends : ends.Timeless) (h : Delayed d s t) :
    Backed (Delayed d) (s.init ends) (t.init ends) :=
  (h.start hends .sender).bind fun h => h.start hends .receiver

theorem isStale_eq (h : Delayed d s t) {e e' : Event} (hwhat : e'.what = e.what) :
    t.isStale e' = s.isStale e := by
  obtain ⟨⟨clock, queue, rfl⟩, -⟩ := h
  unfold Simulation.isStale
  rw [hwhat]

theorem take {e : Event} {queue : Queue} (h : Delayed d s t)
    (hq : s.queue.pop? = some (e, queue)) :
    ∃ e' queue', t.queue.pop? = some (e', queue') ∧ e'.time = e.time + d ∧ e'.what = e.what ∧
      Delayed d { s with queue } { t with queue := queue' } := by
  have hagenda := h.agenda
  rw [Queue.agenda_of_pop?_eq_some hq, List.map_cons] at hagenda
  obtain ⟨e', queue', hq', hentry, hrest⟩ := Queue.exists_pop?_of_agenda_eq_cons hagenda
  obtain ⟨htime, hwhat⟩ := Prod.mk.inj hentry
  obtain ⟨⟨clock, queue₀, rfl⟩, -⟩ := h
  exact ⟨e', queue', hq', htime, hwhat, ⟨clock, queue', rfl⟩, hrest⟩

/-- The first event that is handled makes the clock later as well. -/
theorem step (hends : ends.Timeless) (h : Delayed d s t) :
    Backed (fun x y => Delayed d x.2 y.2 ∧
      (Shifted d s t ∨ (∃ e, x.1 = .handled e) → Shifted d x.2 y.2))
      (s.step ends) (t.step ends) := by
  cases hq : s.queue.pop? with
  | none =>
    have hempty : s.queue.isEmpty = true := Queue.isEmpty_iff.mpr (Queue.pop?_eq_none_iff.mp hq)
    rw [step_of_isEmpty ends hempty, step_of_isEmpty ends (h.isEmpty_eq.trans hempty)]
    apply Backed.ok
    refine ⟨h, ?_⟩
    rintro (hshifted | ⟨e, ⟨⟩⟩)
    exact hshifted
  | some x =>
    obtain ⟨e, queue⟩ := x
    obtain ⟨e', queue', hq', htime, hwhat, hrest⟩ := h.take hq
    have hstale := h.isStale_eq hwhat
    cases hs : s.isStale e with
    | true =>
      rw [step_of_stale hq hs, step_of_stale hq' (hstale.trans hs)]
      apply Backed.ok
      refine ⟨hrest, ?_⟩
      rintro (hshifted | ⟨e, ⟨⟩⟩)
      exact ⟨hrest, hshifted.clock⟩
    | false =>
      rw [step_of_not_stale hq hs, step_of_not_stale hq' (hstale.trans hs), hwhat, htime]
      -- Both clocks are set to the time of the event, whatever they showed before.
      have hshifted : Shifted d { s with queue, clock := e.time }
          { t with queue := queue', clock := e.time + d } := by
        obtain ⟨⟨clock, queue₀, rfl⟩, -⟩ := h
        exact ⟨⟨⟨e.time + d, queue', rfl⟩, hrest.agenda⟩, rfl⟩
      apply (hshifted.handle hends e.what.stimulus).map
      rintro s' t' h'
      exact ⟨h'.toDelayed, fun _ => h'⟩

theorem walk (hends : ends.Timeless) (h : Delayed d s t) (n : Nat) :
    Backed (fun x y => Delayed d x.2 y.2 ∧
      (Shifted d s t ∨ (∃ turn ∈ x.1, ∃ e, turn.outcome = .handled e) → Shifted d x.2 y.2))
      (s.walk ends n) (t.walk ends n) := by
  induction n generalizing s t with
  | zero =>
    apply Backed.ok
    refine ⟨h, ?_⟩
    rintro (hshifted | ⟨turn, hturn, -⟩)
    · exact hshifted
    · cases hturn
  | succ n ih =>
    rw [walk_succ, walk_succ]
    apply (h.step hends).bind
    rintro ⟨o, s'⟩ ⟨o', t'⟩ ⟨h', hfirst⟩
    apply (ih h').map
    rintro ⟨turns, s''⟩ ⟨turns', t''⟩ ⟨h'', hlater⟩
    refine ⟨h'', ?_⟩
    rintro (hshifted | ⟨turn, hturn, e, he⟩)
    · exact hlater (.inl (hfirst (.inl hshifted)))
    · rcases List.mem_cons.mp hturn with rfl | hturn
      · exact hlater (.inl (hfirst (.inr ⟨e, he⟩)))
      · exact hlater (.inr ⟨turn, hturn, e, he⟩)

theorem history (hends : ends.Timeless) (h : Delayed d s t) (n : Nat) :
    Backed (fun x y => Delayed d x.2 y.2 ∧
      ((∃ turn ∈ x.1, ∃ e, turn.outcome = .handled e) → Shifted d x.2 y.2))
      (s.history ends n) (t.history ends n) := by
  rw [history_eq, history_eq]
  apply (h.init hends).bind
  intro s' t' h' y hy
  obtain ⟨x, hx, hrest, hclock⟩ := h'.walk hends n y hy
  exact ⟨x, hx, hrest, fun hhandled => hclock (.inr hhandled)⟩

theorem run (hends : ends.Timeless) (h : Delayed d s t) {limit : Nat} {completed : Bool}
    {t' : Simulation σ ρ} (hrun : t.run ends limit = .ok (completed, t')) :
    ∃ turns u s', s.history ends limit = .ok (turns, u) ∧
      s.run ends limit = .ok (completed, s') ∧ Delayed d s' t' ∧
      ((∃ turn ∈ turns, ∃ e, turn.outcome = .handled e) → t'.clock = s'.clock + d) := by
  rw [run_eq_history] at hrun
  obtain ⟨⟨turns', v⟩, hv, hend⟩ := exists_of_map_eq_ok hrun
  obtain ⟨rfl, rfl⟩ := Prod.mk.inj hend
  obtain ⟨⟨turns, u⟩, hu, hrest, hclock⟩ := h.history hends limit _ hv
  refine ⟨turns, u, u.close limit v.queue.isEmpty, hu, ?_, hrest.close limit _, ?_⟩
  · rw [run_eq_history, hu, hrest.isEmpty_eq]
    rfl
  · intro hhandled
    rw [clock_close, clock_close]
    exact (hclock hhandled).clock

end Delayed

namespace Simulation

theorem delayed_fresh (d : Nat) (config : Config) (ends : Ends σ ρ) :
    Delayed d (fresh config ends) (fresh config ends) :=
  ⟨⟨(fresh config ends).clock, (fresh config ends).queue, by simp [fresh]⟩, rfl⟩

/-- A run with these turns ended in `t`, and another one in `t'` just as well, only later. -/
structure EndsLater (d : Nat) (turns : List (Turn σ ρ)) (t t' : Simulation σ ρ) : Prop where
  completed : t'.report.completed = t.report.completed
  delivered : t'.delivered = t.delivered
  senderPackets : t'.senderPackets = t.senderPackets
  notices : t'.notices = t.notices
  descriptions : t'.links.map LinkEvent.description = t.links.map LinkEvent.description
  links : t'.links = t.links.map (LinkEvent.delayed d)
  samples : t'.samples = t.samples.map (Sample.delayed d)
  duration : (∃ turn ∈ turns, ∃ e, turn.outcome = .handled e) →
    t'.report.duration = t.report.duration + d

/-- When everything is submitted later by some time, and no time comes out too large, then the run
of any two protocols ends in the same way, only later by that time. -/
theorem delayed_with_plan (p q : Protocol) {config : Config}
    {s : Simulation p.sender.State q.receiver.State} (hs : create config (p.ends q) = .ok s)
    (plan : List Preparation) (d limit : Nat) {completed : Bool}
    {t' : Simulation p.sender.State q.receiver.State}
    (h : (s.prepare (plan.map (Preparation.delayed d))).run (p.ends q) limit =
      .ok (completed, t')) :
    ∃ turns u t, (s.prepare plan).history (p.ends q) limit = .ok (turns, u) ∧
      (s.prepare plan).run (p.ends q) limit = .ok (completed, t) ∧ EndsLater d turns t t' := by
  have hends : (p.ends q).Timeless := ⟨p.sender_timeless, q.receiver_timeless⟩
  obtain ⟨-, rfl⟩ := create_eq_ok_iff.mp hs
  obtain ⟨turns, u, t, hu, hrun, hrest, hclock⟩ :=
    ((delayed_fresh d config (p.ends q)).prepare plan).run hends h
  obtain ⟨⟨clock, queue, rfl⟩, -⟩ := hrest
  refine ⟨turns, u, t, hu, hrun, rfl, rfl, rfl, rfl, ?_, rfl, rfl, hclock⟩
  simp [LinkEvent.description, LinkEvent.delayed]

/-- The first step handles a message, so the run ends later as well. -/
theorem delayed_with_plan_over_noisy_link :
    ∃ t t' : Simulation Queued.Sender Queued.Receiver,
      ((fresh (noisy 10 90) Queued.ends).prepare workload).run Queued.ends 100 = .ok (true, t) ∧
      ((fresh (noisy 10 90) Queued.ends).prepare
        (workload.map (Preparation.delayed 5000))).run Queued.ends 100 = .ok (true, t') ∧
      t'.links = t.links.map (LinkEvent.delayed 5000) ∧
      t.report.duration = 20068 ∧ t'.report.duration = 25068 ∧
      t'.delivered = #[[1, 2], [9], [3]] := by
  have hdelayed : (((fresh (noisy 10 90) Queued.ends).prepare
      (workload.map (Preparation.delayed 5000))).run Queued.ends 100).map
        (fun x => (x.1, x.2.clock, x.2.delivered)) =
          .ok (true, 25068, #[[1, 2], [9], [3]]) := by
    decide +kernel
  have hfirst : (((fresh (noisy 10 90) Queued.ends).prepare workload).history Queued.ends 100).map
      (fun x => x.1.head?.map Turn.outcome) =
        .ok (some (.handled ⟨0, 1, .submission [1, 2]⟩)) := by
    decide +kernel
  obtain ⟨⟨b, t'⟩, ht', hend⟩ := exists_of_map_eq_ok hdelayed
  obtain ⟨rfl, hend⟩ := Prod.mk.inj hend
  obtain ⟨hclock, hdelivered⟩ := Prod.mk.inj hend
  obtain ⟨turns, u, t, hu, ht, hlater⟩ :=
    delayed_with_plan .queued .queued (create_noisy (by decide)) workload 5000 100 ht'
  obtain ⟨⟨turns', v⟩, hv, hhead⟩ := exists_of_map_eq_ok hfirst
  obtain ⟨rfl, -⟩ := Prod.mk.inj (Except.ok.inj (hu.symm.trans hv))
  obtain ⟨turn, hturn, houtcome⟩ := Option.map_eq_some_iff.mp hhead
  have hends := hlater.duration ⟨turn, List.mem_of_mem_head? hturn, _, houtcome⟩
  have hearlier : t.report.duration + 5000 = 20068 + 5000 := hends.symm.trans hclock
  exact ⟨t, t', ht, ht', hlater.links, Nat.add_right_cancel hearlier, hclock, hdelivered⟩

end Simulation

end LossyLink
