import LossyLink.Proofs.StopAndWait.Ticking
import Mathlib.Data.List.Basic

/-! # A sender attends to its packet

Whatever the receiver does, a stop-and-wait sender has its timer running while a message
is under way, and no timer otherwise; it never starts a timer that runs. Every message
that it became responsible for was acknowledged, is under way or waits for its turn, so
a queue that has emptied leaves none that was not acknowledged.
-/

namespace LossyLink

variable {σ ρ : Type}

/-- The timer of a node whose expiry an event is. -/
def Event.timer? (node : Node) (e : Event) : Option UInt32 :=
  match e.what with
  | .expiry node' id _ => if node' = node then some id else none
  | .arrival .. => none
  | .submission _ => none

theorem ne_init_of_mem_heard {turns : List (Turn σ ρ)} {h : σ × Stimulus}
    (hmem : h ∈ heard turns) : h.2 ≠ .init := by
  obtain ⟨⟨before, outcome⟩, -, ht⟩ := List.mem_filterMap.mp hmem
  obtain ⟨x, hx, rfl⟩ := Option.map_eq_some_iff.mp ht
  cases outcome with
  | drained => cases hx
  | stale => cases hx
  | handled e =>
    obtain ⟨-, hx⟩ := Option.ite_none_right_eq_some.mp hx
    exact Option.some.inj hx ▸ e.what.stimulus_ne_init

namespace Simulation

/-- The expiries of a node's timers that wait and are not stale. -/
def running (s : Simulation σ ρ) (node : Node) : List Event :=
  s.queue.toList.filter fun e => (e.timer? node).isSome && !s.isStale e

/-- While a sender is busy its timer runs alone, due within the timeout, and no timer of
the sender runs while it is not. -/
structure Attends (s : Simulation σ ρ) (busy : Bool) (timer : UInt32) (timeout : Nat) : Prop where
  busy_iff : busy = true ↔ ∃ e : Event, s.running .sender = [e] ∧
    e.timer? .sender = some timer ∧ s.clock ≤ e.time ∧ e.time ≤ s.clock + timeout
  idle_iff : busy = false ↔ s.running .sender = []

end Simulation

/-- A timer that the sender starts in a step does not run by then, what the same answer
cancelled before being taken into account. -/
def Turn.StartsIdle (ends : Ends σ ρ) (t : Turn σ ρ) : Prop :=
  ∀ e queue, t.outcome = .handled e → t.before.queue.pop? = some (e, queue) →
    e.what.node = .sender → ∀ earlier delay id later s,
      (ends.sender.react e.time e.what.stimulus t.before.sender).2.filterMap Action.timer? =
        earlier ++ .start delay id :: later →
      earlier.foldlM (fun s op => s.timer .sender op)
        { t.before with queue, clock := e.time } = .ok s →
      ∀ x ∈ s.running .sender, x.timer? .sender ≠ some id

namespace SendingSide

variable {F : Format}

/-- The messages that the sender learned to be delivered. -/
def settled (A : SendingSide F σ) (log : List (σ × Stimulus)) : List Payload :=
  log.filterMap fun h => if A.confirms h.1 h.2 then A.current h.1 else none

/-- No message gets lost between being accepted and being acknowledged. -/
theorem Change.settled_eq {A : SendingSide F σ} {s s' : σ} {x : Stimulus}
    {log : List (σ × Stimulus)} (hc : A.Change s x s')
    (h : A.settled log ++ (A.current s).toList ++ A.backlog s = A.admitted log) :
    A.settled (log ++ [(s, x)]) ++ (A.current s').toList ++ A.backlog s' =
      A.admitted (log ++ [(s, x)]) := by
  have hsettled : A.settled (log ++ [(s, x)]) =
      A.settled log ++ if A.confirms s x then (A.current s).toList else [] := by
    rw [settled, settled, List.filterMap_append]
    cases hs : A.confirms s x <;> cases hm : A.current s <;> simp [hs, hm]
  rw [admitted_append, hsettled, ← h]
  cases hc with
  | stay bit current backlog confirms => simp [confirms, List.append_assoc, backlog]
  | advance packet ack waiting bit backlog accepted confirms =>
    simp [confirms, List.append_assoc, backlog, accepted]

end SendingSide

namespace Situation

variable {F : Format} {A : SendingSide F σ} {ends : Ends σ ρ} {c c' : Situation σ ρ}
  {log : List (σ × Stimulus)} {s : Simulation σ ρ} {id : UInt32} {e : Event} {node : Node}

theorem mem_running_iff : e ∈ s.running node ∧ e.timer? node = some id ↔
    s.situation.Pending (node, id) e := by
  unfold Simulation.running
  rw [List.mem_filter]
  constructor
  · rintro ⟨⟨he, hs⟩, ht⟩
    obtain ⟨time, n, _ | ⟨node', id', generation⟩ | _⟩ := e
    · simp [Event.timer?] at ht
    · obtain ⟨rfl, rfl⟩ : node' = node ∧ id' = id := by simpa [Event.timer?] using ht
      have hs : s.isStale ⟨time, n, .expiry node' id' generation⟩ = false := by
        simpa [Event.timer?] using hs
      exact pending_of_not_stale he rfl hs
    · simp [Event.timer?] at ht
  · intro hp
    have ht : e.timer? node = some id := by simp [Event.timer?, hp.2]
    have hs : s.isStale e = false := hp.not_stale
    exact ⟨⟨hp.1, by simp [ht, hs]⟩, ht⟩

theorem exists_pending_of_mem_running (he : e ∈ s.running node) :
    ∃ id, s.situation.Pending (node, id) e := by
  have hsome := (List.mem_filter.mp he).2
  rw [Bool.and_eq_true] at hsome
  obtain ⟨id, ht⟩ := Option.isSome_iff_exists.mp hsome.1
  exact ⟨id, mem_running_iff.mp ⟨he, ht⟩⟩

theorem nodup_running (s : Simulation σ ρ) (node : Node) : (s.running node).Nodup := by
  refine List.Pairwise.filter _ (s.queue.pairwise_toList.imp ?_)
  rintro a b h rfl
  exact h.asymm h

theorem Unarmed.running_eq_nil (h : s.situation.Unarmed) : s.running .sender = [] :=
  List.eq_nil_iff_forall_not_mem.mpr fun e he => by
    obtain ⟨id, hp⟩ := exists_pending_of_mem_running he
    exact h id e hp

/-- What holds throughout a run of a stop-and-wait sender, whatever its peer. -/
structure Attended (A : SendingSide F σ) (log : List (σ × Stimulus)) (c : Situation σ ρ) :
    Prop where
  coherent : c.Coherent
  sound : A.Sound c.sender
  ticking : c.Ticking A
  settled : A.settled log ++ (A.current c.sender).toList ++ A.backlog c.sender = A.admitted log

theorem Attended.attends (h : s.situation.Attended A log) :
    s.Attends (A.current s.sender).isSome (A.timerId (A.bit s.sender)) A.timeout := by
  cases hc : A.current s.sender with
  | none =>
    have hnil : s.running .sender = [] := (h.ticking.idle hc).running_eq_nil
    exact ⟨by simp [hnil], by simp [hnil]⟩
  | some m =>
    obtain ⟨e, hdue, hiff⟩ := h.ticking.waiting (Option.isSome_iff_exists.mpr ⟨m, hc⟩)
    have hp := (hiff _ e).mpr ⟨rfl, rfl⟩
    obtain ⟨hmem, ht⟩ := mem_running_iff.mpr hp
    have hsingle : s.running .sender = [e] := by
      refine List.perm_singleton.mp ((List.perm_ext_iff_of_nodup (nodup_running s _)
        (List.pairwise_singleton _ e)).mpr fun x => ?_)
      rw [List.mem_singleton]
      constructor
      · intro hx
        obtain ⟨id, hpx⟩ := exists_pending_of_mem_running hx
        exact ((hiff id x).mp hpx).2
      · rintro rfl
        exact hmem
    refine ⟨⟨fun _ => ?_, fun _ => rfl⟩, by simp [hsingle]⟩
    exact ⟨e, hsingle, ht, h.coherent.clock_le e hp.1, hdue⟩

theorem Attended.settled_of_drained (hA : A.Lawful) (h : c.Attended A log)
    (hq : c.queue.isEmpty) :
    A.current c.sender = none ∧ A.backlog c.sender = [] ∧ A.admitted log = A.settled log := by
  have hidle := h.ticking.current_eq_none hq
  have hbacklog := hA.backlog_eq_nil h.sound hidle
  refine ⟨hidle, hbacklog, ?_⟩
  rw [← h.settled, hidle, hbacklog]
  simp

theorem attended_start (hA : A.Lawful) (hends : ends.sender = A.endpoint) (hclock : c.clock = 0)
    (hq : ∀ e ∈ c.queue.toList, ∃ data, e.what = .submission data) {c₁ : Situation σ ρ}
    (h₁ : Handled ends .init c .sender c₁) (h₂ : Handled ends .init c₁ .receiver c') :
    c'.Attended A [] := by
  have hcoh := coherent_of_submissions hclock hq
  have hcoh₁ := hcoh.handled h₁
  obtain ⟨s, rfl, hsound, -, hcurrent, hbacklog⟩ := h₁.eq_of_sender_init hA hends
  obtain ⟨queue, generations, delivered, hframe⟩ := h₂.receiver_frame
  have hsender : c'.sender = s := by rw [hframe]
  have hunarmed : c'.Unarmed := fun id e hp =>
    unarmed_of_submissions hq id e ((h₂.pending_iff_of_ne hcoh₁ (by simp)).mp hp)
  rw [← hsender] at hsound hcurrent hbacklog
  exact ⟨hcoh₁.handled h₂, hsound, ⟨fun _ => hunarmed, fun hw => absurd hw (by simp [hcurrent])⟩,
    by simp [hcurrent, hbacklog, SendingSide.settled, SendingSide.admitted]⟩

theorem Attended.step {o : Outcome} (hA : A.Lawful) (hends : ends.sender = A.endpoint)
    (h : c.Attended A log) (hc : Step ends c o c') :
    c'.Attended A (log ++ (o.toSender?.map fun x => (c.sender, x)).toList) := by
  have hticking := h.ticking.step hA hends h.sound h.coherent hc
  have hcoh := h.coherent.step hc
  cases hc with
  | drained => simpa [Outcome.toSender?] using h
  | stale => simpa [Outcome.toSender?] using ⟨hcoh, h.sound, hticking, h.settled⟩
  | @handled e queue _ hq hst hh =>
    generalize hn : e.what.node = node at hh
    cases node with
    | sender =>
      obtain ⟨s', hsound, hchange, heffect⟩ :=
        hh.effect (c := c.reach e queue) hA hends h.sound e.what.stimulus_ne_init
      simp only [Outcome.toSender?, hn, if_true, Option.map_some, Option.toList_some]
      rw [← heffect.sender_eq] at hsound hchange
      exact ⟨hcoh, hsound, hticking, hchange.settled_eq h.settled⟩
    | receiver =>
      obtain ⟨queue', generations, delivered, rfl⟩ := hh.receiver_frame
      simp only [Outcome.toSender?, hn, reduceCtorEq, if_false, Option.map_none,
        Option.toList_none, List.append_nil]
      exact ⟨hcoh, h.sound, hticking, h.settled⟩

theorem Attended.startsIdle {o : Outcome} (hA : A.Lawful) (hends : ends.sender = A.endpoint)
    (h : s.situation.Attended A log) (hs : Step ends s.situation o c') :
    (⟨s, o⟩ : Turn σ ρ).StartsIdle ends := by
  rintro e queue rfl hq hn earlier delay id later s₁ htimers hrun x hx ht
  obtain - | - | ⟨-, hst, -⟩ := hs
  have hp := mem_running_iff.mp ⟨hx, ht⟩
  rw [Simulation.situation_timers hrun] at hp
  rw [hends] at htimers
  generalize hr : A.endpoint.react e.time e.what.stimulus s.sender = r at htimers
  obtain ⟨s', actions⟩ := r
  cases (hA.reply h.sound e.what.stimulus_ne_init hr).output with
  | silent bit current expiry quiet => simp [quiet.timers] at htimers
  | released packet current sent timers =>
    have hmem : TimerOp.start delay id ∈ actions.filterMap Action.timer? := by simp [htimers]
    simp [timers] at hmem
  | @sending m ids current occasion sent timers =>
    rw [timers, List.append_cons_inj_of_notMem (by simp) (by simp)] at htimers
    obtain ⟨rfl, -, -⟩ := htimers
    exact h.ticking.unarmed_of_occasion h.coherent hq hst hn occasion id x hp

end Situation

open Situation

variable {F : Format} {A : SendingSide F σ} {ends : Ends σ ρ} {config : Config}
  {s s' : Simulation σ ρ} {plan : List Preparation} {turns : List (Turn σ ρ)} {n : Nat}

/-- Every state that a prepared simulation reaches, and every step on the way. -/
theorem attended_of_history (hA : A.Lawful) (hends : ends.sender = A.endpoint)
    (hs : Simulation.create config ends = .ok s)
    (h : (s.prepare plan).history ends n = .ok (turns, s')) :
    s'.situation.Attended A (heard turns) ∧ ∀ t ∈ turns, t.StartsIdle ends := by
  obtain ⟨hvalid, c, s₁, h₁, h₂, hconfig, hwalk⟩ := Simulation.start_of_history hs h
  have hsit := Simulation.situation_prepare (Simulation.fresh config ends) plan
  have hqueue : ∀ e ∈ ((Simulation.fresh config ends).prepare plan).queue.toList,
      ∃ data, e.what = .submission data := Simulation.submission_of_mem_prepare_fresh plan
  have hstart : s₁.situation.Attended A [] :=
    attended_start hA hends (congrArg Situation.clock hsit) hqueue h₁ h₂
  have hall := Simulation.walk_induction (P := fun past t => t.config = config ∧
    t.situation.Attended A (heard past) ∧ ∀ u ∈ past, u.StartsIdle ends)
    ?_ [] ⟨hconfig, hstart, nofun⟩ hwalk
  · exact hall.2
  · rintro past t o t' ⟨ht, hattended, hpast⟩ hstep
    have hc := Simulation.situation_step (ht ▸ hvalid.latency) hstep
    refine ⟨hc.config_eq.trans ht, ?_, fun u hu => ?_⟩
    · rw [heard_append]
      exact hattended.step hA hends hc
    · rcases List.mem_append.mp hu with hu | hu
      · exact hpast u hu
      · obtain rfl := List.mem_singleton.mp hu
        exact hattended.startsIdle hA hends hc

/-- What a sender promises whatever its receiver and the channel do, in terms of whether
a packet of it is outstanding, which timer that packet has, and what it still has to send:
the timer of the packet runs, and no other; no timer is started while it runs, and none at
all at the beginning; and when the queue has emptied nothing is outstanding and all that was
accepted was acknowledged. -/
structure Attentive (sender : Endpoint σ) (busy : σ → Bool) (timer : σ → UInt32) (timeout : Nat)
    (backlog : σ → List Payload) (accepted? acknowledged? : σ → Stimulus → Option Payload) :
    Prop where
  init : ∀ now s, (sender.react now .init s).2.filterMap Action.timer? = []
  history : ∀ {ρ : Type} (receiver : Endpoint ρ) {config : Config} (plan : List Preparation)
    {s s' : Simulation σ ρ} {n : Nat} {turns : List (Turn σ ρ)},
    Simulation.create config ⟨sender, receiver⟩ = .ok s →
    (s.prepare plan).history ⟨sender, receiver⟩ n = .ok (turns, s') →
      s'.Attends (busy s'.sender) (timer s'.sender) timeout ∧
      (∀ t ∈ turns, t.StartsIdle ⟨sender, receiver⟩) ∧
      (s'.queue.isEmpty → busy s'.sender = false ∧ backlog s'.sender = [] ∧
        (heard turns).filterMap (fun h => accepted? h.1 h.2) =
          (heard turns).filterMap (fun h => acknowledged? h.1 h.2))
  run : ∀ {ρ : Type} (receiver : Endpoint ρ) {config : Config} (plan : List Preparation)
    {s s' : Simulation σ ρ} {limit : Nat},
    Simulation.create config ⟨sender, receiver⟩ = .ok s →
    (s.prepare plan).run ⟨sender, receiver⟩ limit = .ok (true, s') →
      busy s'.sender = false ∧ backlog s'.sender = [] ∧
      ∃ n ≤ limit, ∃ turns s₁,
        (s.prepare plan).history ⟨sender, receiver⟩ n = .ok (turns, s₁) ∧
        s' = s₁.close limit true ∧
        (heard turns).filterMap (fun h => accepted? h.1 h.2) =
          (heard turns).filterMap (fun h => acknowledged? h.1 h.2)

theorem SendingSide.Lawful.attentive {busy : σ → Bool} {timer : σ → UInt32}
    {acknowledged? : σ → Stimulus → Option Payload} (hA : A.Lawful)
    (hbusy : ∀ s, (A.current s).isSome = busy s) (htimer : ∀ s, A.timerId (A.bit s) = timer s)
    (hacknowledged : ∀ s x, x ≠ .init →
      (if A.confirms s x then A.current s else none) = acknowledged? s x) :
    Attentive A.endpoint busy timer A.timeout A.backlog A.accepted? acknowledged? := by
  have hsettled : ∀ {ρ : Type} (turns : List (Turn σ ρ)), A.settled (heard turns) =
      (heard turns).filterMap fun h => acknowledged? h.1 h.2 := fun turns =>
    List.filterMap_congr fun h hmem => hacknowledged h.1 h.2 (ne_init_of_mem_heard hmem)
  have hhistory : ∀ {ρ : Type} (receiver : Endpoint ρ) {config : Config}
      (plan : List Preparation) {s s' : Simulation σ ρ} {n : Nat} {turns : List (Turn σ ρ)},
      Simulation.create config ⟨A.endpoint, receiver⟩ = .ok s →
      (s.prepare plan).history ⟨A.endpoint, receiver⟩ n = .ok (turns, s') →
        s'.Attends (busy s'.sender) (timer s'.sender) A.timeout ∧
        (∀ t ∈ turns, t.StartsIdle ⟨A.endpoint, receiver⟩) ∧
        (s'.queue.isEmpty → busy s'.sender = false ∧ A.backlog s'.sender = [] ∧
          A.admitted (heard turns) = (heard turns).filterMap fun h => acknowledged? h.1 h.2) := by
    intro ρ receiver config plan s s' n turns hs h
    obtain ⟨hattended, hstarts⟩ := attended_of_history hA rfl hs h
    have hattends := hattended.attends
    rw [hbusy, htimer] at hattends
    refine ⟨hattends, hstarts, fun hq => ?_⟩
    obtain ⟨hidle, hbacklog, hall⟩ := hattended.settled_of_drained hA hq
    refine ⟨?_, hbacklog, hall.trans (hsettled _)⟩
    rw [← hbusy]
    exact Option.isSome_eq_false_iff.mpr (Option.isNone_iff_eq_none.mpr hidle)
  refine ⟨?_, hhistory, ?_⟩
  · intro now s
    obtain ⟨s', actions, hreact, -, -, -, -, hquiet⟩ := hA.init now s
    rw [hreact]
    exact hquiet.timers
  · intro ρ receiver config plan s s' limit hs h
    obtain ⟨n, hn, turns, s₁, h₁, hq, rfl⟩ := Simulation.history_of_run h
    obtain ⟨hidle, hbacklog, hall⟩ := (hhistory receiver plan hs h₁).2.2 hq
    exact ⟨hidle, hbacklog, n, hn, turns, s₁, h₁, rfl, hall⟩

end LossyLink
