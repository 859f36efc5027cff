import LossyLink.Proofs.Simulation.Passage
import LossyLink.Proofs.Simulation.Reference

/-! # The log of the link

What the ends ask of the link, deliveries and packets, with what became of each request. It
tells more than the link's own log, which can be read off it: the contents of what was sent
and delivered, and what is to arrive of every packet. An answer of an end adds one entry for
each of its requests, and every record that is kept of it agrees with the entries.
-/

namespace LossyLink

variable {σ ρ : Type}

inductive Request where
  | deliver (data : Payload)
  | send (p : Packet)
  deriving DecidableEq, Repr

/-- An end asks something of the link at a time. -/
structure Demand where
  time : Nat
  node : Node
  request : Request
  deriving DecidableEq, Repr

/-- The requests of an answer, in the order in which they are carried out. -/
def Demand.ofActions (time : Nat) (node : Node) (actions : List Action) : List Demand :=
  (actions.filterMap Action.delivered?).map (fun data => ⟨time, node, .deliver data⟩) ++
    (actions.filterMap Action.sent?).map fun p => ⟨time, node, .send p⟩

/-- A request that was carried out. -/
inductive Deed where
  | delivered (data : Payload)
  | posted (x : Post)
  deriving DecidableEq, Repr

structure LinkEntry where
  time : Nat
  node : Node
  deed : Deed
  deriving DecidableEq, Repr

/-- The call that an event is going to be. -/
def Event.call (e : Event) : Call := ⟨e.time, e.what.node, e.what.stimulus⟩

namespace LinkEntry

variable {x : LinkEntry}

def demand (x : LinkEntry) : Demand where
  time := x.time
  node := x.node
  request :=
    match x.deed with
    | .delivered data => .deliver data
    | .posted y => .send y.packet

/-- What the link logs of it. -/
def events (x : LinkEntry) : List LinkEvent :=
  match x.deed with
  | .delivered data => [⟨x.time, x.node, .delivered data.length⟩]
  | .posted y => y.events x.time x.node

def data? (x : LinkEntry) : Option Payload :=
  match x.deed with
  | .delivered data => some data
  | .posted _ => none

/-- What is to arrive of a packet. -/
def call? (x : LinkEntry) : Option Call :=
  match x.deed with
  | .delivered _ => none
  | .posted ⟨_, .dropped _⟩ => none
  | .posted ⟨p, .carried damaged latency⟩ =>
    some ⟨x.time + latency, x.node.peer, .packet (p.received damaged)⟩

/-- A packet of the sender. -/
def isSenderPost (x : LinkEntry) : Bool :=
  match x.node, x.deed with
  | .sender, .posted _ => true
  | .sender, .delivered _ => false
  | .receiver, _ => false

def Possible (c : Config) (x : LinkEntry) : Prop :=
  match x.deed with
  | .delivered _ => True
  | .posted y => y.passage.Possible c

end LinkEntry

namespace Queue

/-- What the channel is going to bring to the ends. -/
def awaited (q : Queue) : List Call := q.arrivals.map Event.call

theorem arrivals_schedule_perm (q : Queue) (time : Nat) (node : Node) (p : Packet) :
    (q.schedule time (.arrival node p)).awaited.Perm
      (q.awaited ++ [⟨time, node, .packet p⟩]) := by
  unfold awaited arrivals
  rw [toList_schedule]
  refine (((Event.insert_perm _ _).filter _).map _).trans ?_
  rw [List.filter_cons_of_pos rfl, List.map_cons]
  exact (List.perm_append_singleton _ _).symm

theorem awaited_of_pop?_eq_some {q q' : Queue} {e : Event} (h : q.pop? = some (e, q')) :
    q.awaited = if e.isArrival then e.call :: q'.awaited else q'.awaited := by
  unfold awaited
  rw [arrivals_of_pop?_eq_some h]
  split <;> rfl

theorem length_inTransit (q : Queue) (node : Node) :
    (q.inTransit node).length = q.awaited.countP fun c => c.node = node := by
  unfold inTransit awaited arrivals
  rw [List.length_filterMap_eq_countP, List.countP_map, List.countP_filter]
  refine List.countP_congr fun e _ => ?_
  obtain ⟨time, id, what⟩ := e
  cases what with
  | arrival node' p =>
    simp only [Event.packetTo?, Event.isArrival, Event.call, Happening.node, Option.isSome_ite,
      Function.comp_apply, Bool.and_true]
    exact decide_eq_true_iff.symm
  | expiry => simp [Event.packetTo?, Event.isArrival]
  | submission => simp [Event.packetTo?, Event.isArrival]

end Queue

namespace Situation

variable {c : Situation σ ρ} {node : Node}

theorem awaited_timer (c : Situation σ ρ) (op : TimerOp) :
    (c.timer node op).queue.awaited = c.queue.awaited := by
  cases op with
  | start delay id => exact congrArg (List.map Event.call) (Queue.arrivals_schedule_of_not rfl)
  | cancel id => rfl

theorem awaited_carryOut (c : Situation σ ρ) (actions : List Action) :
    (c.carryOut node actions).queue.awaited = c.queue.awaited := by
  have htimers : ∀ (ops : List TimerOp) (d : Situation σ ρ),
      (ops.foldl (fun d op => d.timer node op) d).queue.awaited = d.queue.awaited := by
    intro ops
    induction ops with
    | nil => exact fun _ => rfl
    | cons op ops ih => exact fun d => (ih _).trans (awaited_timer d op)
  exact htimers _ _

theorem awaited_posts (node : Node) (c : Situation σ ρ) (posts : List Post) :
    (posts.foldl (Situation.post node) c).queue.awaited.Perm (c.queue.awaited ++
      (posts.map fun x => (⟨c.clock, node, .posted x⟩ : LinkEntry)).filterMap
        LinkEntry.call?) := by
  induction posts generalizing c with
  | nil => simp
  | cons x posts ih =>
    obtain ⟨queue, hframe⟩ := c.post_frame node x
    have hclock : (c.post node x).clock = c.clock := by rw [hframe]
    have hrest := ih (c.post node x)
    rw [hclock] at hrest
    refine hrest.trans ?_
    obtain ⟨p, reason | ⟨damaged, latency⟩⟩ := x
    · exact .refl _
    · have hfirst := Queue.arrivals_schedule_perm c.queue (c.clock + latency) node.peer
        (p.received damaged)
      refine (hfirst.append_right _).trans ?_
      rw [List.append_assoc]
      exact .refl _

theorem delivered_posts (c : Situation σ ρ) (posts : List Post) :
    (posts.foldl (Situation.post node) c).delivered = c.delivered := by
  induction posts generalizing c with
  | nil => rfl
  | cons x posts ih =>
    obtain ⟨queue, hframe⟩ := c.post_frame node x
    rw [List.foldl_cons, ih, hframe]

end Situation

namespace Simulation

open Situation

variable {ends : Ends σ ρ} {s s' t : Simulation σ ρ} {node : Node}
  {entries rest : List LinkEntry}

/-- Between two states the records grow by what the entries say. -/
structure Tells (entries : List LinkEntry) (s s' : Simulation σ ρ) : Prop where
  config : s'.config = s.config
  links : s'.links.toList = s.links.toList ++ entries.flatMap LinkEntry.events
  delivered : s'.delivered.toList = s.delivered.toList ++ entries.filterMap LinkEntry.data?
  awaited : s'.queue.awaited.Perm (s.queue.awaited ++ entries.filterMap LinkEntry.call?)
  senderPackets : s'.senderPackets = s.senderPackets + entries.countP LinkEntry.isSenderPost
  possible : ∀ x ∈ entries, x.Possible s.config

theorem Tells.trans (h : Tells entries s t) (ht : Tells rest t s') :
    Tells (entries ++ rest) s s' := by
  constructor
  · exact ht.config.trans h.config
  · rw [ht.links, h.links, List.flatMap_append, List.append_assoc]
  · rw [ht.delivered, h.delivered, List.filterMap_append, List.append_assoc]
  · rw [List.filterMap_append, ← List.append_assoc]
    exact ht.awaited.trans (h.awaited.append_right _)
  · rw [ht.senderPackets, h.senderPackets, List.countP_append, Nat.add_assoc]
  · intro x hx
    rcases List.mem_append.mp hx with hx | hx
    · exact h.possible x hx
    · exact h.config ▸ ht.possible x hx

/-- The entries of an answer. -/
def answered (time : Nat) (node : Node) (actions : List Action) (posts : List Post) :
    List LinkEntry :=
  (actions.filterMap Action.delivered?).map (fun data => ⟨time, node, .delivered data⟩) ++
    posts.map fun x => ⟨time, node, .posted x⟩

theorem demand_answered {actions : List Action} {posts : List Post} (time : Nat)
    (h : posts.map Post.packet = actions.filterMap Action.sent?) :
    (answered time node actions posts).map LinkEntry.demand =
      Demand.ofActions time node actions := by
  rw [answered, Demand.ofActions, ← h, List.map_append, List.map_map, List.map_map, List.map_map]
  rfl

theorem countP_answered (time : Nat) (actions : List Action) (posts : List Post) :
    (answered time node actions posts).countP LinkEntry.isSenderPost =
      posts.length * node.senderPackets := by
  rw [answered, List.countP_append, List.countP_map, List.countP_map]
  cases node with
  | sender =>
    rw [List.countP_eq_zero.mpr, List.countP_eq_length.mpr]
    · simp [Node.senderPackets]
    · exact fun _ _ => rfl
    · simp [LinkEntry.isSenderPost]
  | receiver =>
    rw [List.countP_eq_zero.mpr, List.countP_eq_zero.mpr]
    · simp [Node.senderPackets]
    · simp [LinkEntry.isSenderPost]
    · simp [LinkEntry.isSenderPost]

theorem events_answered (time : Nat) (actions : List Action) (posts : List Post) :
    (answered time node actions posts).flatMap LinkEntry.events =
      deliveryEvents time node actions ++ posts.flatMap (Post.events time node) := by
  rw [answered, List.flatMap_append, List.flatMap_map, List.flatMap_map, deliveryEvents,
    List.map_eq_flatMap]
  rfl

theorem data_answered (time : Nat) (actions : List Action) (posts : List Post) :
    (answered time node actions posts).filterMap LinkEntry.data? =
      actions.filterMap Action.delivered? := by
  have hposts : ∀ posts : List Post, (posts.map fun x =>
      (⟨time, node, .posted x⟩ : LinkEntry)).filterMap LinkEntry.data? = [] := by
    simp [LinkEntry.data?]
  rw [answered, List.filterMap_append, hposts, List.append_nil, List.filterMap_map]
  exact List.filterMap_some

theorem calls_answered (time : Nat) (actions : List Action) (posts : List Post) :
    (answered time node actions posts).filterMap LinkEntry.call? =
      (posts.map fun x => (⟨time, node, .posted x⟩ : LinkEntry)).filterMap LinkEntry.call? := by
  have hdeliveries : ∀ xs : List Payload, (xs.map fun data =>
      (⟨time, node, .delivered data⟩ : LinkEntry)).filterMap LinkEntry.call? = [] := by
    simp [LinkEntry.call?]
  rw [answered, List.filterMap_append, hdeliveries, List.nil_append]

theorem possible_answered {config : Config} {time : Nat} {actions : List Action}
    {posts : List Post} (h : ∀ x ∈ posts, x.passage.Possible config) :
    ∀ x ∈ answered time node actions posts, x.Possible config := by
  intro x hx
  rcases List.mem_append.mp hx with hx | hx
  · obtain ⟨data, -, rfl⟩ := List.mem_map.mp hx
    trivial
  · obtain ⟨y, hy, rfl⟩ := List.mem_map.mp hx
    exact h y hy

/-- An answer tells of its own requests and of nothing else. -/
theorem exists_tells_of_perform {actions : List Action}
    (hv : s.config.minLatency ≤ s.config.maxLatency) (h : s.perform node actions = .ok s') :
    ∃ entries, entries.map LinkEntry.demand = Demand.ofActions s.clock node actions ∧
      Tells entries s s' := by
  obtain ⟨t, posts, hsituation, hlinks, hpackets, hposts, hc⟩ := exists_conveyed_of_perform hv h
  obtain ⟨queue, generations, hframe⟩ := carryOut_frame s.situation node actions
  have hframe := hsituation.trans hframe
  have hconfig : t.config = s.config := congrArg Situation.config hframe
  have hclock : t.clock = s.clock := congrArg Situation.clock hframe
  have hawaited : t.queue.awaited = s.queue.awaited :=
    (congrArg (fun c : Situation σ ρ => c.queue.awaited) hsituation).trans
      (awaited_carryOut s.situation actions)
  have hdelivered : s'.delivered.toList = t.delivered.toList :=
    (congrArg Situation.delivered hc.situation).trans (delivered_posts _ posts)
  refine ⟨answered s.clock node actions posts, demand_answered s.clock hposts, ?_⟩
  constructor
  · exact hc.config_eq.1.trans hconfig
  · rw [hc.links, hlinks, events_answered, List.append_assoc, hclock]
  · rw [data_answered, hdelivered]
    exact congrArg Situation.delivered hframe
  · have hposted := awaited_posts node t.situation posts
    rw [← hc.situation, show t.situation.clock = s.clock from hclock,
      show t.situation.queue.awaited = _ from hawaited] at hposted
    rw [calls_answered]
    exact hposted
  · rw [hc.senderPackets, hpackets, countP_answered]
  · exact possible_answered fun x hx => hconfig ▸ hc.possible x hx

theorem exists_tells_of_handle {x : Stimulus} (hv : s.config.minLatency ≤ s.config.maxLatency)
    (h : s.handle ends node x = .ok s') :
    ∃ entries, entries.map LinkEntry.demand =
        Demand.ofActions s.clock node (ends.answer node s.clock x s.sender s.receiver) ∧
      Tells entries s s' := by
  cases node with
  | sender =>
    have h : { s with sender := (ends.sender.react s.clock x s.sender).1 }.perform .sender
        (ends.sender.react s.clock x s.sender).2 = .ok s' := h
    obtain ⟨entries, hdemands, htells⟩ := exists_tells_of_perform (by exact hv) h
    exact ⟨entries, hdemands, htells.config, htells.links, htells.delivered, htells.awaited,
      htells.senderPackets, htells.possible⟩
  | receiver =>
    have h : { s with receiver := (ends.receiver.react s.clock x s.receiver).1 }.perform .receiver
        (ends.receiver.react s.clock x s.receiver).2 = .ok s' := h
    obtain ⟨entries, hdemands, htells⟩ := exists_tells_of_perform (by exact hv) h
    exact ⟨entries, hdemands, htells.config, htells.links, htells.delivered, htells.awaited,
      htells.senderPackets, htells.possible⟩

end Simulation

end LossyLink
