import LossyLink.Proofs.Simulation.Posting

/-! # Passages

What becomes of a packet that an end hands to the channel, with all that can be seen of it:
the events in the log of the link, the copy that is put into the queue, and the count of
the sender's packets. The packets of an answer pass one after another, each on its own.
-/

namespace LossyLink

variable {σ ρ : Type}

/-- What arrives of a packet. -/
def Packet.received (p : Packet) : Bool → Packet
  | true => p.damaged
  | false => p

theorem Packet.isCopy_received (p : Packet) (damaged : Bool) : p.IsCopy (p.received damaged) := by
  cases damaged with
  | true => exact .inr rfl
  | false => exact .inl rfl

inductive Passage where
  | dropped (reason : DropReason)
  | carried (damaged : Bool) (latency : Nat)
  deriving DecidableEq, Repr

/-- The channel has passages like this one. -/
inductive Passage.Possible (c : Config) : Passage → Prop where
  | dropped (reason : DropReason) : Possible c (.dropped reason)
  | carried {damaged : Bool} {latency : Nat} (le : c.minLatency ≤ latency)
      (ge : latency ≤ c.maxLatency) (rate : damaged = true → ¬ IsZero c.corruptRate) :
      Possible c (.carried damaged latency)

/-- A packet that was handed to the channel, and its passage. -/
structure Post where
  packet : Packet
  passage : Passage
  deriving DecidableEq, Repr

/-- What the channel logs of a packet. -/
def Post.changes (x : Post) : List LinkChange :=
  let seq := x.packet.header.seq
  let ack := x.packet.header.ack
  match x.passage with
  | .dropped reason => [.dropped reason seq ack]
  | .carried true latency => [.corrupted seq ack, .sent seq ack latency]
  | .carried false latency => [.sent seq ack latency]

def LinkEvent.isCorruption (e : LinkEvent) : Bool :=
  match e.change with
  | .corrupted .. => true
  | .delivered _ => false
  | .dropped .. => false
  | .sent .. => false

def Post.events (time : Nat) (node : Node) (x : Post) : List LinkEvent :=
  x.changes.map fun change => ⟨time, node, change⟩

/-- What the channel puts into the queue for a packet. -/
def Situation.post (node : Node) (c : Situation σ ρ) (x : Post) : Situation σ ρ :=
  match x.passage with
  | .dropped _ => c
  | .carried damaged latency =>
    c.enqueue (c.clock + latency) (.arrival node.peer (x.packet.received damaged))

theorem Situation.post_frame (node : Node) (c : Situation σ ρ) (x : Post) :
    ∃ queue, c.post node x = { c with queue } := by
  obtain ⟨p, reason | ⟨damaged, latency⟩⟩ := x
  · exact ⟨c.queue, rfl⟩
  · exact ⟨_, rfl⟩

namespace Simulation

open Situation

variable {s s' t : Simulation σ ρ} {node : Node} {p : Packet} {posts : List Post}

/-- Packets pass, and the passages are these. -/
structure Conveyed (node : Node) (posts : List Post) (s s' : Simulation σ ρ) : Prop where
  possible : ∀ x ∈ posts, x.passage.Possible s.config
  situation : s'.situation = posts.foldl (Situation.post node) s.situation
  links : s'.links.toList = s.links.toList ++ posts.flatMap (Post.events s.clock node)
  senderPackets : s'.senderPackets = s.senderPackets + posts.length * node.senderPackets

theorem exists_passage_of_carry (hv : s.config.minLatency ≤ s.config.maxLatency)
    (h : s.carry node p = .ok s') : ∃ w : Passage, w.Possible s.config ∧
      s'.situation = s.situation.post node ⟨p, w⟩ ∧
      s'.links.toList = s.links.toList ++ Post.events s.clock node ⟨p, w⟩ ∧
      s'.senderPackets = s.senderPackets := by
  have hlatency : ∀ {damaged latency}, (s.config.drawFate s.generator).1 =
      .arrives damaged latency → s.config.minLatency ≤ latency ∧ latency ≤ s.config.maxLatency :=
    Config.latency_of_drawFate hv
  have hdamage : ∀ {latency}, (s.config.drawFate s.generator).1 = .arrives true latency →
      ¬ IsZero s.config.corruptRate := by
    intro latency hf hzero
    unfold Config.drawFate at hf
    simp only [Generator.hits_of_isZero hzero] at hf
    split at hf <;> cases hf
  simp only [carry] at h
  split at h
  · rename_i reason drops _
    cases h
    exact ⟨.dropped reason, .dropped _, rfl, by simp [link, Post.events, Post.changes], rfl⟩
  · split at h
    · cases h
      exact ⟨.dropped .random, .dropped _, rfl, by simp [link, Post.events, Post.changes], rfl⟩
    · rename_i latency hf
      obtain rfl := after_eq_ok h
      obtain ⟨hle, hge⟩ := hlatency hf
      exact ⟨.carried true latency, .carried hle hge fun _ => hdamage hf, rfl,
        by simp [link, Simulation.enqueue, Post.events, Post.changes], rfl⟩
    · rename_i latency hf
      obtain rfl := after_eq_ok h
      obtain ⟨hle, hge⟩ := hlatency hf
      exact ⟨.carried false latency, .carried hle hge fun h => absurd h Bool.false_ne_true, rfl,
        by simp [link, Simulation.enqueue, Post.events, Post.changes], rfl⟩

theorem exists_conveyed_of_transmit (hv : s.config.minLatency ≤ s.config.maxLatency)
    (h : s.transmit node p = .ok s') : ∃ w : Passage, Conveyed node [⟨p, w⟩] s s' := by
  have hsituation := situation_countSent s node
  have hlinks : (s.countSent node).links = s.links := by cases node <;> rfl
  have hpackets : (s.countSent node).senderPackets = s.senderPackets + node.senderPackets :=
    congrArg Ledger.senderPackets (ledger_countSent s node)
  have hconfig : (s.countSent node).config = s.config := congrArg Situation.config hsituation
  have hclock : (s.countSent node).clock = s.clock := congrArg Situation.clock hsituation
  obtain ⟨w, hw, hs, hl, hp⟩ := exists_passage_of_carry (hconfig ▸ hv) h
  rw [hconfig] at hw
  rw [hsituation] at hs
  rw [hlinks, hclock] at hl
  refine ⟨w, ?_, hs, ?_, ?_⟩
  · intro x hx
    obtain rfl := List.mem_singleton.mp hx
    exact hw
  · simpa using hl
  · rw [hp, hpackets]
    simp

theorem Conveyed.nil : Conveyed node [] s s :=
  ⟨by simp, rfl, by simp, by simp⟩

theorem Conveyed.config_eq (h : Conveyed node posts s s') : s'.config = s.config ∧
    s'.clock = s.clock := by
  have hframe : ∀ (posts : List Post) (c : Situation σ ρ),
      ∃ queue, posts.foldl (Situation.post node) c = { c with queue } := by
    intro posts
    induction posts with
    | nil => exact fun c => ⟨c.queue, rfl⟩
    | cons x posts ih =>
      intro c
      obtain ⟨queue, hq⟩ := c.post_frame node x
      obtain ⟨queue', hq'⟩ := ih (c.post node x)
      exact ⟨queue', by rw [List.foldl_cons, hq', hq]⟩
  obtain ⟨queue, hq⟩ := hframe posts s.situation
  have hsituation := h.situation.trans hq
  exact ⟨congrArg Situation.config hsituation, congrArg Situation.clock hsituation⟩

theorem Conveyed.trans {rest : List Post} (h : Conveyed node posts s t)
    (ht : Conveyed node rest t s') : Conveyed node (posts ++ rest) s s' := by
  obtain ⟨hconfig, hclock⟩ := h.config_eq
  refine ⟨?_, ?_, ?_, ?_⟩
  · intro x hx
    rcases List.mem_append.mp hx with hx | hx
    · exact h.possible x hx
    · exact hconfig ▸ ht.possible x hx
  · rw [ht.situation, h.situation, List.foldl_append]
  · rw [ht.links, h.links, hclock, List.flatMap_append, List.append_assoc]
  · rw [ht.senderPackets, h.senderPackets, List.length_append, Nat.add_mul, Nat.add_assoc]

theorem exists_conveyed_of_transmits {ps : List Packet}
    (hv : s.config.minLatency ≤ s.config.maxLatency)
    (h : ps.foldlM (fun s p => s.transmit node p) s = .ok s') :
    ∃ posts : List Post, posts.map Post.packet = ps ∧ Conveyed node posts s s' := by
  induction ps generalizing s with
  | nil =>
    cases h
    exact ⟨[], rfl, .nil⟩
  | cons p ps ih =>
    rw [List.foldlM_cons] at h
    obtain ⟨t, ht, h⟩ := exists_of_bind_eq_ok h
    obtain ⟨w, hw⟩ := exists_conveyed_of_transmit hv ht
    obtain ⟨posts, rfl, hposts⟩ := ih (hw.config_eq.1 ▸ hv) h
    exact ⟨⟨p, w⟩ :: posts, rfl, hw.trans hposts⟩

/-- What the link logs of deliveries. -/
def deliveryEvents (time : Nat) (node : Node) (actions : List Action) : List LinkEvent :=
  (actions.filterMap Action.delivered?).map fun data => ⟨time, node, .delivered data.length⟩

theorem links_record (s : Simulation σ ρ) (node : Node) (actions : List Action) :
    (s.record node actions).links.toList =
      s.links.toList ++ deliveryEvents s.clock node actions := by
  have hsamples : ∀ (metrics : List (String × Float)) (t : Simulation σ ρ),
      (metrics.foldl (fun s m => s.sample m.1 m.2) t).links = t.links ∧
        (metrics.foldl (fun s m => s.sample m.1 m.2) t).clock = t.clock := by
    intro metrics
    induction metrics with
    | nil => exact fun t => ⟨rfl, rfl⟩
    | cons m metrics ih => exact fun t => ih (t.sample m.1 m.2)
  have hlogs : ∀ (texts : List String) (t : Simulation σ ρ),
      (texts.foldl (fun s text => s.notify (.ofNode node text)) t).links = t.links ∧
        (texts.foldl (fun s text => s.notify (.ofNode node text)) t).clock = t.clock := by
    intro texts
    induction texts with
    | nil => exact fun t => ⟨rfl, rfl⟩
    | cons text texts ih => exact fun t => ih (t.notify (.ofNode node text))
  have hdeliveries : ∀ (xs : List Payload) (t : Simulation σ ρ),
      (xs.foldl (fun s data => s.deliver node data) t).links.toList =
        t.links.toList ++ xs.map fun data => ⟨t.clock, node, .delivered data.length⟩ := by
    intro xs
    induction xs with
    | nil => simp
    | cons data xs ih =>
      intro t
      rw [List.foldl_cons, ih]
      simp [deliver, link, notify]
  rw [record, hdeliveries]
  simp only [hlogs, hsamples, deliveryEvents]

theorem links_timers {ops : List TimerOp}
    (h : ops.foldlM (fun s op => s.timer node op) s = .ok s') : s'.links = s.links := by
  induction ops generalizing s with
  | nil => cases h; rfl
  | cons op ops ih =>
    rw [List.foldlM_cons] at h
    obtain ⟨t, ht, h⟩ := exists_of_bind_eq_ok h
    refine (ih h).trans ?_
    cases op with
    | start delay id =>
      rw [after_eq_ok (s := { s with generations := s.generations.bump (node, id) }) ht]
      rfl
    | cancel id => cases ht; rfl

/-- An answer is carried out up to its packets, and then these pass. -/
theorem exists_conveyed_of_perform {actions : List Action}
    (hv : s.config.minLatency ≤ s.config.maxLatency) (h : s.perform node actions = .ok s') :
    ∃ (t : Simulation σ ρ) (posts : List Post),
      t.situation = s.situation.carryOut node actions ∧
      t.links.toList = s.links.toList ++ deliveryEvents s.clock node actions ∧
      t.senderPackets = s.senderPackets ∧
      posts.map Post.packet = actions.filterMap Action.sent? ∧ Conveyed node posts t s' := by
  rw [perform_eq] at h
  obtain ⟨t, ht, h⟩ := exists_of_bind_eq_ok h
  have hsituation : t.situation = s.situation.carryOut node actions := by
    rw [situation_timers ht, situation_record]
    rfl
  have hledger : t.ledger = s.ledger := (ledger_timers ht).trans (ledger_record s node actions)
  have hconfig : t.config = s.config := by
    obtain ⟨queue, generations, hf⟩ := carryOut_frame s.situation node actions
    exact congrArg Situation.config (hsituation.trans hf)
  obtain ⟨posts, hposts, hc⟩ := exists_conveyed_of_transmits (hconfig ▸ hv) h
  refine ⟨t, posts, hsituation, ?_, congrArg Ledger.senderPackets hledger, hposts, hc⟩
  rw [links_timers ht, links_record]

end Simulation

end LossyLink
