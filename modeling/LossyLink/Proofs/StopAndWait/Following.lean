import LossyLink.Proofs.Simulation.Passage
import LossyLink.Proofs.Simulation.Submission
import LossyLink.Proofs.StopAndWait.Budget
import LossyLink.Proofs.StopAndWait.Course

/-! # Transfers and their courses

A simulation of a stop-and-wait protocol over a channel that is fast beside the timer follows
a course: at most one packet is on its way, and it is what the stage says; the timer runs out
a timeout after the last packet was sent; and the counts agree. Every step of the simulation
is a move of the course or none.
-/

namespace LossyLink

open Situation Simulation

variable {σ ρ : Type} {F : Format} {A : SendingSide F σ} {B : ReceivingSide F ρ}

/-- How many packets the sender sent, and what the channel did to the packets of both ends. -/
structure Tally where
  sent : Nat
  drops : Nat
  damagedData : Nat
  damagedAcks : Nat
  deriving DecidableEq, Repr

def Tally.post (l : Tally) : Node → Passage → Tally
  | .sender, .dropped _ => { l with sent := l.sent + 1, drops := l.drops + 1 }
  | .sender, .carried damaged _ =>
    { l with sent := l.sent + 1, damagedData := l.damagedData + damaged.toNat }
  | .receiver, .dropped _ => { l with drops := l.drops + 1 }
  | .receiver, .carried damaged _ => { l with damagedAcks := l.damagedAcks + damaged.toNat }

/-- How many packets of one end the channel damaged. -/
def Simulation.damageCount (s : Simulation σ ρ) (node : Node) : Nat :=
  s.links.countP fun e => e.node = node ∧ e.isCorruption

def Simulation.faultCount (s : Simulation σ ρ) : Nat :=
  s.links.countP fun e => e.isDrop ∨ e.isCorruption

theorem faultCount_eq (s : Simulation σ ρ) :
    s.faultCount = s.dropCount + s.damageCount .sender + s.damageCount .receiver := by
  simp only [faultCount, dropCount, damageCount, ← Array.countP_toList]
  induction s.links.toList with
  | nil => rfl
  | cons e es ih =>
    obtain ⟨time, node, what⟩ := e
    simp only [List.countP_cons, ih]
    cases node <;> cases what <;> simp +arith [LinkEvent.isDrop, LinkEvent.isCorruption]

def Simulation.tally (s : Simulation σ ρ) : Tally where
  sent := s.senderPackets
  drops := s.dropCount
  damagedData := s.damageCount .sender
  damagedAcks := s.damageCount .receiver

def Course.tally (x : Course) : Tally := ⟨x.sent, x.drops, x.damagedData, x.damagedAcks⟩

section Tally

variable {s s' t : Simulation σ ρ} {node : Node} {p : Packet} {w : Passage}

theorem tally_of_conveyed (h : Conveyed node [⟨p, w⟩] s s') :
    s'.tally = s.tally.post node w := by
  have hpackets := h.senderPackets
  have hlinks := h.links
  rw [List.flatMap_singleton] at hlinks
  rw [List.length_singleton, Nat.one_mul] at hpackets
  simp only [Simulation.tally, dropCount, damageCount, ← Array.countP_toList, hlinks, hpackets,
    List.countP_append]
  cases node with
  | sender => obtain _ | ⟨_ | _, latency⟩ := w <;> rfl
  | receiver => obtain _ | ⟨_ | _, latency⟩ := w <;> rfl

theorem tally_of_conveyed_nil (h : Conveyed node [] s s') :
    s'.situation = s.situation ∧ s'.tally = s.tally := by
  have hlinks := h.links
  have hpackets := h.senderPackets
  rw [List.flatMap_nil, List.append_nil] at hlinks
  rw [List.length_nil, Nat.zero_mul, Nat.add_zero] at hpackets
  refine ⟨h.situation, ?_⟩
  simp only [Simulation.tally, dropCount, damageCount, ← Array.countP_toList, hlinks, hpackets]

theorem tally_of_deliveries {time : Nat} {actions : List Action}
    (hlinks : t.links.toList = s.links.toList ++ deliveryEvents time node actions)
    (hpackets : t.senderPackets = s.senderPackets) : t.tally = s.tally := by
  have hnone : ∀ q : LinkEvent → Bool, (∀ size, q ⟨time, node, .delivered size⟩ = false) →
      (deliveryEvents time node actions).countP q = 0 := by
    intro q hq
    refine List.countP_eq_zero.mpr fun e he => ?_
    obtain ⟨data, -, rfl⟩ := List.mem_map.mp he
    simp [hq]
  simp only [Simulation.tally, dropCount, damageCount, ← Array.countP_toList, hlinks, hpackets,
    List.countP_append]
  rw [hnone, hnone, hnone]
  · rfl
  · simp [LinkEvent.isCorruption]
  · simp [LinkEvent.isCorruption]
  · simp [LinkEvent.isDrop]

end Tally

/-- The sender sees damage done to an acknowledgement. -/
def SendingSide.Checks (A : SendingSide F σ) : Prop :=
  ∀ s b, A.confirms s (.packet (F.ack b).damaged) = false

/-- Whatever arrives of a message is taken for it, and a bad acknowledgement is answered with
the message at once. Nothing waits for its turn. -/
structure SendingSide.Eager (A : SendingSide F σ) (B : ReceivingSide F ρ) : Prop where
  backlog : ∀ s, A.backlog s = []
  expected : ∀ {now r b m p r' actions}, B.Sound r → (F.data b m).IsCopy p →
    B.endpoint.react now (.packet p) r = (r', actions) → B.expected r' = b.flip
  resends : ∀ {now s b p s' actions}, A.Sound s → (A.current s).isSome → (F.ack b).IsCopy p →
    A.confirms s (.packet p) = false → A.endpoint.react now (.packet p) s = (s', actions) →
    actions.filterMap Action.sent? ≠ []

/-- The ends of a transfer whose faults can be accounted for. -/
structure SendingSide.Accountable (A : SendingSide F σ) (B : ReceivingSide F ρ) (eager : Prop) :
    Prop where
  sending : A.Lawful
  receiving : B.Lawful
  faithful : A.Faithful B
  checks : A.Checks
  eager : eager → A.Eager B

namespace Situation

variable {c c' : Situation σ ρ} {e : Event} {queue : Queue}

/-- The receiver has no timer running. -/
def Untimed (c : Situation σ ρ) : Prop := ∀ id e, ¬ c.Pending (.receiver, id) e

theorem Untimed.step {o : Outcome} {log : List (σ × Stimulus)} (hB : B.Lawful)
    (hrun : Running A B log c) (h : c.Untimed) (hc : Step (A.ends B) c o c') : c'.Untimed := by
  cases hc with
  | drained => exact h
  | @stale e queue hq hst =>
    intro id d hd
    exact h id d ((pending_reach (c := c) hq).mp hd).1
  | @handled e queue _ hq hst hh =>
    generalize hn : e.what.node = node at hh
    cases node with
    | sender =>
      intro id d hd
      have hd := (hh.pending_iff_of_ne (hrun.coherent.reach hq) (by simp)).mp hd
      exact h id d ((pending_reach hq).mp hd).1
    | receiver =>
      cases hw : e.what with
      | submission data => rw [hw] at hn; cases hn
      | expiry node id generation =>
        rw [hw] at hh
        rw [hh.eq_of_timer hB rfl]
        intro id d hd
        exact h id d ((pending_reach hq).mp hd).1
      | arrival node p =>
        obtain rfl : node = .receiver := by rw [hw] at hn; exact hn
        rw [hw] at hh
        obtain ⟨x, -, hx, -⟩ := hrun.tracks
        obtain ⟨b, m, data, -, hcopy, -⟩ := hx.head_data hq hw
        have hasked : (c.reach e queue).asked (A.ends B) .receiver (.packet p) = [] :=
          (hB.answer hrun.sound.receiver hcopy rfl).timers
        intro id d hd
        have hd := hh.pending_iff.mp hd
        rw [show (Happening.arrival Node.receiver p).stimulus = .packet p from rfl, hasked] at hd
        exact h id d ((pending_reach hq).mp hd).1

/-- Where the message under way stands in a situation. -/
inductive Stands (A : SendingSide F σ) (c : Situation σ ρ) : Stage → Prop where
  | idle (current : A.current c.sender = none) : Stands A c .idle
  | lost (current : (A.current c.sender).isSome) (arrivals : c.queue.arrivals = []) :
      Stands A c .lost
  | outbound {e : Event} {m : Payload} {damaged : Bool} (current : A.current c.sender = some m)
      (arrivals : c.queue.arrivals = [e])
      (what : e.what = .arrival .receiver ((F.data (A.bit c.sender) m).received damaged)) :
      Stands A c (.outbound e.time damaged)
  | inbound {e : Event} {p : Packet} {good : Bool} (current : (A.current c.sender).isSome)
      (arrivals : c.queue.arrivals = [e]) (what : e.what = .arrival .sender p)
      (acknowledges : good = true ↔ p = F.ack (A.bit c.sender)) : Stands A c (.inbound e.time good)

theorem Stands.congr {stage : Stage} (h : c.Stands A stage)
    (hcurrent : A.current c'.sender = A.current c.sender)
    (hbit : A.bit c'.sender = A.bit c.sender) (ha : c'.queue.arrivals = c.queue.arrivals) :
    c'.Stands A stage := by
  cases h with
  | idle current => exact .idle (hcurrent.trans current)
  | lost current arrivals => exact .lost (hcurrent ▸ current) (ha.trans arrivals)
  | outbound current arrivals what =>
    exact .outbound (hcurrent.trans current) (ha.trans arrivals) (hbit ▸ what)
  | inbound current arrivals what acknowledges =>
    exact .inbound (hcurrent ▸ current) (ha.trans arrivals) what (hbit ▸ acknowledges)

theorem Stands.current_eq_none (h : c.Stands A .idle) : A.current c.sender = none := by
  cases h with
  | idle current => exact current

theorem Stands.eq_idle {stage : Stage} (h : c.Stands A stage)
    (hnone : A.current c.sender = none) : stage = .idle := by
  cases h with
  | idle => rfl
  | lost current => simp [hnone] at current
  | outbound current => cases hnone.symm.trans current
  | inbound current => simp [hnone] at current

theorem Stands.eq_lost {stage : Stage} (h : c.Stands A stage)
    (hwait : (A.current c.sender).isSome) (hnil : c.queue.arrivals = []) : stage = .lost := by
  cases h with
  | idle current => simp [current] at hwait
  | lost => rfl
  | outbound _ arrivals => cases hnil.symm.trans arrivals
  | inbound _ arrivals => cases hnil.symm.trans arrivals

/-- A packet on the way to the sender is an answer to the message under way. -/
theorem Stands.inbound_of_arrivals {stage : Stage} {p : Packet} (h : c.Stands A stage)
    (hs : c.Solitary A) (ha : c.queue.arrivals = [e]) (hw : e.what = .arrival .sender p) :
    (A.current c.sender).isSome ∧ ∃ good, stage = .inbound e.time good ∧
      (good = true ↔ p = F.ack (A.bit c.sender)) := by
  cases h with
  | idle current => cases (hs.idle current).symm.trans ha
  | lost _ arrivals => cases arrivals.symm.trans ha
  | outbound _ arrivals what =>
    cases arrivals.symm.trans ha
    cases hw.symm.trans what
  | inbound current arrivals what acknowledges =>
    cases arrivals.symm.trans ha
    cases hw.symm.trans what
    exact ⟨current, _, rfl, acknowledges⟩

theorem Stands.outbound_of_arrivals {stage : Stage} {p : Packet} (h : c.Stands A stage)
    (hs : c.Solitary A) (ha : c.queue.arrivals = [e]) (hw : e.what = .arrival .receiver p) :
    ∃ m damaged, A.current c.sender = some m ∧ stage = .outbound e.time damaged ∧
      p = (F.data (A.bit c.sender) m).received damaged := by
  cases h with
  | idle current => cases (hs.idle current).symm.trans ha
  | lost _ arrivals => cases arrivals.symm.trans ha
  | inbound _ arrivals what =>
    cases arrivals.symm.trans ha
    cases hw.symm.trans what
  | outbound current arrivals what =>
    cases arrivals.symm.trans ha
    cases hw.symm.trans what
    exact ⟨_, _, current, rfl, rfl⟩

end Situation

/-- A simulation, with what the sender heard and the time of the last submission, is at this
point of a course. -/
structure Follows (A : SendingSide F σ) (log : List (σ × Stimulus)) (last : Nat)
    (s : Simulation σ ρ) (x : Course) : Prop where
  stage : s.situation.Stands A x.stage
  now : x.now = s.clock
  last : x.last = last
  sentAt : (A.current s.sender).isSome → ∀ d ∈ s.queue.toList, s.situation.Armed A d →
    d.time = x.sentAt + A.timeout
  tally : x.tally = s.tally
  accepted : x.accepted = (A.admitted log).length
  backlog : x.backlog = (A.backlog s.sender).length

section Follows

variable {s : Simulation σ ρ} {x : Course} {log : List (σ × Stimulus)} {last : Nat}

theorem Follows.sent_eq (h : Follows A log last s x) : x.sent = s.senderPackets :=
  congrArg Tally.sent h.tally

theorem Follows.drops_eq (h : Follows A log last s x) : x.drops = s.dropCount :=
  congrArg Tally.drops h.tally

theorem Follows.damagedData_eq (h : Follows A log last s x) :
    x.damagedData = s.damageCount .sender :=
  congrArg Tally.damagedData h.tally

theorem Follows.damagedAcks_eq (h : Follows A log last s x) :
    x.damagedAcks = s.damageCount .receiver :=
  congrArg Tally.damagedAcks h.tally

theorem Follows.faults_eq (h : Follows A log last s x) : x.faults = s.faultCount := by
  rw [Course.faults, h.drops_eq, h.damagedData_eq, h.damagedAcks_eq, faultCount_eq]

end Follows

variable {s s' t : Simulation σ ρ} {x : Course} {log : List (σ × Stimulus)} {last : Nat}
  {e : Event} {queue : Queue} {node : Node} {p : Packet} {w : Passage} {s₁ : σ} {z : Stimulus}

/-- A packet that passes alone is all that is on its way then, if it is. -/
structure Lone (node : Node) (p : Packet) (w : Passage) (t s' : Simulation σ ρ) : Prop where
  sender : s'.sender = t.sender
  clock : s'.clock = t.clock
  generations : s'.generations = t.generations
  mem : ∀ d ∈ s'.queue.toList, d.isArrival = false → d ∈ t.queue.toList
  arrivals : (∃ reason, w = .dropped reason ∧ s'.situation.queue.arrivals = []) ∨
    ∃ damaged latency id, w = .carried damaged latency ∧ latency ≤ t.config.maxLatency ∧
      s'.situation.queue.arrivals =
        [⟨t.clock + latency, id, .arrival node.peer (p.received damaged)⟩]

theorem lone_of_conveyed (h : Conveyed node [⟨p, w⟩] t s') (hnil : t.queue.arrivals = []) :
    Lone node p w t s' := by
  have hsituation := h.situation
  rw [List.foldl_cons, List.foldl_nil] at hsituation
  obtain ⟨queue, hframe⟩ := t.situation.post_frame node ⟨p, w⟩
  have hframe := hsituation.trans hframe
  have hqueue : s'.queue = (t.situation.post node ⟨p, w⟩).queue :=
    congrArg Situation.queue hsituation
  refine ⟨congrArg Situation.sender hframe, congrArg Situation.clock hframe,
    congrArg Situation.generations hframe, ?_, ?_⟩
  · intro d hd ha
    rw [hqueue] at hd
    obtain reason | ⟨damaged, latency⟩ := w
    · exact hd
    · rcases Queue.mem_schedule.mp hd with rfl | hd
      · cases ha
      · exact hd
  · have harrivals : s'.situation.queue.arrivals =
        (t.situation.post node ⟨p, w⟩).queue.arrivals := congrArg Queue.arrivals hqueue
    obtain reason | ⟨damaged, latency⟩ := w
    · exact .inl ⟨reason, rfl, harrivals.trans hnil⟩
    · obtain _ | ⟨-, ge, -⟩ := h.possible _ List.mem_cons_self
      exact .inr ⟨damaged, latency, _, rfl, ge,
        harrivals.trans (Queue.arrivals_schedule_of_nil hnil)⟩

/-- What comes of an event that is shown to the sender. -/
inductive Response (A : SendingSide F σ) (s : Simulation σ ρ) (e : Event) (queue : Queue)
    (z : Stimulus) (s₁ : σ) (s' : Simulation σ ρ) : Prop where
  | silent (bit : A.bit s₁ = A.bit s.sender) (current : A.current s₁ = A.current s.sender)
      (expiry : z = .timer (A.timerId (A.bit s.sender)) → A.current s.sender = none)
      (sent : (A.endpoint.react e.time z s.sender).2.filterMap Action.sent? = [])
      (situation : s'.situation = { s.situation.reach e queue with sender := s₁ })
      (tally : s'.tally = s.tally) : Response A s e queue z s₁ s'
  | released {p : Packet} {g : Generations} (packet : z = .packet p)
      (current : A.current s₁ = none)
      (situation : s'.situation = { s.situation.reach e queue with sender := s₁, generations := g })
      (tally : s'.tally = s.tally) : Response A s e queue z s₁ s'
  | sending {m : Payload} {g : Generations} {t : Simulation σ ρ} {w : Passage}
      (current : A.current s₁ = some m)
      (occasion : A.current s.sender = none ∨ (∃ p, z = .packet p) ∨
        z = .timer (A.timerId (A.bit s.sender)))
      (lt : s.generations.get (packetTimer A s₁) < g.get (packetTimer A s₁))
      (situation : t.situation =
        { s.situation.reach e queue with sender := s₁, generations := g }.enqueue
          (e.time + A.timeout) (.expiry .sender (A.timerId (A.bit s₁)) (g.get (packetTimer A s₁))))
      (tally : t.tally = s.tally)
      (conveyed : Conveyed .sender [⟨F.data (A.bit s₁) m, w⟩] t s') : Response A s e queue z s₁ s'

theorem exists_response_of_handle (hA : A.Lawful) (hs : A.Sound s.sender) (hz : z ≠ .init)
    (hv : s.config.minLatency ≤ s.config.maxLatency)
    (h : { s with queue, clock := e.time }.handle (A.ends B) .sender z = .ok s') :
    ∃ s₁, A.Sound s₁ ∧ A.Change s.sender z s₁ ∧
      A.endpoint.react e.time z s.sender = (s₁, (A.endpoint.react e.time z s.sender).2) ∧
      Response A s e queue z s₁ s' := by
  have h : { s with
      queue, clock := e.time
      sender := (A.endpoint.react e.time z s.sender).1 }.perform .sender
        (A.endpoint.react e.time z s.sender).2 = .ok s' := h
  obtain ⟨t, posts, hsituation, hlinks, hpackets, hposts, hc⟩ :=
    exists_conveyed_of_perform (by exact hv) h
  have htally : t.tally = s.tally := tally_of_deliveries hlinks hpackets
  obtain ⟨sound, change, hemission⟩ :=
    emission_of_react (c := s.situation.reach e queue) hA hs hz rfl
  have hemission : Emission A z (s.situation.reach e queue)
      (A.endpoint.react e.time z s.sender).1 t.situation
      ((A.endpoint.react e.time z s.sender).2.filterMap Action.sent?) := hsituation ▸ hemission
  refine ⟨_, sound, change, rfl, ?_⟩
  generalize hd : t.situation = d at hemission
  generalize hps : (A.endpoint.react e.time z s.sender).2.filterMap Action.sent? = ps
    at hemission hposts
  cases hemission with
  | silent bit current expiry =>
    obtain rfl := List.map_eq_nil_iff.mp hposts
    obtain ⟨hs', htally'⟩ := tally_of_conveyed_nil hc
    exact .silent bit current expiry hps (hs'.trans hd) (htally'.trans htally)
  | released packet current =>
    obtain rfl := List.map_eq_nil_iff.mp hposts
    obtain ⟨hs', htally'⟩ := tally_of_conveyed_nil hc
    exact .released packet current (hs'.trans hd) (htally'.trans htally)
  | sending current occasion le lt =>
    obtain ⟨⟨-, w⟩, rfl, rfl⟩ := List.map_eq_singleton_iff.mp hposts
    exact .sending current occasion lt hd htally hc

theorem exists_conveyed_of_receiver_handle {b : SeqBit} {m : Payload} (hB : B.Lawful)
    (hr : B.Sound s.receiver) (hp : (F.data b m).IsCopy p)
    (hv : s.config.minLatency ≤ s.config.maxLatency)
    (h : { s with queue, clock := e.time }.handle (A.ends B) .receiver (.packet p) = .ok s') :
    ∃ (receiver : ρ) (actions : List Action) (t : Simulation σ ρ) (w : Passage),
      B.endpoint.react e.time (.packet p) s.receiver = (receiver, actions) ∧
      t.situation =
        { s.situation.reach e queue with receiver, delivered := t.situation.delivered } ∧
      t.tally = s.tally ∧ Conveyed .receiver [⟨F.ack (B.expected receiver).flip, w⟩] t s' := by
  rcases hreact : B.endpoint.react e.time (.packet p) s.receiver with ⟨receiver, actions⟩
  have h : { s with queue, clock := e.time, receiver }.perform .receiver actions = .ok s' := by
    simpa only [handle, SendingSide.ends, hreact] using h
  obtain ⟨t, posts, hsituation, hlinks, hpackets, hposts, hc⟩ :=
    exists_conveyed_of_perform (by exact hv) h
  obtain ⟨-, sent, timers⟩ := hB.answer hr hp hreact
  rw [sent] at hposts
  obtain ⟨⟨-, w⟩, rfl, rfl⟩ := List.map_eq_singleton_iff.mp hposts
  simp only [carryOut, timers, List.foldl_nil] at hsituation
  refine ⟨receiver, actions, t, w, rfl, ?_, tally_of_deliveries hlinks hpackets, hc⟩
  rw [hsituation]
  rfl

end LossyLink
