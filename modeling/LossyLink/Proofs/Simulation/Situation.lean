import LossyLink.Proofs.Packet.Damage
import LossyLink.Proofs.Simulation.Ledger

/-! # Situations

What decides how a simulation goes on, once the random choices, the drop rules and
the records are forgotten: the two ends, the clock, the queue and the timers. Of a
packet only this remains, that the channel drops it or lets a copy arrive after a
latency within its bounds, damaged or not. Every step of a simulation is a step
of its situation.
-/

namespace LossyLink

theorem Happening.stimulus_ne_init (w : Happening) : w.stimulus ≠ .init := by
  cases w <;> simp [Happening.stimulus]

structure Situation (σ ρ : Type) where
  config : Config
  sender : σ
  receiver : ρ
  clock : Nat
  queue : Queue
  generations : Generations
  delivered : List Payload

variable {σ ρ : Type}

def Simulation.situation (s : Simulation σ ρ) : Situation σ ρ where
  config := s.config
  sender := s.sender
  receiver := s.receiver
  clock := s.clock
  queue := s.queue
  generations := s.generations
  delivered := s.delivered.toList

namespace Situation

variable {ends : Ends σ ρ} {c c' c'' : Situation σ ρ} {node : Node} {p : Packet}

def enqueue (c : Situation σ ρ) (time : Nat) (what : Happening) : Situation σ ρ :=
  { c with queue := c.queue.schedule time what }

def timer (c : Situation σ ρ) (node : Node) : TimerOp → Situation σ ρ
  | .cancel id => { c with generations := c.generations.bump (node, id) }
  | .start delay id =>
    let generations := c.generations.bump (node, id)
    { c with generations }.enqueue (c.clock + delay)
      (.expiry node id (generations.get (node, id)))

/-- The part of an answer that leaves nothing to chance: deliveries and timers. -/
def carryOut (c : Situation σ ρ) (node : Node) (actions : List Action) : Situation σ ρ :=
  (actions.filterMap Action.timer?).foldl (fun c op => c.timer node op)
    { c with delivered := c.delivered ++ actions.filterMap Action.delivered? }

theorem timers_frame (ops : List TimerOp) (node : Node) (c : Situation σ ρ) :
    ∃ queue generations,
      ops.foldl (fun c op => c.timer node op) c = { c with queue, generations } := by
  induction ops generalizing c with
  | nil => exact ⟨c.queue, c.generations, rfl⟩
  | cons op ops ih =>
    obtain ⟨queue, generations, h⟩ := ih (c.timer node op)
    exact ⟨queue, generations, by rw [List.foldl_cons, h]; cases op <;> rfl⟩

theorem carryOut_frame (c : Situation σ ρ) (node : Node) (actions : List Action) :
    ∃ queue generations, c.carryOut node actions = { c with
      queue, generations, delivered := c.delivered ++ actions.filterMap Action.delivered? } :=
  timers_frame _ _ _

/-- What the channel may make of a packet. -/
inductive Carried (node : Node) (p : Packet) (c : Situation σ ρ) : Situation σ ρ → Prop where
  | dropped : Carried node p c c
  | sent {q : Packet} {latency : Nat} (hq : p.IsCopy q)
      (hmin : c.config.minLatency ≤ latency) (hmax : latency ≤ c.config.maxLatency) :
      Carried node p c (c.enqueue (c.clock + latency) (.arrival node.peer q))

theorem Carried.frame (h : Carried node p c c') : ∃ queue, c' = { c with queue } := by
  cases h with
  | dropped => exact ⟨c.queue, rfl⟩
  | sent => exact ⟨_, rfl⟩

inductive CarriedAll (node : Node) :
    List Packet → Situation σ ρ → Situation σ ρ → Prop where
  | nil {c : Situation σ ρ} : CarriedAll node [] c c
  | cons {p : Packet} {ps : List Packet} {c c' c'' : Situation σ ρ}
      (h : Carried node p c c') (hs : CarriedAll node ps c' c'') :
      CarriedAll node (p :: ps) c c''

theorem CarriedAll.frame {ps : List Packet} (h : CarriedAll node ps c c') :
    ∃ queue, c' = { c with queue } := by
  induction h with
  | @nil c => exact ⟨c.queue, rfl⟩
  | cons h _ ih =>
    obtain ⟨queue, rfl⟩ := ih
    obtain ⟨queue', rfl⟩ := h.frame
    exact ⟨queue, rfl⟩

@[simp] theorem carriedAll_nil : CarriedAll node [] c c' ↔ c' = c :=
  ⟨fun h => by cases h; rfl, fun h => h ▸ .nil⟩

@[simp] theorem carriedAll_singleton : CarriedAll node [p] c c' ↔ Carried node p c c' := by
  constructor
  · intro h
    obtain _ | ⟨h, hs⟩ := h
    exact carriedAll_nil.mp hs ▸ h
  · exact fun h => .cons h .nil

/-- An end answers an event, and its answer is carried out. -/
inductive Handled (ends : Ends σ ρ) (x : Stimulus) (c : Situation σ ρ) :
    Node → Situation σ ρ → Prop where
  | sender {sender : σ} {actions : List Action} {c' : Situation σ ρ}
      (h : ends.sender.react c.clock x c.sender = (sender, actions))
      (hc : CarriedAll .sender (actions.filterMap Action.sent?)
        ({ c with sender }.carryOut .sender actions) c') : Handled ends x c .sender c'
  | receiver {receiver : ρ} {actions : List Action} {c' : Situation σ ρ}
      (h : ends.receiver.react c.clock x c.receiver = (receiver, actions))
      (hc : CarriedAll .receiver (actions.filterMap Action.sent?)
        ({ c with receiver }.carryOut .receiver actions) c') : Handled ends x c .receiver c'

theorem Handled.sender_frame {x : Stimulus} (h : Handled ends x c .sender c') :
    ∃ queue generations delivered, c' = { c with
      sender := (ends.sender.react c.clock x c.sender).1, queue, generations, delivered } := by
  obtain ⟨hr, hc⟩ := h
  rename_i s' actions
  obtain ⟨queue, rfl⟩ := hc.frame
  obtain ⟨queue', generations, hf⟩ := carryOut_frame { c with sender := s' } .sender actions
  exact ⟨queue, generations, _, by rw [hf, hr]⟩

theorem Handled.receiver_frame {x : Stimulus} (h : Handled ends x c .receiver c') :
    ∃ queue generations delivered, c' = { c with
      receiver := (ends.receiver.react c.clock x c.receiver).1, queue, generations,
      delivered } := by
  obtain ⟨-, -⟩ | ⟨hr, hc⟩ := h
  rename_i r' actions
  obtain ⟨queue, rfl⟩ := hc.frame
  obtain ⟨queue', generations, hf⟩ := carryOut_frame { c with receiver := r' } .receiver actions
  exact ⟨queue, generations, _, by rw [hf, hr]⟩

theorem Handled.config_eq {x : Stimulus} (h : Handled ends x c node c') :
    c'.config = c.config := by
  cases node with
  | sender => obtain ⟨queue, generations, delivered, rfl⟩ := h.sender_frame; rfl
  | receiver => obtain ⟨queue, generations, delivered, rfl⟩ := h.receiver_frame; rfl

/-- What new states of the ends, deliveries, timers and packets all keep is kept by an answer. -/
theorem Handled.invariant {P : Situation σ ρ → Prop} {x : Stimulus}
    (hends : ∀ {d} sender receiver delivered, P d → P { d with sender, receiver, delivered })
    (htimer : ∀ {d} op, P d → P (d.timer node op))
    (hcarried : ∀ {d d' p}, P d → Carried node p d d' → P d')
    (h : Handled ends x c node c') (hc : P c) : P c' := by
  have htimers : ∀ (ops : List TimerOp) (d : Situation σ ρ), P d →
      P (ops.foldl (fun d op => d.timer node op) d) := by
    intro ops
    induction ops with
    | nil => exact fun _ hd => hd
    | cons op ops ih => exact fun _ hd => ih _ (htimer op hd)
  have hcarriedAll : ∀ {ps d d'}, CarriedAll node ps d d' → P d → P d' := by
    intro ps d d' hps
    induction hps with
    | nil => exact id
    | cons hp _ ih => exact fun hd => ih (hcarried hd hp)
  cases h with
  | @sender sender _ _ _ hsent =>
    have hs : P { c with sender } := hends sender c.receiver c.delivered hc
    exact hcarriedAll hsent (htimers _ _ (hends _ _ _ hs))
  | @receiver receiver _ _ _ hsent =>
    have hr : P { c with receiver } := hends c.sender receiver c.delivered hc
    exact hcarriedAll hsent (htimers _ _ (hends _ _ _ hr))

def isStale (c : Situation σ ρ) (e : Event) : Bool :=
  match e.what with
  | .expiry node id generation => c.generations.get (node, id) != generation
  | .arrival .. => false
  | .submission _ => false

/-- The situation when an event has been taken from the queue. -/
def reach (c : Situation σ ρ) (e : Event) (queue : Queue) : Situation σ ρ :=
  { c with queue, clock := e.time }

section Reach

variable (c : Situation σ ρ) (e : Event) (q : Queue)

@[simp] theorem config_reach : (c.reach e q).config = c.config := rfl

@[simp] theorem sender_reach : (c.reach e q).sender = c.sender := rfl

@[simp] theorem receiver_reach : (c.reach e q).receiver = c.receiver := rfl

@[simp] theorem clock_reach : (c.reach e q).clock = e.time := rfl

@[simp] theorem queue_reach : (c.reach e q).queue = q := rfl

@[simp] theorem generations_reach : (c.reach e q).generations = c.generations := rfl

@[simp] theorem delivered_reach : (c.reach e q).delivered = c.delivered := rfl

end Reach

inductive Step (ends : Ends σ ρ) (c : Situation σ ρ) : Outcome → Situation σ ρ → Prop where
  | drained (h : c.queue.toList = []) : Step ends c .drained c
  | stale {e : Event} {queue : Queue} (h : c.queue.pop? = some (e, queue))
      (hs : c.isStale e = true) : Step ends c (.stale e) { c with queue }
  | handled {e : Event} {queue : Queue} {c' : Situation σ ρ}
      (h : c.queue.pop? = some (e, queue)) (hs : c.isStale e = false)
      (hc : Handled ends e.what.stimulus (c.reach e queue) e.what.node c') :
      Step ends c (.handled e) c'

theorem Step.config_eq {o : Outcome} (h : Step ends c o c') : c'.config = c.config := by
  cases h with
  | drained => rfl
  | stale => rfl
  | handled _ _ hc => exact hc.config_eq

end Situation

namespace Simulation

open Situation

variable {ends : Ends σ ρ} {s s' : Simulation σ ρ} {node : Node} {x : Stimulus}

theorem situation_after {delay : Nat} {what : Happening} (h : s.after delay what = .ok s') :
    s'.situation = s.situation.enqueue (s.clock + delay) what := by
  rw [after_eq_ok h]
  rfl

theorem situation_countSent (s : Simulation σ ρ) (node : Node) :
    (s.countSent node).situation = s.situation := by
  cases node <;> rfl

theorem situation_carry {p : Packet} (hv : s.config.minLatency ≤ s.config.maxLatency)
    (h : s.carry node p = .ok s') : Carried node p s.situation s'.situation := by
  have hl : ∀ {damaged latency}, (s.config.drawFate s.generator).1 = .arrives damaged latency →
      s.config.minLatency ≤ latency ∧ latency ≤ s.config.maxLatency :=
    Config.latency_of_drawFate hv
  simp only [carry] at h
  split at h
  · cases h; exact .dropped
  · split at h
    · cases h; exact .dropped
    · rename_i hf
      rw [situation_after h]
      exact .sent (.inr rfl) (hl hf).1 (hl hf).2
    · rename_i hf
      rw [situation_after h]
      exact .sent (.inl rfl) (hl hf).1 (hl hf).2

theorem situation_transmit {p : Packet} (hv : s.config.minLatency ≤ s.config.maxLatency)
    (h : s.transmit node p = .ok s') : Carried node p s.situation s'.situation := by
  rw [← situation_countSent s node]
  exact situation_carry (by cases node <;> exact hv) h

theorem situation_timer {op : TimerOp} (h : s.timer node op = .ok s') :
    s'.situation = s.situation.timer node op := by
  cases op with
  | start delay id => exact situation_after h
  | cancel id => cases h; rfl

theorem situation_timers {ops : List TimerOp}
    (h : ops.foldlM (fun s op => s.timer node op) s = .ok s') :
    s'.situation = ops.foldl (fun c op => c.timer node op) s.situation := by
  induction ops generalizing s with
  | nil => cases h; rfl
  | cons op ops ih =>
    rw [List.foldlM_cons] at h
    obtain ⟨t, ht, h⟩ := exists_of_bind_eq_ok h
    rw [ih h, situation_timer ht, List.foldl_cons]

theorem situation_transmits {ps : List Packet}
    (hv : s.config.minLatency ≤ s.config.maxLatency)
    (h : ps.foldlM (fun s p => s.transmit node p) s = .ok s') :
    CarriedAll node ps s.situation s'.situation := by
  induction ps generalizing s with
  | nil => cases h; exact .nil
  | cons p ps ih =>
    rw [List.foldlM_cons] at h
    obtain ⟨t, ht, h⟩ := exists_of_bind_eq_ok h
    have hc := situation_transmit hv ht
    obtain ⟨queue, ht⟩ := hc.frame
    have hconfig : t.config = s.config := congrArg Situation.config ht
    exact .cons hc (ih (hconfig ▸ hv) h)

theorem situation_foldl {α : Type} {f : Simulation σ ρ → α → Simulation σ ρ}
    (hf : ∀ s a, (f s a).situation = s.situation) (xs : List α) (s : Simulation σ ρ) :
    (xs.foldl f s).situation = s.situation := by
  induction xs generalizing s with
  | nil => rfl
  | cons x xs ih => rw [List.foldl_cons, ih, hf]

theorem situation_delivers (xs : List Payload) (s : Simulation σ ρ) :
    (xs.foldl (fun s data => s.deliver node data) s).situation =
      { s.situation with delivered := s.situation.delivered ++ xs } := by
  induction xs generalizing s with
  | nil => simp
  | cons x xs ih =>
    rw [List.foldl_cons, ih]
    simp [situation, deliver, link, notify]

/-- The part of an answer that is only recorded: metrics, logs and deliveries. -/
def record (s : Simulation σ ρ) (node : Node) (actions : List Action) : Simulation σ ρ :=
  let s := (actions.filterMap Action.metric?).foldl (fun s m => s.sample m.1 m.2) s
  let s := (actions.filterMap Action.log?).foldl (fun s text => s.notify (.ofNode node text)) s
  (actions.filterMap Action.delivered?).foldl (fun s data => s.deliver node data) s

theorem situation_record (s : Simulation σ ρ) (node : Node) (actions : List Action) :
    (s.record node actions).situation = { s.situation with
      delivered := s.situation.delivered ++ actions.filterMap Action.delivered? } := by
  have hsamples : ∀ (metrics : List (String × Float)) (t : Simulation σ ρ),
      (metrics.foldl (fun s m => s.sample m.1 m.2) t).situation = t.situation :=
    situation_foldl fun _ _ => rfl
  have hlogs : ∀ (texts : List String) (t : Simulation σ ρ),
      (texts.foldl (fun s text => s.notify (.ofNode node text)) t).situation = t.situation :=
    situation_foldl fun _ _ => rfl
  rw [record, situation_delivers, hlogs, hsamples]

theorem ledger_record (s : Simulation σ ρ) (node : Node) (actions : List Action) :
    (s.record node actions).ledger = s.ledger := by
  have hsamples : ∀ (metrics : List (String × Float)) (t : Simulation σ ρ),
      (metrics.foldl (fun s m => s.sample m.1 m.2) t).ledger = t.ledger :=
    ledger_foldl fun _ _ => rfl
  have hlogs : ∀ (texts : List String) (t : Simulation σ ρ),
      (texts.foldl (fun s text => s.notify (.ofNode node text)) t).ledger = t.ledger :=
    ledger_foldl fun _ _ => rfl
  rw [record, ledger_foldl fun s data => ledger_deliver s node data, hlogs, hsamples]

theorem perform_eq (s : Simulation σ ρ) (node : Node) (actions : List Action) :
    s.perform node actions =
      (actions.filterMap Action.timer?).foldlM (fun s op => s.timer node op)
        (s.record node actions) >>= fun t =>
          (actions.filterMap Action.sent?).foldlM (fun s p => s.transmit node p) t := rfl

/-- What an answer leaves to chance are its packets alone. -/
theorem perform_eq_ok {actions : List Action} (h : s.perform node actions = .ok s') :
    ∃ t : Simulation σ ρ, t.situation = s.situation.carryOut node actions ∧
      t.ledger = s.ledger ∧
      (actions.filterMap Action.sent?).foldlM (fun s p => s.transmit node p) t = .ok s' := by
  rw [perform_eq] at h
  obtain ⟨t, ht, h⟩ := exists_of_bind_eq_ok h
  refine ⟨t, ?_, (ledger_timers ht).trans (ledger_record s node actions), h⟩
  rw [situation_timers ht, situation_record]
  rfl

theorem situation_perform {actions : List Action}
    (hv : s.config.minLatency ≤ s.config.maxLatency)
    (h : s.perform node actions = .ok s') :
    CarriedAll node (actions.filterMap Action.sent?) (s.situation.carryOut node actions)
      s'.situation := by
  obtain ⟨t, ht, -, hsent⟩ := perform_eq_ok h
  have hconfig : t.config = s.config := by
    obtain ⟨queue, generations, hf⟩ := carryOut_frame s.situation node actions
    exact congrArg Situation.config (ht.trans hf)
  exact ht ▸ situation_transmits (hconfig ▸ hv) hsent

theorem situation_handle (hv : s.config.minLatency ≤ s.config.maxLatency)
    (h : s.handle ends node x = .ok s') : Handled ends x s.situation node s'.situation := by
  unfold handle at h
  cases node with
  | sender => exact .sender rfl (situation_perform (s := { s with sender := _ }) hv h)
  | receiver => exact .receiver rfl (situation_perform (s := { s with receiver := _ }) hv h)

/-- What a step can do. -/
theorem step_eq_ok {o : Outcome} (h : s.step ends = .ok (o, s')) :
    (s.queue.pop? = none ∧ o = .drained ∧ s' = s) ∨
    (∃ e queue, s.queue.pop? = some (e, queue) ∧ s.isStale e = true ∧ o = .stale e ∧
      s' = { s with queue }) ∨
    ∃ e queue, s.queue.pop? = some (e, queue) ∧ s.isStale e = false ∧ o = .handled e ∧
      { s with queue, clock := e.time }.handle ends e.what.node e.what.stimulus = .ok s' := by
  unfold step at h
  split at h
  · rename_i hq
    cases h
    exact .inl ⟨hq, rfl, rfl⟩
  · rename_i e queue hq
    simp only at h
    split at h
    · rename_i hs
      cases h
      exact .inr (.inl ⟨e, queue, hq, hs, rfl, rfl⟩)
    · rename_i hs
      split at h
      · rename_i t ht
        cases h
        exact .inr (.inr ⟨e, queue, hq, Bool.not_eq_true _ ▸ hs, rfl, ht⟩)
      · cases h

theorem situation_step {o : Outcome} (hv : s.config.minLatency ≤ s.config.maxLatency)
    (h : s.step ends = .ok (o, s')) : Step ends s.situation o s'.situation := by
  rcases step_eq_ok h with ⟨hq, rfl, rfl⟩ | ⟨e, queue, hq, hs, rfl, rfl⟩ |
    ⟨e, queue, hq, hs, rfl, ht⟩
  · exact .drained (Queue.pop?_eq_none_iff.mp hq)
  · exact .stale hq hs
  · exact .handled hq hs (situation_handle (s := { s with queue, clock := e.time }) hv ht)

end Simulation

end LossyLink
