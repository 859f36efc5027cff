import LossyLink.Proofs.Simulation.Posting
import LossyLink.Proofs.Simulation.Submission
import LossyLink.Proofs.StopAndWait.Delivery
import Mathlib.Algebra.GroupWithZero.Nat

/-! # What a message costs

On a channel without random faults, fast beside the timer, every packet under way either
arrives as it was sent or falls to a drop rule, and then one timeout makes up for it.
So each step can be paid from a budget that the plan fixes: four events for a message
and two for a rule. The packets of the sender are counted on the way.
-/

namespace LossyLink

variable {σ ρ : Type} {F : Format}

/-- The events that may still come of something that waits, itself included. -/
def Happening.cost : Happening → Nat
  | .arrival .receiver _ => 2
  | .arrival .sender _ => 1
  | .expiry .. => 1
  | .submission _ => 4

theorem Happening.cost_pos (w : Happening) : 0 < w.cost := by
  rcases w with ⟨_ | _, _⟩ | _ | _ <;> exact Nat.succ_pos _

def Queue.cost (q : Queue) : Nat := (q.toList.map fun e => e.what.cost).sum

theorem Queue.cost_schedule (q : Queue) (time : Nat) (what : Happening) :
    (q.schedule time what).cost = what.cost + q.cost := by
  unfold cost
  rw [toList_schedule, ((Event.insert_perm _ _).map _).sum_nat]
  rfl

theorem Queue.cost_of_pop?_eq_some {q q' : Queue} {e : Event} (h : q.pop? = some (e, q')) :
    q.cost = e.what.cost + q'.cost := by
  unfold cost
  rw [toList_of_pop?_eq_some h]
  rfl

theorem Queue.isEmpty_of_cost_eq_zero {q : Queue} (h : q.cost = 0) : q.isEmpty = true := by
  refine isEmpty_iff.mpr ?_
  unfold cost at h
  cases hq : q.toList with
  | nil => rfl
  | cons e es =>
    have hpos := e.what.cost_pos
    rw [hq, List.map_cons, List.sum_cons] at h
    omega

/-- What undamaged packets achieve. -/
structure SendingSide.Faithful (A : SendingSide F σ) (B : ReceivingSide F ρ) : Prop where
  accepts : ∀ {s x}, x.submission? = none → A.accepted? s x = none
  confirms : ∀ {s}, A.Sound s → (A.current s).isSome →
    A.confirms s (.packet (F.ack (A.bit s))) = true
  expected : ∀ {now r b m r' actions}, B.Sound r →
    B.endpoint.react now (.packet (F.data b m)) r = (r', actions) → B.expected r' = b.flip

namespace Situation

variable {A : SendingSide F σ} {B : ReceivingSide F ρ} {c c' : Situation σ ρ}
  {log : List (σ × Stimulus)}

/-- Only undamaged copies of the message under way and of its acknowledgement are on
their way. -/
structure Exact (A : SendingSide F σ) (c : Situation σ ρ) : Prop where
  data : ∀ a ∈ c.queue.arrivals, ∀ p, a.what = .arrival .receiver p →
    ∃ m, A.current c.sender = some m ∧ p = F.data (A.bit c.sender) m
  acks : ∀ a ∈ c.queue.arrivals, ∀ p, a.what = .arrival .sender p → p = F.ack (A.bit c.sender)

/-- A message is under way and nothing of it on its way: the timeout has to bring it on. -/
def owed (A : SendingSide F σ) (c : Situation σ ρ) : Nat :=
  ((A.current c.sender).isSome && c.queue.arrivals.isEmpty).toNat

/-- The accounts of a run agree. -/
structure Balanced (A : SendingSide F σ) (rules : Nat) (log : List (σ × Stimulus))
    (c : Situation σ ρ) (l : Ledger) : Prop where
  exact : c.Exact A
  packets : l.senderPackets + c.owed A + (A.backlog c.sender).length =
    (A.admitted log).length + l.drops
  rules : l.drops + l.rules = rules

/-- The steps that are left at most. -/
def budget (A : SendingSide F σ) (c : Situation σ ρ) (l : Ledger) : Nat :=
  c.queue.cost + 3 * (A.backlog c.sender).length + 2 * l.rules + 3 * c.owed A

theorem exact_of_nil (h : c.queue.arrivals = []) : c.Exact A := by
  constructor <;> simp [h]

theorem Exact.congr (h : c.Exact A) (hcurrent : A.current c'.sender = A.current c.sender)
    (hbit : A.bit c'.sender = A.bit c.sender) (ha : c'.queue.arrivals = c.queue.arrivals) :
    c'.Exact A := by
  constructor
  · rw [hcurrent, hbit, ha]
    exact h.data
  · rw [hbit, ha]
    exact h.acks

theorem owed_congr (hcurrent : A.current c'.sender = A.current c.sender)
    (ha : c'.queue.arrivals = c.queue.arrivals) : c'.owed A = c.owed A := by
  rw [owed, owed, hcurrent, ha]

theorem owed_of_none (h : A.current c.sender = none) : c.owed A = 0 := by
  simp [owed, h]

theorem owed_of_mem {a : Event} (h : a ∈ c.queue.arrivals) : c.owed A = 0 := by
  have hne : c.queue.arrivals.isEmpty = false := by
    rw [List.isEmpty_eq_false_iff]
    exact List.ne_nil_of_mem h
  simp [owed, hne]

theorem owed_of_nil (hw : (A.current c.sender).isSome) (h : c.queue.arrivals = []) :
    c.owed A = 1 := by
  simp [owed, hw, h]

end Situation

open Situation Simulation

variable {A : SendingSide F σ} {B : ReceivingSide F ρ} {s s' t : Simulation σ ρ}
  {log : List (σ × Stimulus)} {node : Node} {p : Packet} {e : Event} {queue : Queue}

/-- A packet that is posted alone either arrives or has to be made up for. -/
theorem Simulation.Posted.account (h : Posted node p t s') (hnil : t.queue.arrivals = [])
    (hw : (A.current t.sender).isSome) :
    s'.ledger.senderPackets = t.ledger.senderPackets + node.senderPackets ∧
      s'.ledger.drops = t.ledger.drops + s'.situation.owed A ∧
      s'.ledger.drops + s'.ledger.rules = t.ledger.drops + t.ledger.rules ∧
      s'.queue.cost + 2 * s'.ledger.rules + 3 * s'.situation.owed A ≤
        t.queue.cost + 2 * t.ledger.rules + (Happening.arrival node.peer p).cost := by
  have hpos := (Happening.arrival node.peer p).cost_pos
  cases h with
  | dropped situation senderPackets drops rules =>
    have howed : s'.situation.owed A = 1 := by
      rw [situation]
      exact owed_of_nil hw hnil
    have hcost : s'.queue.cost = t.queue.cost :=
      congrArg (fun c : Situation σ ρ => c.queue.cost) situation
    omega
  | sent le situation senderPackets drops rules =>
    have hcost : s'.queue.cost = (Happening.arrival node.peer p).cost + t.queue.cost :=
      (congrArg (fun c : Situation σ ρ => c.queue.cost) situation).trans
        (Queue.cost_schedule _ _ _)
    have howed : s'.situation.owed A = 0 := by
      rw [situation]
      exact owed_of_mem (Queue.arrivals_schedule_of_nil hnil ▸ List.mem_cons_self)
    omega

theorem Simulation.Posted.arrivals (h : Posted node p t s') (hnil : t.queue.arrivals = []) :
    s'.situation.sender = t.sender ∧ s'.situation.receiver = t.receiver ∧
      ∀ a ∈ s'.situation.queue.arrivals, a.what = .arrival node.peer p := by
  cases h with
  | dropped situation =>
    rw [situation]
    exact ⟨rfl, rfl, fun a ha => absurd (hnil ▸ ha) List.not_mem_nil⟩
  | sent le situation =>
    rw [situation]
    refine ⟨rfl, rfl, fun a ha => ?_⟩
    have ha : a ∈ [_] := (Queue.arrivals_schedule_of_nil hnil) ▸ ha
    rw [List.mem_singleton.mp ha]

theorem Simulation.Posted.mem_queue (h : Posted node p t s') {a : Event}
    (ha : a ∈ s'.queue.toList) : a ∈ t.queue.toList ∨ a.time ≤ t.clock + t.config.maxLatency := by
  cases h with
  | dropped situation =>
    have hqueue : s'.queue = t.queue := congrArg (fun c : Situation σ ρ => c.queue) situation
    exact .inl (hqueue ▸ ha)
  | sent le situation =>
    have hqueue : s'.queue = _ := congrArg (fun c : Situation σ ρ => c.queue) situation
    rcases Queue.mem_schedule.mp (hqueue ▸ ha) with rfl | ha
    · exact .inr (Nat.add_le_add_left le _)
    · exact .inl ha

/-- A run on a channel without random faults that is fast beside the timer, with its
accounts: so many messages, and so many rules to drop packets. -/
structure Budgeted (A : SendingSide F σ) (B : ReceivingSide F ρ) (messages rules : Nat)
    (log : List (σ × Stimulus)) (s : Simulation σ ρ) : Prop where
  faultless : s.config.Faultless
  latency : s.config.minLatency ≤ s.config.maxLatency
  running : Running A B log s.situation
  solitary : s.situation.Solitary A
  balanced : s.situation.Balanced A rules log s.ledger
  messages : (A.admitted log).length + s.queue.submissions.length ≤ messages

variable {messages rules : Nat} {s₁ : σ}

theorem Budgeted.packets (h : Budgeted A B messages rules log s) :
    s.ledger.senderPackets + s.situation.owed A + (A.backlog s.sender).length =
      (A.admitted log).length + s.ledger.drops := h.balanced.packets

/-- What an event that counts brings the sender, by its kind: a submission, the
acknowledgement of the message under way, or its timeout. -/
theorem Budgeted.sender_account (hF : A.Faithful B) (h : Budgeted A B messages rules log s)
    (hq : s.queue.pop? = some (e, queue)) (hst : s.isStale e = false)
    (hn : e.what.node = .sender) (hc : A.Change s.sender e.what.stimulus s₁) :
    (e.what.cost = 4 ∧ e.isArrival = false ∧ (∃ data, e.what.stimulus = .app data) ∧
      (A.current s₁).toList.length + (A.backlog s₁).length =
        (A.current s.sender).toList.length + (A.backlog s.sender).length +
          (A.accepted? s.sender e.what.stimulus).toList.length) ∨
    (e.what.cost = 1 ∧ e ∈ s.queue.arrivals ∧ (∃ p, e.what.stimulus = .packet p) ∧
      A.bit s₁ ≠ A.bit s.sender ∧ A.accepted? s.sender e.what.stimulus = none ∧
      (A.current s₁).toList.length + (A.backlog s₁).length = (A.backlog s.sender).length) ∨
    (e.what.cost = 1 ∧ e.isArrival = false ∧ (∃ id, e.what.stimulus = .timer id) ∧
      (A.current s.sender).isSome ∧ A.accepted? s.sender e.what.stimulus = none ∧
      (A.current s₁).toList.length + (A.backlog s₁).length =
        (A.current s.sender).toList.length + (A.backlog s.sender).length) := by
  have hmem : e ∈ s.queue.toList := Queue.first_mem_of_pop?_eq_some hq
  cases hw : e.what with
  | submission data =>
    refine .inl ⟨rfl, by simp [Event.isArrival, hw], ⟨data, rfl⟩, ?_⟩
    rw [hw] at hc
    cases hc with
    | stay bit current backlog confirms =>
      simpa only [List.length_append] using congrArg List.length backlog
    | advance packet => cases packet
  | expiry node id generation =>
    obtain rfl : node = .sender := by rw [hw] at hn; exact hn
    have hp : s.situation.Pending (.sender, id) e := pending_of_not_stale hmem hw hst
    refine .inr (.inr ⟨rfl, by simp [Event.isArrival, hw], ⟨id, rfl⟩,
      (h.running.ticking.eq_of_pending hp).1, hF.accepts rfl, ?_⟩)
    rw [hw] at hc
    cases hc with
    | stay bit current backlog confirms =>
      rw [hF.accepts rfl, Option.toList_none, List.append_nil] at backlog
      simpa only [List.length_append] using congrArg List.length backlog
    | advance packet => cases packet
  | arrival node p =>
    obtain rfl : node = .sender := by rw [hw] at hn; exact hn
    have harrival : e ∈ s.queue.arrivals :=
      Queue.mem_arrivals hmem hw
    have hwait : (A.current s.sender).isSome := by
      refine Option.isSome_iff_ne_none.mpr fun hnone => ?_
      exact List.ne_nil_of_mem harrival (h.solitary.idle hnone)
    obtain rfl : p = F.ack (A.bit s.sender) := h.balanced.exact.acks e harrival p hw
    have hconfirms := hF.confirms h.running.sound.sender hwait
    rw [hw] at hc
    refine .inr (.inl ⟨rfl, harrival, ⟨_, rfl⟩, ?_⟩)
    cases hc with
    | stay bit current backlog confirms => cases hconfirms.symm.trans confirms
    | advance packet ack waiting bit backlog accepted confirms =>
      refine ⟨bit ▸ SeqBit.flip_ne _, accepted, ?_⟩
      simpa only [List.length_append] using congrArg List.length backlog

/-- The accounts agree after a step, the step has been paid, and what waits then is due
by one timeout later than before if a packet was sent, and else no later than before. -/
structure Paid (A : SendingSide F σ) (rules : Nat) (log : List (σ × Stimulus))
    (s s' : Simulation σ ρ) : Prop where
  balanced : s'.situation.Balanced A rules log s'.ledger
  lt : s'.situation.budget A s'.ledger < s.situation.budget A s.ledger
  late : ∀ a ∈ s'.queue.toList, ∃ d ∈ s.queue.toList,
    a.time + A.timeout * s.ledger.senderPackets ≤ d.time + A.timeout * s'.ledger.senderPackets

theorem paid_of_eq (hs : s'.sender = s₁) (exact : s'.situation.Exact A)
    (packets : s'.ledger.senderPackets + s'.situation.owed A + (A.backlog s₁).length =
      (A.admitted log).length + s'.ledger.drops)
    (hrules : s'.ledger.drops + s'.ledger.rules = rules)
    (lt : s'.queue.cost + 3 * (A.backlog s₁).length + 2 * s'.ledger.rules +
        3 * s'.situation.owed A <
      s.queue.cost + 3 * (A.backlog s.sender).length + 2 * s.ledger.rules +
        3 * s.situation.owed A)
    (late : ∀ a ∈ s'.queue.toList, ∃ d ∈ s.queue.toList,
      a.time + A.timeout * s.ledger.senderPackets ≤
        d.time + A.timeout * s'.ledger.senderPackets) : Paid A rules log s s' := by
  subst hs
  exact ⟨⟨exact, packets, hrules⟩, lt, late⟩

theorem late_of_pop? (hq : s.queue.pop? = some (e, queue)) (hqueue : s'.queue = queue)
    (hl : s'.ledger = s.ledger) : ∀ a ∈ s'.queue.toList, ∃ d ∈ s.queue.toList,
      a.time + A.timeout * s.ledger.senderPackets ≤
        d.time + A.timeout * s'.ledger.senderPackets := by
  intro a ha
  exact ⟨a, Queue.mem_of_mem_rest hq (hqueue ▸ ha),
    Nat.le_of_eq (by rw [hl])⟩

theorem exists_emission_of_handle {x : Stimulus} (hA : A.Lawful) (hs : A.Sound s.sender)
    (hx : x ≠ .init)
    (h : { s with queue, clock := e.time }.handle (A.ends B) .sender x = .ok s') :
    ∃ (s₁ : σ) (t : Simulation σ ρ) (ps : List Packet), A.Change s.sender x s₁ ∧
      Emission A x (s.situation.reach e queue) s₁ t.situation ps ∧ t.ledger = s.ledger ∧
      ps.foldlM (fun s p => s.transmit .sender p) t = .ok s' := by
  obtain ⟨t, ht, hledger, hsent⟩ :=
    perform_eq_ok (s := { s with queue, clock := e.time, sender := _ }) h
  obtain ⟨-, hchange, hemission⟩ :=
    emission_of_react (c := s.situation.reach e queue) hA hs hx rfl
  exact ⟨_, t, _, hchange, ht ▸ hemission, hledger, hsent⟩

theorem Budgeted.silent (hF : A.Faithful B) (h : Budgeted A B messages rules log s)
    (hq : s.queue.pop? = some (e, queue)) (hst : s.isStale e = false) (hn : e.what.node = .sender)
    (hc : A.Change s.sender e.what.stimulus s₁) (bit : A.bit s₁ = A.bit s.sender)
    (current : A.current s₁ = A.current s.sender)
    (hs : s'.situation = { s.situation.reach e queue with sender := s₁ })
    (hl : s'.ledger = s.ledger) :
    Paid A rules (log ++ [(s.sender, e.what.stimulus)]) s s' := by
  have harrivals := Queue.arrivals_of_pop?_eq_some hq
  have hcost := Queue.cost_of_pop?_eq_some hq
  have hpackets := h.packets
  obtain ⟨harrival, hcount, hlt⟩ : e.isArrival = false ∧
      (A.backlog s₁).length = (A.backlog s.sender).length +
        (A.accepted? s.sender e.what.stimulus).toList.length ∧
      3 * (A.accepted? s.sender e.what.stimulus).toList.length < e.what.cost := by
    have hle : (A.accepted? s.sender e.what.stimulus).toList.length ≤ 1 :=
      Option.length_toList_le
    rcases h.sender_account hF hq hst hn hc with ⟨hk, ha, -, hcount⟩ | ⟨-, -, -, hne, -⟩ |
      ⟨hk, ha, -, -, hacc, hcount⟩
    · rw [current] at hcount
      exact ⟨ha, by omega, by omega⟩
    · exact absurd bit hne
    · rw [current] at hcount
      simp only [hacc, Option.toList_none, List.length_nil]
      exact ⟨ha, by omega, by omega⟩
  rw [harrival] at harrivals
  have hqueue : s'.queue = queue := congrArg Situation.queue hs
  have hsender : s'.sender = s₁ := congrArg Situation.sender hs
  have harrivals' : s'.queue.arrivals = s.queue.arrivals := hqueue ▸ harrivals.symm
  have hcurrent : A.current s'.sender = A.current s.sender := hsender ▸ current
  have howed : s'.situation.owed A = s.situation.owed A := owed_congr hcurrent harrivals'
  refine paid_of_eq hsender ?_ ?_ (hl ▸ h.balanced.rules) ?_ (late_of_pop? hq hqueue hl)
  · exact h.balanced.exact.congr hcurrent (congrArg A.bit hsender |>.trans bit) harrivals'
  · rw [hl, howed, A.admitted_append, List.length_append]
    omega
  · rw [hl, howed, hqueue]
    omega

theorem Budgeted.released (hF : A.Faithful B) (h : Budgeted A B messages rules log s)
    (hq : s.queue.pop? = some (e, queue)) (hst : s.isStale e = false) (hn : e.what.node = .sender)
    (hc : A.Change s.sender e.what.stimulus s₁) (packet : e.what.stimulus = .packet p)
    (current : A.current s₁ = none) {g : Generations}
    (hs : s'.situation = { s.situation.reach e queue with sender := s₁, generations := g })
    (hl : s'.ledger = s.ledger) :
    Paid A rules (log ++ [(s.sender, e.what.stimulus)]) s s' := by
  have hcost := Queue.cost_of_pop?_eq_some hq
  have hpackets := h.packets
  have hqueue : s'.queue = queue := congrArg Situation.queue hs
  have hnil : queue.arrivals = [] :=
    h.solitary.alone hq (occasion_of_stimulus hst hn (.inr (.inl ⟨p, packet⟩)))
  have howed' : s'.situation.owed A = 0 := owed_of_none (by rw [hs]; exact current)
  rcases h.sender_account hF hq hst hn hc with ⟨-, -, ⟨data, hx⟩, -⟩ |
    ⟨hk, hmem, -, -, hacc, hcount⟩ | ⟨-, -, ⟨id, hx⟩, -⟩
  · exact nomatch hx.symm.trans packet
  · have howed : s.situation.owed A = 0 := owed_of_mem hmem
    simp only [current, Option.toList_none, List.length_nil] at hcount
    have hsender : s'.sender = s₁ := congrArg Situation.sender hs
    refine paid_of_eq hsender ?_ ?_ (hl ▸ h.balanced.rules) ?_ (late_of_pop? hq hqueue hl)
    · exact exact_of_nil (by rw [hs]; exact hnil)
    · rw [hl, howed', A.admitted_append, hacc, Option.toList_none, List.append_nil]
      omega
    · rw [hl, howed', hqueue]
      omega
  · exact nomatch hx.symm.trans packet

/-- What the event was worth that made the sender send. -/
theorem Budgeted.worth (hF : A.Faithful B) (h : Budgeted A B messages rules log s)
    (hq : s.queue.pop? = some (e, queue)) (hst : s.isStale e = false) (hn : e.what.node = .sender)
    (hc : A.Change s.sender e.what.stimulus s₁) {m : Payload} (current : A.current s₁ = some m)
    (occasion : A.current s.sender = none ∨ (∃ p, e.what.stimulus = .packet p) ∨
      e.what.stimulus = .timer (A.timerId (A.bit s.sender))) :
    1 + (A.backlog s₁).length = s.situation.owed A + (A.backlog s.sender).length +
        (A.accepted? s.sender e.what.stimulus).toList.length ∧
      3 * (A.backlog s₁).length + 4 ≤
        e.what.cost + 3 * (A.backlog s.sender).length + 3 * s.situation.owed A := by
  have hnil : queue.arrivals = [] := h.solitary.alone hq (occasion_of_stimulus hst hn occasion)
  have hle : (A.accepted? s.sender e.what.stimulus).toList.length ≤ 1 := Option.length_toList_le
  rcases h.sender_account hF hq hst hn hc with ⟨hk, -, ⟨data, hx⟩, hcount⟩ |
    ⟨hk, hmem, -, -, hacc, hcount⟩ | ⟨hk, ha, -, hw, hacc, hcount⟩
  · have hnone : A.current s.sender = none := by simpa [hx] using occasion
    have howed : s.situation.owed A = 0 := owed_of_none hnone
    rw [current, hnone] at hcount
    simp only [Option.toList_some, Option.toList_none, List.length_cons, List.length_nil] at hcount
    omega
  · have howed : s.situation.owed A = 0 := owed_of_mem hmem
    simp only [current, hacc, Option.toList_some, Option.toList_none, List.length_cons,
      List.length_nil] at hcount ⊢
    omega
  · have howed : s.situation.owed A = 1 := owed_of_nil hw (by
      rw [← hnil]
      exact (Queue.arrivals_of_pop?_eq_some hq).trans (by simp [ha]))
    obtain ⟨m', hm'⟩ := Option.isSome_iff_exists.mp hw
    simp only [current, hm', hacc, Option.toList_some, Option.toList_none, List.length_cons,
      List.length_nil] at hcount ⊢
    omega

/-- What a sender has sent is paid by the event that made it send. -/
theorem Budgeted.sending (hF : A.Faithful B) (h : Budgeted A B messages rules log s)
    (hq : s.queue.pop? = some (e, queue)) (hst : s.isStale e = false) (hn : e.what.node = .sender)
    (hc : A.Change s.sender e.what.stimulus s₁) {m : Payload} (current : A.current s₁ = some m)
    (occasion : A.current s.sender = none ∨ (∃ p, e.what.stimulus = .packet p) ∨
      e.what.stimulus = .timer (A.timerId (A.bit s.sender)))
    {g : Generations} {id : UInt32} {generation : Nat}
    (ht : t.situation = { s.situation.reach e queue with sender := s₁, generations := g }.enqueue
      (e.time + A.timeout) (.expiry .sender id generation))
    (hl : t.ledger = s.ledger) (hs : Posted .sender (F.data (A.bit s₁) m) t s') :
    Paid A rules (log ++ [(s.sender, e.what.stimulus)]) s s' := by
  have hcost := Queue.cost_of_pop?_eq_some hq
  have hpackets := h.packets
  have hrules := h.balanced.rules
  have hqueue : t.queue = queue.schedule (e.time + A.timeout) (.expiry .sender id generation) :=
    congrArg Situation.queue ht
  have hnil : queue.arrivals = [] := h.solitary.alone hq (occasion_of_stimulus hst hn occasion)
  have hnil' : t.queue.arrivals = [] := by
    rw [hqueue, Queue.arrivals_schedule_of_not rfl, hnil]
  have hcost' : t.queue.cost = 1 + queue.cost := by
    rw [hqueue]
    exact Queue.cost_schedule _ _ _
  have hsender : t.sender = s₁ := congrArg Situation.sender ht
  obtain ⟨hp, hd, hr, hb⟩ := hs.account hnil' (A := A) (by simp [hsender, current])
  obtain ⟨hsender', -, hall⟩ := hs.arrivals hnil'
  rw [hl] at hp hd hr hb
  have hpost : (Happening.arrival (Node.peer .sender) (F.data (A.bit s₁) m)).cost = 2 := rfl
  have hone : Node.senderPackets .sender = 1 := rfl
  obtain ⟨hcount, hworth⟩ := h.worth hF hq hst hn hc current occasion
  have hsender'' : s'.sender = s₁ := hsender'.trans hsender
  refine paid_of_eq hsender'' ?_ ?_ (hr.trans hrules) ?_ ?_
  · constructor
    · intro a ha q hq'
      obtain rfl : F.data (A.bit s₁) m = q := by
        injection (hall a ha).symm.trans hq'
      exact ⟨m, by rw [show s'.situation.sender = s₁ from hsender'']; exact ⟨current, rfl⟩⟩
    · intro a ha q hq'
      exact nomatch (hall a ha).symm.trans hq'
  · rw [A.admitted_append, List.length_append]
    omega
  · omega
  · -- the timer of the packet comes last
    have hclock : t.clock = e.time := congrArg Situation.clock ht
    have hconfig : t.config = s.config := congrArg Situation.config ht
    have hbound : 2 * s.config.maxLatency < A.timeout := h.solitary.bound
    have hmem : e ∈ s.queue.toList := Queue.first_mem_of_pop?_eq_some hq
    intro a ha
    rw [hp, hone, Nat.mul_add, Nat.mul_one]
    rcases hs.mem_queue ha with ha | hle
    · rcases Queue.mem_schedule.mp (hqueue ▸ ha) with rfl | ha
      · exact ⟨e, hmem, by simp only; omega⟩
      · exact ⟨a, Queue.mem_of_mem_rest hq ha, by omega⟩
    · rw [hclock, hconfig] at hle
      exact ⟨e, hmem, by omega⟩

theorem Budgeted.sender_step (hA : A.Lawful) (hF : A.Faithful B)
    (h : Budgeted A B messages rules log s)
    (hq : s.queue.pop? = some (e, queue)) (hst : s.isStale e = false) (hn : e.what.node = .sender)
    (hh : { s with queue, clock := e.time }.handle (A.ends B) .sender e.what.stimulus = .ok s') :
    Paid A rules (log ++ [(s.sender, e.what.stimulus)]) s s' := by
  obtain ⟨s₁, t, ps, hc, hemission, hl, hsent⟩ :=
    exists_emission_of_handle hA h.running.sound.sender e.what.stimulus_ne_init hh
  generalize hd : t.situation = d at hemission
  cases hemission with
  | silent bit current expiry =>
    cases hsent
    exact h.silent hF hq hst hn hc bit current hd hl
  | released packet current =>
    cases hsent
    exact h.released hF hq hst hn hc packet current hd hl
  | sending current occasion le lt =>
    have hconfig : t.config = s.config := congrArg Situation.config hd
    have hposted := posted_of_transmit (hconfig ▸ h.faultless) (hconfig ▸ h.latency)
      (by simpa using hsent)
    exact h.sending hF hq hst hn hc current occasion hd hl hposted

theorem Budgeted.pass (h : Budgeted A B messages rules log s) (hq : s.queue.pop? = some (e, queue))
    (ha : e.isArrival = false) (hs : s'.sender = s.sender) (hqueue : s'.queue = queue)
    (hl : s'.ledger = s.ledger) : Paid A rules log s s' := by
  have hcost := Queue.cost_of_pop?_eq_some hq
  have hpos := e.what.cost_pos
  have harrivals : s'.queue.arrivals = s.queue.arrivals := by
    rw [hqueue, Queue.arrivals_of_pop?_eq_some hq, ha]
    rfl
  have hcurrent : A.current s'.sender = A.current s.sender := congrArg A.current hs
  have howed : s'.situation.owed A = s.situation.owed A := owed_congr hcurrent harrivals
  refine paid_of_eq hs ?_ ?_ (hl ▸ h.balanced.rules) ?_ (late_of_pop? hq hqueue hl)
  · exact h.balanced.exact.congr hcurrent (congrArg A.bit hs) harrivals
  · rw [hl, howed]
    exact h.balanced.packets
  · rw [hl, howed, hqueue]
    omega

/-- While a packet is on its way to the receiver, the timer of the message waits, and it
leaves the time for the way back. -/
theorem Budgeted.exists_later (h : Budgeted A B messages rules log s) (he : e ∈ s.queue.arrivals)
    (hw : e.what = .arrival .receiver p) :
    ∃ d ∈ s.queue.toList, e.time + s.config.maxLatency < d.time := by
  obtain ⟨m, hm, -⟩ := h.balanced.exact.data e he p hw
  obtain ⟨d, -, hiff⟩ := h.running.ticking.waiting (Option.isSome_iff_exists.mpr ⟨m, hm⟩)
  have hp := (hiff _ d).mpr ⟨rfl, rfl⟩
  have hearly := h.solitary.early d hp.1 hp.2 e he
  rw [Event.answered, hw] at hearly
  exact ⟨d, hp.1, hearly⟩

theorem handle_receiver_eq (s : Simulation σ ρ) (x : Stimulus) :
    s.handle (A.ends B) .receiver x =
      { s with receiver := (B.endpoint.react s.clock x s.receiver).1 }.perform .receiver
        (B.endpoint.react s.clock x s.receiver).2 := rfl

theorem Budgeted.exists_posted_of_handle (hB : B.Lawful) (hF : A.Faithful B)
    (h : Budgeted A B messages rules log s) (he : e ∈ s.queue.arrivals)
    (hw : e.what = .arrival .receiver p)
    (hh : { s with queue, clock := e.time }.handle (A.ends B) .receiver (.packet p) = .ok s') :
    ∃ (t : Simulation σ ρ) (receiver : ρ) (delivered : List Payload),
      t.situation = { s.situation.reach e queue with receiver, delivered } ∧
      t.ledger = s.ledger ∧ Posted .receiver (F.ack (A.bit s.sender)) t s' := by
  rw [handle_receiver_eq] at hh
  obtain ⟨t, ht, hl, hsent⟩ := perform_eq_ok hh
  generalize hr : B.endpoint.react e.time (.packet p) s.receiver = r at ht hsent
  obtain ⟨r', actions⟩ := r
  obtain ⟨m, -, rfl⟩ := h.balanced.exact.data e he p hw
  obtain ⟨-, sent, timers⟩ := hB.answer h.running.sound.receiver (.inl rfl) hr
  rw [hF.expected h.running.sound.receiver hr, SeqBit.flip_flip] at sent
  simp only [carryOut, timers, List.foldl_nil] at ht
  have hconfig : t.config = s.config := congrArg Situation.config ht
  rw [sent, List.foldlM_cons] at hsent
  obtain ⟨s₁, hsent, ⟨⟩⟩ := exists_of_bind_eq_ok hsent
  exact ⟨t, r', _, ht, hl, posted_of_transmit (hconfig ▸ h.faultless) (hconfig ▸ h.latency) hsent⟩

/-- An acknowledgement is paid by the packet that it answers. -/
theorem Budgeted.acknowledging (h : Budgeted A B messages rules log s)
    (hq : s.queue.pop? = some (e, queue)) (hw : e.what = .arrival .receiver p) {receiver : ρ}
    {delivered : List Payload}
    (ht : t.situation = { s.situation.reach e queue with receiver, delivered })
    (hl : t.ledger = s.ledger) (hs : Posted .receiver (F.ack (A.bit s.sender)) t s') :
    Paid A rules log s s' := by
  have harrival : e ∈ s.queue.arrivals :=
    Queue.mem_arrivals (Queue.first_mem_of_pop?_eq_some hq) hw
  have hnil : queue.arrivals = [] := h.solitary.alone hq (.inl (List.mem_filter.mp harrival).2)
  obtain ⟨m, hm, rfl⟩ := h.balanced.exact.data e harrival p hw
  have hqueue : t.queue = queue := congrArg Situation.queue ht
  have hsender : t.sender = s.sender := congrArg Situation.sender ht
  have hwait : (A.current t.sender).isSome := by
    rw [hsender]
    exact Option.isSome_iff_exists.mpr ⟨m, hm⟩
  obtain ⟨hp, hd, hr, hb⟩ := hs.account (hqueue ▸ hnil) hwait
  obtain ⟨hsender', -, hall⟩ := hs.arrivals (hqueue ▸ hnil)
  rw [hl] at hp hd hr hb
  have hcost := Queue.cost_of_pop?_eq_some hq
  rw [hw, show (Happening.arrival .receiver (F.data _ m)).cost = 2 from rfl] at hcost
  have hpost : (Happening.arrival (Node.peer .receiver) (F.ack (A.bit s.sender))).cost = 1 := rfl
  have hnone : Node.senderPackets .receiver = 0 := rfl
  have howed : s.situation.owed A = 0 := owed_of_mem harrival
  have hpackets := h.packets
  refine paid_of_eq (hsender'.trans hsender) ?_ ?_ (hr.trans h.balanced.rules) ?_ ?_
  · constructor
    · intro a ha q hq'
      cases (hall a ha).symm.trans hq'
    · intro a ha q hq'
      obtain rfl : F.ack (A.bit s.sender) = q := by
        injection (hall a ha).symm.trans hq'
      rw [hsender', hsender]
  · omega
  · rw [hqueue] at hb
    omega
  · -- the timer of the message runs out after the answer has come back
    obtain ⟨d, hd, hlt⟩ := h.exists_later harrival hw
    have hclock : t.clock = e.time := congrArg Situation.clock ht
    have hconfig : t.config = s.config := congrArg Situation.config ht
    intro a ha
    rw [hp, hnone, Nat.add_zero]
    rcases hs.mem_queue ha with ha | hle
    · exact ⟨a, Queue.mem_of_mem_rest hq (hqueue ▸ ha), Nat.le_refl _⟩
    · rw [hclock, hconfig] at hle
      exact ⟨d, hd, by omega⟩

theorem Budgeted.receiver_step (hB : B.Lawful) (hF : A.Faithful B)
    (h : Budgeted A B messages rules log s)
    (hq : s.queue.pop? = some (e, queue)) (hn : e.what.node = .receiver)
    (hh : { s with queue, clock := e.time }.handle (A.ends B) .receiver e.what.stimulus = .ok s') :
    Paid A rules log s s' := by
  cases hw : e.what with
  | submission data => rw [hw] at hn; cases hn
  | expiry node id generation =>
    rw [handle_receiver_eq, hw] at hh
    obtain ⟨t, ht, hl, hsent⟩ := perform_eq_ok hh
    simp only [Happening.stimulus, hB.timer] at ht hsent
    cases hsent
    refine h.pass hq (by simp [Event.isArrival, hw]) ?_ ?_ hl
    · exact congrArg Situation.sender ht
    · exact congrArg Situation.queue ht
  | arrival node p =>
    obtain rfl : node = .receiver := by rw [hw] at hn; exact hn
    have harrival : e ∈ s.queue.arrivals :=
      Queue.mem_arrivals (Queue.first_mem_of_pop?_eq_some hq) hw
    rw [hw] at hh
    obtain ⟨t, receiver, delivered, ht, hl, hposted⟩ :=
      h.exists_posted_of_handle hB hF harrival hw hh
    exact h.acknowledging hq hw ht hl hposted

theorem Budgeted.paid_of_step {o : Outcome} (hA : A.Lawful) (hB : B.Lawful) (hF : A.Faithful B)
    (h : Budgeted A B messages rules log s) (hs : s.step (A.ends B) = .ok (o, s'))
    (ho : o.took = true) :
    Paid A rules (log ++ (o.toSender?.map fun x => (s.sender, x)).toList) s s' := by
  rcases step_eq_ok hs with ⟨-, rfl, -⟩ | ⟨e, queue, hq, hst, rfl, rfl⟩ |
    ⟨e, queue, hq, hst, rfl, hh⟩
  · cases ho
  · have ha : e.isArrival = false := by
      cases hw : e.what <;> simp_all [Simulation.isStale, Event.isArrival]
    have hpaid : Paid A rules log s { s with queue } := h.pass hq ha rfl rfl rfl
    simpa [Outcome.toSender?] using hpaid
  · generalize hn : e.what.node = node at hh
    cases node with
    | sender =>
      simp only [Outcome.toSender?, hn, if_true, Option.map_some, Option.toList_some]
      exact h.sender_step hA hF hq hst hn hh
    | receiver =>
      simp only [Outcome.toSender?, hn, reduceCtorEq, if_false, Option.map_none,
        Option.toList_none, List.append_nil]
      exact h.receiver_step hB hF hq hn hh

theorem SendingSide.Faithful.length_admitted_le (hF : A.Faithful B) (o : Outcome)
    (log : List (σ × Stimulus)) (s : σ) :
    (A.admitted (log ++ (o.toSender?.map fun x => (s, x)).toList)).length ≤
      (A.admitted log).length + (o.toSender?.bind Stimulus.submission?).toList.length := by
  cases o.toSender? with
  | none => simp
  | some x =>
    simp only [Option.map_some, Option.toList_some, Option.bind_some, A.admitted_append,
      List.length_append]
    cases hx : x.submission? with
    | none => simp [hF.accepts hx]
    | some data => exact Nat.add_le_add_left Option.length_toList_le _

theorem Budgeted.step {o : Outcome} (hA : A.Lawful) (hB : B.Lawful) (hF : A.Faithful B)
    (h : Budgeted A B messages rules log s) (hs : s.step (A.ends B) = .ok (o, s'))
    (ho : o.took = true) :
    Budgeted A B messages rules (log ++ (o.toSender?.map fun x => (s.sender, x)).toList) s' := by
  have hc := situation_step h.latency hs
  have hconfig : s'.config = s.config := hc.config_eq
  refine ⟨hconfig ▸ h.faultless, hconfig ▸ h.latency, ?_, ?_, ?_, ?_⟩
  · exact h.running.step hA hB (regime_solitary hA hB h.solitary.bound) h.solitary hc
  · exact h.solitary.step hA hB h.running hc
  · exact (h.paid_of_step hA hB hF hs ho).balanced
  · have hlen := hF.length_admitted_le o log s.sender
    have hsub := congrArg List.length hc.submissions_eq
    rw [List.length_append] at hsub
    have hsub : _ + s'.queue.submissions.length = s.queue.submissions.length := hsub
    have hmessages := h.messages
    omega

end LossyLink
