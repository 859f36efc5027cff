import Mathlib.Data.List.Forall2
import LossyLink.Proofs.Simulation.Transit
import LossyLink.Proofs.StopAndWait.Exchange
import LossyLink.Proofs.StopAndWait.Ticking

/-! # Situations as exchanges

A situation of a stop-and-wait protocol shows an exchange: the packets that wait in
the queue are copies of messages and acknowledgements, in the order in which they
will arrive. As long as a packet never overtakes another, every step of the
situation is a few moves of the exchange, and none at all where only time passes.
-/

namespace LossyLink

namespace Situation

variable {σ ρ : Type} {F : Format} {A : SendingSide F σ} {B : ReceivingSide F ρ}
  {ends : Ends σ ρ} {c c' : Situation σ ρ} {x : Exchange} {e : Event} {queue : Queue}
  {s' : σ}

/-- The part that the sender's state has no share in. -/
structure Carries (B : ReceivingSide F ρ) (c : Situation σ ρ) (x : Exchange) : Prop where
  expected : B.expected c.receiver = x.expected
  data : List.Forall₂ (fun p d => (F.data d.1 d.2).IsCopy p) (c.queue.inTransit .receiver) x.data
  acks : List.Forall₂ (fun p b => (F.ack b).IsCopy p) (c.queue.inTransit .sender) x.acks
  delivered : c.delivered = x.delivered

structure Shows (A : SendingSide F σ) (B : ReceivingSide F ρ) (c : Situation σ ρ)
    (x : Exchange) : Prop extends Carries B c x where
  bit : A.bit c.sender = x.bit
  current : A.current c.sender = x.current

/-- A packet sent now arrives behind all that are on their way. -/
def Orderly (c : Situation σ ρ) : Prop :=
  ∀ e ∈ c.queue.arrivals, e.time ≤ c.clock + c.config.minLatency

/-- The exchange that a situation shows has the history that the sender heard. -/
structure Records (A : SendingSide F σ) (log : List (σ × Stimulus)) (c : Situation σ ρ)
    (x : Exchange) : Prop where
  accepted : x.accepted ++ A.backlog c.sender = A.admitted log
  confirmed : x.confirmed = A.confirmations log

def Tracks (A : SendingSide F σ) (B : ReceivingSide F ρ) (log : List (σ × Stimulus))
    (c : Situation σ ρ) : Prop :=
  ∃ x : Exchange, x.InPhase ∧ c.Shows A B x ∧ c.Records A log x

theorem Orderly.inTransit_enqueue (h : c.Orderly) {node : Node} {q : Packet} {latency : Nat}
    (hmin : c.config.minLatency ≤ latency) :
    (c.enqueue (c.clock + latency) (.arrival node q)).queue.inTransit node =
      c.queue.inTransit node ++ [q] :=
  Queue.inTransit_schedule_arrival fun e he =>
    Nat.le_trans (h e he) (Nat.add_le_add_left hmin _)

theorem Shows.send (h : c.Shows A B x) (ho : c.Orderly) {m : Payload} (hm : x.current = some m)
    (hc : Carried .sender (F.data x.bit m) c c') :
    ∃ x', Exchange.Moves x x' ∧ c'.Shows A B x' ∧ x'.accepted = x.accepted ∧
      x'.confirmed = x.confirmed := by
  cases hc with
  | dropped => exact ⟨x, .refl, h, rfl, rfl⟩
  | @sent q latency hq hmin hmax =>
    refine ⟨_, .single (.send hm), ⟨⟨h.expected, ?_, ?_, h.delivered⟩, h.bit, h.current⟩, rfl, rfl⟩
    · exact ho.inTransit_enqueue hmin ▸ List.rel_append h.data (.cons hq .nil)
    · simp only [enqueue, Node.peer]
      rw [Queue.inTransit_schedule_of_ne (by simp)]
      exact h.acks

theorem Shows.answer (h : c.Shows A B x) (ho : c.Orderly)
    (hc : Carried .receiver (F.ack x.expected.flip) c c') :
    ∃ x', Exchange.Moves x x' ∧ c'.Shows A B x' ∧ x'.accepted = x.accepted ∧
      x'.confirmed = x.confirmed := by
  cases hc with
  | dropped => exact ⟨x, .refl, h, rfl, rfl⟩
  | @sent q latency hq hmin hmax =>
    refine ⟨_, .single .answer, ⟨⟨h.expected, ?_, ?_, h.delivered⟩, h.bit, h.current⟩, rfl, rfl⟩
    · simp only [enqueue, Node.peer]
      rw [Queue.inTransit_schedule_of_ne (by simp)]
      exact h.data
    · exact ho.inTransit_enqueue hmin ▸ List.rel_append h.acks (.cons hq .nil)

theorem Shows.reach (h : c.Shows A B x) (hq : c.queue.pop? = some (e, queue))
    (hw : ∀ node p, e.what ≠ .arrival node p) : (c.reach e queue).Shows A B x := by
  have hnone : ∀ node, e.packetTo? node = none := fun node =>
    Option.eq_none_iff_forall_ne_some.mpr fun p hp =>
      hw node p (Event.packetTo?_eq_some_iff.mp hp)
  have hdata := h.data
  have hacks := h.acks
  rw [Queue.inTransit_of_pop?_eq_some hq, hnone] at hdata hacks
  exact ⟨⟨h.expected, hdata, hacks, h.delivered⟩, h.bit, h.current⟩

theorem Shows.head_ack (h : c.Shows A B x) (hq : c.queue.pop? = some (e, queue)) {p : Packet}
    (hw : e.what = .arrival .sender p) : ∃ b acks, x.acks = b :: acks ∧ (F.ack b).IsCopy p ∧
      (c.reach e queue).Shows A B { x with acks } := by
  have hdata := h.data
  have hacks := h.acks
  have hs : e.packetTo? .sender = some p := Event.packetTo?_eq_some_iff.mpr hw
  have hr : e.packetTo? .receiver = none := by simp [Event.packetTo?, hw]
  rw [Queue.inTransit_of_pop?_eq_some hq, hr] at hdata
  rw [Queue.inTransit_of_pop?_eq_some hq, hs] at hacks
  obtain ⟨b, acks, hb, hacks, he⟩ := List.forall₂_cons_left_iff.mp hacks
  exact ⟨b, acks, he, hb, ⟨h.expected, hdata, hacks, h.delivered⟩, h.bit, h.current⟩

theorem Shows.head_data (h : c.Shows A B x) (hq : c.queue.pop? = some (e, queue)) {p : Packet}
    (hw : e.what = .arrival .receiver p) : ∃ b m data, x.data = (b, m) :: data ∧
      (F.data b m).IsCopy p ∧ (c.reach e queue).Shows A B { x with data } := by
  have hdata := h.data
  have hacks := h.acks
  have hs : e.packetTo? .sender = none := by simp [Event.packetTo?, hw]
  have hr : e.packetTo? .receiver = some p := Event.packetTo?_eq_some_iff.mpr hw
  rw [Queue.inTransit_of_pop?_eq_some hq, hr] at hdata
  rw [Queue.inTransit_of_pop?_eq_some hq, hs] at hacks
  obtain ⟨⟨b, m⟩, data, hb, hdata, he⟩ := List.forall₂_cons_left_iff.mp hdata
  exact ⟨b, m, data, he, hb, ⟨h.expected, hdata, hacks, h.delivered⟩, h.bit, h.current⟩

theorem Shows.pass (h : c.Shows A B x) (hq : c.queue.pop? = some (e, queue)) :
    ∃ x', Exchange.Moves x x' ∧ (c.reach e queue).Shows A B x' ∧ x'.accepted = x.accepted ∧
      x'.confirmed = x.confirmed := by
  by_cases ha : ∃ node p, e.what = .arrival node p
  · obtain ⟨_ | _, p, hw⟩ := ha
    · obtain ⟨b, acks, he, -, hs⟩ := h.head_ack hq hw
      exact ⟨_, .single (.ignoreAck he), hs, rfl, rfl⟩
    · obtain ⟨b, m, data, he, -, hs⟩ := h.head_data hq hw
      exact ⟨_, .single (.ignoreData he), hs, rfl, rfl⟩
  · exact ⟨x, .refl, h.reach hq fun node p hw => ha ⟨node, p, hw⟩, rfl, rfl⟩

/-- The message that a sender takes up when it had none is accepted. -/
theorem Carries.load (h : c.Carries B x) (hx : x.current = none) (hbit : A.bit s' = x.bit) :
    ∃ x', Exchange.Moves x x' ∧ { c with sender := s' }.Shows A B x' ∧
      x'.accepted = x.accepted ++ (A.current s').toList ∧ x'.confirmed = x.confirmed := by
  cases hc : A.current s' with
  | none =>
    exact ⟨x, .refl, ⟨⟨h.expected, h.data, h.acks, h.delivered⟩, hbit, hc.trans hx.symm⟩,
      by simp, rfl⟩
  | some m =>
    exact ⟨_, .single (.accept hx),
      ⟨⟨h.expected, h.data, h.acks, h.delivered⟩, hbit, hc⟩, rfl, rfl⟩

theorem Shows.change (h : c.Shows A B x) (hq : c.queue.pop? = some (e, queue))
    (hn : e.what.node = .sender) (hc : A.Change c.sender e.what.stimulus s') :
    ∃ x', Exchange.Moves x x' ∧ { c.reach e queue with sender := s' }.Shows A B x' ∧
      x'.accepted ++ A.backlog s' = x.accepted ++ A.backlog c.sender ++
        (A.accepted? c.sender e.what.stimulus).toList ∧
      x'.confirmed = x.confirmed + (A.confirms c.sender e.what.stimulus).toNat := by
  cases hc with
  | stay bit current backlog confirms =>
    obtain ⟨x₁, hm, h₁, ha, hk⟩ := h.pass hq
    rcases current with hnone | hsame
    · obtain ⟨x₂, hm', h₂, ha', hk'⟩ :=
        h₁.toCarries.load (h₁.current ▸ hnone) (bit.trans h₁.bit)
      refine ⟨x₂, hm.trans hm', h₂, ?_, by simp [hk', hk, confirms]⟩
      rw [ha', ha, List.append_assoc, backlog]
      simp [hnone]
    · refine ⟨x₁, hm, ⟨⟨h₁.expected, h₁.data, h₁.acks, h₁.delivered⟩, bit.trans h₁.bit,
        hsame.trans h₁.current⟩, ?_, by simp [hk, confirms]⟩
      rw [hsame, List.append_assoc, List.append_cancel_left_eq] at backlog
      rw [ha, backlog, List.append_assoc]
  | @advance p packet ack waiting bit backlog accepted confirms =>
    have hw : e.what = .arrival .sender p := by
      cases hwhat : e.what with
      | arrival node q =>
        rw [hwhat] at packet hn
        obtain rfl : node = .sender := hn
        cases packet
        rfl
      | expiry => rw [hwhat] at packet; cases packet
      | submission => rw [hwhat] at packet; cases packet
    obtain ⟨b, acks, he, hb, h₁⟩ := h.head_ack hq hw
    obtain rfl : b = x.bit := (ack b hb).trans h.bit
    obtain ⟨m, hm⟩ := Option.isSome_iff_exists.mp waiting
    have hconfirm := Exchange.Move.confirm he (h.current ▸ hm)
    have h₂ : (c.reach e queue).Carries B { x with
        acks, current := none, bit := x.bit.flip, confirmed := x.confirmed + 1 } :=
      ⟨h₁.expected, h₁.data, h₁.acks, h₁.delivered⟩
    obtain ⟨x₃, hm₃, h₃, ha₃, hk₃⟩ := h₂.load rfl (bit.trans (congrArg SeqBit.flip h.bit))
    refine ⟨x₃, .head hconfirm hm₃, h₃, ?_, by simp [hk₃, confirms]⟩
    rw [ha₃, List.append_assoc, backlog, accepted]
    simp

theorem Records.heard {log : List (σ × Stimulus)} {x' : Exchange} {s : σ} {y : Stimulus}
    (h : c.Records A log x)
    (ha : x'.accepted ++ A.backlog c'.sender =
      x.accepted ++ A.backlog c.sender ++ (A.accepted? s y).toList)
    (hk : x'.confirmed = x.confirmed + (A.confirms s y).toNat) :
    c'.Records A (log ++ [(s, y)]) x' where
  accepted := by
    rw [ha, h.accepted, SendingSide.admitted_append]
  confirmed := by
    rw [hk, h.confirmed, SendingSide.confirmations, SendingSide.confirmations,
      List.countP_append]
    cases hs : A.confirms s y <;> simp [hs]

theorem Shows.effect {y : Stimulus} (h : { c with sender := s' }.Shows A B x)
    (he : Effect A y c s' c')
    (ho : (A.current c.sender = none ∨ (∃ p, y = .packet p) ∨
      y = .timer (A.timerId (A.bit c.sender))) → c.Orderly) :
    ∃ x', Exchange.Moves x x' ∧ c'.Shows A B x' ∧ x'.accepted = x.accepted ∧
      x'.confirmed = x.confirmed := by
  cases he with
  | silent => exact ⟨x, .refl, h, rfl, rfl⟩
  | released =>
    exact ⟨x, .refl, ⟨⟨h.expected, h.data, h.acks, h.delivered⟩, h.bit, h.current⟩, rfl, rfl⟩
  | @sending m g _ current occasion _ _ carried =>
    have hm : x.current = some m := h.current ▸ current
    have hbit : A.bit s' = x.bit := h.bit
    have h' : ({ c with sender := s', generations := g }.enqueue (c.clock + A.timeout)
        (.expiry .sender (A.timerId (A.bit s')) (g.get (packetTimer A s')))).Shows A B x := by
      refine ⟨⟨h.expected, ?_, ?_, h.delivered⟩, hbit, h.current⟩
      · unfold enqueue
        rw [Queue.inTransit_schedule_of_ne (by simp)]
        exact h.data
      · unfold enqueue
        rw [Queue.inTransit_schedule_of_ne (by simp)]
        exact h.acks
    refine h'.send (fun e he => ?_) hm (hbit ▸ carried)
    unfold enqueue at he
    rw [Queue.arrivals_schedule_of_not rfl] at he
    exact ho occasion e he

/-- An event at which an end may send. -/
def Occasion (A : SendingSide F σ) (c : Situation σ ρ) (e : Event) : Prop :=
  e.isArrival = true ∨ A.current c.sender = none ∨ c.Armed A e

/-- Whenever something may be sent next, it will not overtake anything. -/
def Prompt (A : SendingSide F σ) (c : Situation σ ρ) : Prop :=
  ∀ {e queue}, c.queue.pop? = some (e, queue) → c.isStale e = false → c.Occasion A e →
    (c.reach e queue).Orderly

theorem occasion_of_stimulus (hs : c.isStale e = false) (hn : e.what.node = .sender)
    (h : A.current c.sender = none ∨ (∃ p, e.what.stimulus = .packet p) ∨
      e.what.stimulus = .timer (A.timerId (A.bit c.sender))) : c.Occasion A e := by
  rcases h with h | ⟨p, hp⟩ | h
  · exact .inr (.inl h)
  · refine .inl ?_
    unfold Event.isArrival
    cases hw : e.what <;> simp_all [Happening.stimulus]
  · exact .inr (.inr (armed_of_stimulus hs hn h))

theorem Shows.receive (hB : B.Lawful) (hr : B.Sound c.receiver) (h : c.Shows A B x)
    (hp : c.Prompt A) (hq : c.queue.pop? = some (e, queue))
    (hs : c.isStale e = false) (hn : e.what.node = .receiver)
    (hh : Handled (A.ends B) e.what.stimulus (c.reach e queue) .receiver c') :
    ∃ x', Exchange.Moves x x' ∧ c'.Shows A B x' ∧ x'.accepted = x.accepted ∧
      x'.confirmed = x.confirmed := by
  cases hw : e.what with
  | submission data => rw [hw] at hn; cases hn
  | expiry node id generation =>
    rw [hw] at hh
    exact ⟨x, .refl, hh.eq_of_timer hB rfl ▸ h.reach hq (by simp [hw]), rfl, rfl⟩
  | arrival node p =>
    obtain rfl : node = .receiver := by rw [hw] at hn; exact hn
    rw [hw] at hh
    obtain ⟨b, m, data, he, hcopy, h₁⟩ := h.head_data hq hw
    obtain ⟨r', delivered, verdict, carried⟩ :=
      hh.answer (c := c.reach e queue) hB rfl hr hcopy
    have ho : (c.reach e queue).Orderly :=
      hp hq hs (.inl (Event.isArrival_iff.mpr ⟨_, p, hw⟩))
    rcases verdict with ⟨hb, hexp, rfl⟩ | ⟨hexp, rfl⟩
    · -- the message that the receiver waits for
      obtain rfl : b = x.expected := hb.trans h₁.expected
      rw [hexp] at carried
      have h₂ : { c.reach e queue with
          receiver := r', delivered := c.delivered ++ [m] }.Shows A B { x with
            data, delivered := x.delivered ++ [m], expected := x.expected.flip } :=
        ⟨⟨hexp, h₁.data, h₁.acks, by simp [h.delivered]⟩, h₁.bit, h₁.current⟩
      obtain ⟨x', hm, hx', ha, hk⟩ := h₂.answer ho carried
      exact ⟨x', .head (.deliver he) hm, hx', ha, hk⟩
    · have hexp : B.expected r' = x.expected := hexp.trans h₁.expected
      rw [hexp] at carried
      have h₂ : { c.reach e queue with
          receiver := r', delivered := c.delivered ++ [] }.Shows A B { x with data } :=
        ⟨⟨hexp, h₁.data, h₁.acks, by simp [h.delivered]⟩, h₁.bit, h₁.current⟩
      obtain ⟨x', hm, hx', ha, hk⟩ := h₂.answer ho carried
      exact ⟨x', .head (.ignoreData he) hm, hx', ha, hk⟩

/-- Every step of a situation is a few moves of the exchange. -/
theorem Tracks.step {log : List (σ × Stimulus)} {o : Outcome} (hA : A.Lawful) (hB : B.Lawful)
    (hs : c.SoundEnds A B) (hp : c.Prompt A) (h : c.Tracks A B log)
    (hc : Step (A.ends B) c o c') :
    c'.Tracks A B (log ++ (o.toSender?.map fun y => (c.sender, y)).toList) := by
  obtain ⟨x, hphase, hx, hr⟩ := h
  cases hc with
  | drained => simpa [Outcome.toSender?] using ⟨x, hphase, hx, hr⟩
  | @stale e queue hq hst =>
    have hw : ∀ node p, e.what ≠ .arrival node p := by
      intro node p hw
      simp [isStale, hw] at hst
    have hx := hx.reach hq hw
    simp only [Outcome.toSender?, Option.map_none, Option.toList_none, List.append_nil]
    exact ⟨x, hphase, ⟨⟨hx.expected, hx.data, hx.acks, hx.delivered⟩, hx.bit, hx.current⟩,
      hr.accepted, hr.confirmed⟩
  | @handled e queue _ hq hst hh =>
    generalize hn : e.what.node = node at hh
    cases node with
    | sender =>
      obtain ⟨s', -, hchange, heffect⟩ :=
        hh.effect (c := c.reach e queue) hA rfl hs.sender e.what.stimulus_ne_init
      obtain ⟨x₁, hm₁, h₁, ha₁, hk₁⟩ := hx.change hq hn hchange
      obtain ⟨x₂, hm₂, h₂, ha₂, hk₂⟩ := h₁.effect heffect fun hocc =>
        hp hq hst (occasion_of_stimulus hst hn hocc)
      refine ⟨x₂, hphase.moves (hm₁.trans hm₂), h₂, ?_⟩
      simp only [Outcome.toSender?, hn, if_true, Option.map_some, Option.toList_some]
      refine hr.heard ?_ (hk₂.trans hk₁)
      rw [ha₂, heffect.sender_eq, ha₁]
    | receiver =>
      obtain ⟨x', hm, hx', ha, hk⟩ := hx.receive hB hs.receiver hp hq hst hn hh
      simp only [Outcome.toSender?, hn, reduceCtorEq, if_false, Option.map_none,
        Option.toList_none, List.append_nil]
      refine ⟨x', hphase.moves hm, hx', ?_, hk.trans hr.confirmed⟩
      obtain ⟨queue', generations, delivered, rfl⟩ := hh.receiver_frame
      rw [ha]
      exact hr.accepted

end Situation

end LossyLink
