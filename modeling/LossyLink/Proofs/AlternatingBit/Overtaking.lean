import LossyLink.Proofs.AlternatingBit.Delivery
import LossyLink.Proofs.AlternatingBit.Reception
import LossyLink.Proofs.Simulation.Overtaking

/-! # At most once, unless an old copy is overtaken

One bit tells a copy of the present message from one of the last message, and from
no older one. A copy that a later message has overtaken arrives under the bit that
the receiver expects again, and it is delivered a second time. As far as no packet
overtakes one with another number on its way to the receiver, whatever the latencies,
the receiver never delivers more than the sender accepted. In which order
acknowledgements arrive does not matter.
-/

namespace LossyLink.AlternatingBit

open Situation

section Prospect

variable {c c' : Situation Sender Receiver} {log : List (Sender × Stimulus)} {s' : Sender}
  {e : Event} {queue : Queue} {x : Stimulus} {p : Packet}

/-- The number of the packet that the sender may send again. -/
def repeatable (s : Sender) : List UInt32 :=
  (sending.current s).toList.map fun _ => s.nextSeq.toUInt32

/-- The numbers of the packets on their way to the receiver, first to arrive first. -/
def underway (c : Situation Sender Receiver) : List UInt32 :=
  (c.queue.inTransit .receiver).map fun p => p.header.seq

/-- How much will have been delivered once everything on its way has arrived, and behind
it the packet that the sender may send again. -/
def prospect (c : Situation Sender Receiver) : Nat :=
  (underway c ++ repeatable c.sender).foldl counted c.delivered.length

/-- What has been delivered, and all that may still be, was accepted. -/
structure Covered (log : List (Sender × Stimulus)) (c : Situation Sender Receiver) : Prop where
  sound : c.sender.Sound
  expected : c.receiver.expected.toUInt32 = UInt32.ofNat (c.delivered.length % 2)
  prospect_le : prospect c ≤ (sending.admitted log).length

theorem Covered.length_delivered_le (h : Covered log c) :
    c.delivered.length ≤ (sending.admitted log).length :=
  Nat.le_trans (le_foldl_counted _ _) h.prospect_le

theorem prospect_eq (c : Situation Sender Receiver) : prospect c =
    (repeatable c.sender).foldl counted ((underway c).foldl counted c.delivered.length) :=
  List.foldl_append

theorem prospect_congr (hsender : c'.sender = c.sender) (hunderway : underway c' = underway c)
    (hdelivered : c'.delivered = c.delivered) : prospect c' = prospect c := by
  rw [prospect, prospect, hsender, hunderway, hdelivered]

theorem underway_reach (hq : c.queue.pop? = some (e, queue))
    (hw : e.packetTo? .receiver = none) : underway (c.reach e queue) = underway c := by
  rw [underway, underway, queue_reach, Queue.inTransit_of_pop?_eq_some hq, hw]
  rfl

theorem underway_of_pop? (hq : c.queue.pop? = some (e, queue))
    (hw : e.what = .arrival .receiver p) :
    underway c = p.header.seq :: underway (c.reach e queue) := by
  rw [underway, Queue.inTransit_of_pop?_eq_some hq, Event.packetTo?_eq_some_iff.mpr hw]
  rfl

theorem prospect_change (hc : sending.Change c.sender x s') :
    prospect { c with sender := s' } ≤
      prospect c + (sending.accepted? c.sender x).toList.length := by
  rw [prospect_eq, prospect_eq]
  cases hc with
  | stay bit current backlog confirms =>
    have hbit : s'.nextSeq = c.sender.nextSeq := bit
    rcases current with hnone | hsame
    · have hlength : (repeatable s').length = (sending.accepted? c.sender x).toList.length := by
        rw [hnone] at backlog
        have hlengths := congrArg List.length backlog
        simpa [repeatable, sending] using hlengths
      have hrepeatable : repeatable c.sender = [] := by rw [repeatable, hnone]; rfl
      rw [hrepeatable, ← hlength]
      exact foldl_counted_le _ _
    · have hrepeatable : repeatable s' = repeatable c.sender := by
        rw [repeatable, repeatable, hsame, hbit]
      rw [hrepeatable]
      exact Nat.le_add_right _ _
  | advance packet ack waiting bit backlog accepted confirms =>
    have hnone : (sending.current s').toList = [] := (List.append_eq_nil_iff.mp backlog).1
    have hrepeatable : repeatable s' = [] := by rw [repeatable, hnone]; rfl
    rw [hrepeatable]
    exact Nat.le_trans (le_foldl_counted _ _) (Nat.le_add_right _ _)

theorem foldl_counted_insert {seq : UInt32} {back : List UInt32} (h : ∀ a ∈ back, a = seq)
    (front : List UInt32) (n : Nat) :
    (front ++ seq :: back ++ [seq]).foldl counted n =
      (front ++ back ++ [seq]).foldl counted n := by
  cases back with
  | nil => simp [counted_counted]
  | cons a back =>
    obtain rfl := h a List.mem_cons_self
    simp [counted_counted]

theorem prospect_enqueue {time : Nat} {q : Packet}
    (horder : (c.enqueue time (.arrival .receiver q)).queue.InOrder .receiver)
    (hrepeatable : repeatable c.sender = [q.header.seq]) :
    prospect (c.enqueue time (.arrival .receiver q)) = prospect c := by
  obtain ⟨front, back, hbefore, hafter, hback⟩ := horder.inTransit_schedule
  have hseqs : ∀ a ∈ back.map (fun p => p.header.seq), a = q.header.seq := by
    intro a ha
    obtain ⟨p, hp, rfl⟩ := List.mem_map.mp ha
    exact congrArg Prod.fst (hback p hp)
  have hcount := foldl_counted_insert hseqs (front.map fun p => p.header.seq) c.delivered.length
  simp only [prospect, underway, enqueue, hbefore, hafter, hrepeatable, List.map_append,
    List.map_cons]
  exact hcount

/-- Another copy of a packet that may be sent again changes nothing. -/
theorem prospect_effect (he : Effect sending x c s' c') (horder : c'.queue.InOrder .receiver) :
    prospect c' = prospect { c with sender := s' } := by
  cases he with
  | silent => rfl
  | released => exact prospect_congr rfl rfl rfl
  | @sending m g _ current _ _ _ carried =>
    generalize hd : { c with sender := s', generations := g }.enqueue _ _ = d at carried
    have hunderway : underway d = underway c := by
      rw [← hd, underway, underway, enqueue, Queue.inTransit_schedule_of_ne (by simp)]
    have hsender : d.sender = s' := hd ▸ rfl
    have hdelivered : d.delivered = c.delivered := hd ▸ rfl
    have hstart : prospect d = prospect { c with sender := s' } :=
      prospect_congr hsender hunderway hdelivered
    cases carried with
    | dropped => exact hstart
    | @sent q latency hcopy _ _ =>
      have hrepeatable : repeatable d.sender = [q.header.seq] := by
        rw [hsender, repeatable, current, hcopy.seq_eq]
        rfl
      exact (prospect_enqueue horder hrepeatable).trans hstart

theorem Covered.hear (h : Covered log c) (hs : s'.Sound) (hc : sending.Change c.sender x s')
    (he : Effect sending x c s' c') (horder : c'.queue.InOrder .receiver) :
    Covered (log ++ [(c.sender, x)]) c' where
  sound := he.sender_eq ▸ hs
  expected := by
    obtain ⟨queue, generations, rfl⟩ := he.frame
    exact h.expected
  prospect_le := by
    have hchange := prospect_change hc
    have hle := h.prospect_le
    rw [prospect_effect he horder, SendingSide.admitted_append, List.length_append]
    omega

theorem Covered.reach (h : Covered log c) (hq : c.queue.pop? = some (e, queue))
    (hw : e.packetTo? .receiver = none) : Covered log (c.reach e queue) where
  sound := h.sound
  expected := h.expected
  prospect_le := by
    have hsame : prospect (c.reach e queue) = prospect c :=
      prospect_congr rfl (underway_reach hq hw) rfl
    exact hsame ▸ h.prospect_le

theorem exists_of_handled_packet (h : Handled ends (.packet p) c .receiver c') :
    ∃ queue : Queue, queue.inTransit .receiver = c.queue.inTransit .receiver ∧ c' = { c with
      receiver := (c.receiver.onPacket p).1, queue,
      delivered := c.delivered ++ (c.receiver.onPacket p).2.filterMap Action.delivered? } := by
  obtain ⟨-, -⟩ | ⟨hreact, hc⟩ := h
  rename_i r' actions
  have hanswer : c.receiver.onPacket p = (r', actions) := hreact
  obtain ⟨rfl, rfl⟩ := Prod.ext_iff.mp hanswer
  rw [c.receiver.sent_onPacket p, carriedAll_singleton] at hc
  simp only [carryOut, c.receiver.timers_onPacket p, List.foldl_nil] at hc
  cases hc with
  | dropped => exact ⟨c.queue, rfl, rfl⟩
  | sent => exact ⟨_, Queue.inTransit_schedule_of_ne (by simp [Node.peer]), rfl⟩

theorem Covered.receive (h : Covered log c) (hq : c.queue.pop? = some (e, queue))
    (hw : e.what = .arrival .receiver p)
    (hh : Handled ends (.packet p) (c.reach e queue) .receiver c') : Covered log c' := by
  obtain ⟨queue', htransit, rfl⟩ := exists_of_handled_packet hh
  have hcount := length_delivered_onPacket h.expected p
  refine ⟨h.sound, ?_, ?_⟩
  · rw [delivered_reach, receiver_reach, List.length_append, hcount]
    exact parity_onPacket h.expected p
  · have hle := h.prospect_le
    rw [prospect, underway_of_pop? hq hw, List.cons_append, List.foldl_cons, ← hcount] at hle
    rw [prospect, underway, htransit, delivered_reach, receiver_reach, List.length_append]
    exact hle

theorem Covered.step {o : Outcome} (h : Covered log c) (hc : Step ends c o c')
    (horder : c'.queue.InOrder .receiver) :
    Covered (log ++ (o.toSender?.map fun x => (c.sender, x)).toList) c' := by
  cases hc with
  | drained => simpa [Outcome.toSender?] using h
  | @stale e queue hq hst =>
    have hnone : e.packetTo? .receiver = none := by
      cases hw : e.what <;> simp_all [isStale, Event.packetTo?]
    have hreach := h.reach hq hnone
    simp only [Outcome.toSender?, Option.map_none, Option.toList_none, List.append_nil]
    exact ⟨hreach.sound, hreach.expected, hreach.prospect_le⟩
  | @handled e queue _ hq hst hh =>
    generalize hn : e.what.node = node at hh
    cases node with
    | sender =>
      have hnone : e.packetTo? .receiver = none := by
        cases hw : e.what <;> simp_all [Happening.node, Event.packetTo?]
      obtain ⟨s', hsound, hchange, heffect⟩ :=
        hh.effect (c := c.reach e queue) sending_lawful rfl h.sound e.what.stimulus_ne_init
      simp only [Outcome.toSender?, hn, if_true, Option.map_some, Option.toList_some]
      exact (h.reach hq hnone).hear hsound hchange heffect horder
    | receiver =>
      simp only [Outcome.toSender?, hn, reduceCtorEq, if_false, Option.map_none,
        Option.toList_none, List.append_nil]
      cases hw : e.what with
      | submission data => rw [hw] at hn; cases hn
      | expiry node id generation =>
        rw [hw] at hh
        rw [hh.eq_of_timer receiving_lawful rfl]
        exact h.reach hq (by simp [Event.packetTo?, hw])
      | arrival node p =>
        obtain rfl : node = .receiver := by rw [hw] at hn; exact hn
        rw [hw] at hh
        exact h.receive hq hw hh

end Prospect

section History

variable {config : Config} {s s' : Simulation Sender Receiver} {plan : List Preparation} {n : Nat}
  {turns : List (Turn Sender Receiver)}

theorem covered_of_start {c₁ c' : Situation Sender Receiver}
    (h₁ : Handled ends .init ((Simulation.fresh config ends).prepare plan).situation .sender c₁)
    (h₂ : Handled ends .init c₁ .receiver c') : Covered [] c' := by
  have hsituation := Simulation.situation_prepare (Simulation.fresh config ends) plan
  have hdelivered : ((Simulation.fresh config ends).prepare plan).situation.delivered = [] :=
    congrArg Situation.delivered hsituation
  have hunderway : underway ((Simulation.fresh config ends).prepare plan).situation = [] :=
    List.map_eq_nil_iff.mpr
      (Queue.inTransit_eq_nil (Simulation.submission_of_mem_prepare_fresh plan))
  obtain ⟨s, r, rfl, hsound, -, hcurrent, -, -, hexpected⟩ :=
    eq_of_init sending_lawful receiving_lawful h₁ h₂
  have hrepeatable : repeatable s = [] := by rw [repeatable, hcurrent]; rfl
  refine ⟨hsound, ?_, ?_⟩
  · rw [hdelivered, show r.expected = .zero from hexpected]
    rfl
  · have hnone : underway { ((Simulation.fresh config ends).prepare plan).situation with
        sender := s, receiver := r } = [] := hunderway
    rw [prospect, hnone, hrepeatable, hdelivered]
    exact Nat.le_refl 0

/-- As long as packets arrive at the receiver in order, it never delivers more than the
sender accepted. -/
theorem delivers_at_most_accepted_of_inOrder (hs : Simulation.create config ends = .ok s)
    (plan : List Preparation) (h : (s.prepare plan).history ends n = .ok (turns, s'))
    (hturns : ∀ t ∈ turns, t.before.queue.InOrder .receiver)
    (hlast : s'.queue.InOrder .receiver) : s'.delivered.size ≤ (accepted turns).length := by
  obtain ⟨hvalid, c, s₁, h₁, h₂, hconfig, hwalk⟩ := Simulation.start_of_history hs h
  have hend := Simulation.walk_induction
    (P := fun past t => t.config = config ∧
      ((∀ u ∈ past, u.before.queue.InOrder .receiver) → t.queue.InOrder .receiver →
        Covered (heard past) t.situation))
    ?_ [] ⟨hconfig, fun _ _ => covered_of_start h₁ h₂⟩ hwalk
  · have hle : s'.delivered.toList.length ≤ (accepted turns).length :=
      (hend.2 hturns hlast).length_delivered_le
    rwa [Array.length_toList] at hle
  · rintro past t o t' ⟨htconfig, ht⟩ hstep
    have hc := Simulation.situation_step (htconfig ▸ hvalid.latency) hstep
    refine ⟨hc.config_eq.trans htconfig, fun hpast horder => ?_⟩
    have hnow := hpast ⟨t, o⟩ (List.mem_append_right _ List.mem_cons_self)
    have hcovered := ht (fun u hu => hpast u (List.mem_append_left _ hu)) hnow
    rw [heard_append]
    exact hcovered.step hc horder

end History

/-- A channel that takes up to the time after which packets are sent again. -/
def stretched (seed : UInt64) : Config where
  minLatency := 0
  maxLatency := 3000
  seed

theorem create_stretched (seed : UInt64) :
    Simulation.create (stretched seed) ends = .ok (Simulation.fresh (stretched seed) ends) := by
  have hp : isProbability 0.0 = true := by decide +kernel
  exact Simulation.create_eq_ok_iff.mpr ⟨⟨hp, hp, Nat.zero_le _⟩, rfl⟩

def twoMessages : List Preparation := [.submit 0 [0x41], .submit 3500 [0x42]]

/-- An acknowledgement overtakes the one before it, and the messages arrive in order. -/
theorem delivers_at_most_accepted_over_stretched_link :
    ∃ turns s', ((Simulation.fresh (stretched 17) ends).prepare twoMessages).history ends 20 =
        .ok (turns, s') ∧
      ¬ (∀ t ∈ turns, t.before.queue.InOrder .sender) ∧
      (∀ t ∈ turns, t.before.queue.InOrder .receiver) ∧ s'.queue.InOrder .receiver ∧
      s'.delivered.size ≤ (accepted turns).length := by
  have hrun : (((Simulation.fresh (stretched 17) ends).prepare twoMessages).history ends 20).map
      (fun r => decide (¬ (∀ t ∈ r.1, t.before.queue.InOrder .sender) ∧
        (∀ t ∈ r.1, t.before.queue.InOrder .receiver) ∧ r.2.queue.InOrder .receiver)) =
      .ok true := by
    decide +kernel
  obtain ⟨⟨turns, s'⟩, h, horder⟩ := exists_of_map_eq_ok hrun
  obtain ⟨hovertaken, hturns, hlast⟩ := of_decide_eq_true horder
  exact ⟨turns, s', h, hovertaken, hturns, hlast,
    delivers_at_most_accepted_of_inOrder (create_stretched 17) _ h hturns hlast⟩

/-- The second copy of the first message arrives behind the second message. -/
theorem delivers_more_than_accepted_over_stretched_link :
    ¬ ∀ (config : Config) (s : Simulation Sender Receiver) (plan : List Preparation) (n : Nat)
      (turns : List (Turn Sender Receiver)) (s' : Simulation Sender Receiver),
      Simulation.create config ends = .ok s →
      (s.prepare plan).history ends n = .ok (turns, s') →
      s'.delivered.size ≤ (accepted turns).length := by
  intro h
  have hrun : (((Simulation.fresh (stretched 35) ends).prepare twoMessages).history ends 7).map
      (fun r => decide (r.2.delivered.size = 3 ∧ (accepted r.1).length = 2)) = .ok true := by
    decide +kernel
  obtain ⟨⟨turns, s'⟩, hhistory, hcount⟩ := exists_of_map_eq_ok hrun
  obtain ⟨hdelivered, haccepted⟩ := of_decide_eq_true hcount
  have hle := h _ _ _ _ turns s' (create_stretched 35) hhistory
  simp only at hdelivered haccepted
  omega

end LossyLink.AlternatingBit
