import LossyLink.Proofs.Protocol.Reaction
import LossyLink.Proofs.StopAndWait.Senders

/-! # The queueing sender in any environment

Packets of any kind, timers of any name and messages at any time may reach the sender, in any
order. No message is lost, doubled or overtaken on its way from the queue into flight and out
of it, and a packet stays in flight until an intact acknowledgement of its bit comes.
-/

namespace LossyLink.Queued

/-- The packet of the message with a number: its bit is the number modulo two. -/
def dataPacket (i : Nat) (data : Payload) : Packet :=
  Packet.sealed { header := { seq := UInt32.ofNat (i % 2) }, payload := data }

/-- Send a packet and start the timer. -/
def launch (p : Packet) : List Action := [.send p, .start timeout timerId]

/-- The five things that a call can come to. -/
inductive Conduct (r : Reaction Sender) : Prop where
  | begin {data : Payload} {rest : List Payload} (idle : r.before.inFlight = none)
      (unacknowledged : r.before.acknowledged? r.stimulus = none)
      (waiting : r.before.pending ++ r.stimulus.submission?.toList = data :: rest)
      (after : r.after =
        { r.before with pending := rest, inFlight := some (r.before.packetFor data) })
      (effects : r.effects = launch (r.before.packetFor data))
  | advance {p next : Packet} {data : Payload} {rest : List Payload}
      (flying : r.before.inFlight = some p)
      (acknowledged : r.before.acknowledged? r.stimulus = some p.payload)
      (unsubmitted : r.stimulus.submission? = none) (waiting : r.before.pending = data :: rest)
      (next_eq : next = Sender.packetFor { nextSeq := r.before.nextSeq.flip } data)
      (after : r.after =
        { nextSeq := r.before.nextSeq.flip, pending := rest, inFlight := some next })
      (effects : r.effects = .cancel timerId :: launch next)
  | finish {p : Packet} (flying : r.before.inFlight = some p)
      (acknowledged : r.before.acknowledged? r.stimulus = some p.payload)
      (unsubmitted : r.stimulus.submission? = none) (waiting : r.before.pending = [])
      (after : r.after = { nextSeq := r.before.nextSeq.flip })
      (effects : r.effects = [.cancel timerId])
  | again {p : Packet} (flying : r.before.inFlight = some p)
      (unacknowledged : r.before.acknowledged? r.stimulus = none)
      (unsubmitted : r.stimulus.submission? = none) (after : r.after = r.before)
      (effects : r.effects = launch p)
  | keep (unacknowledged : r.before.acknowledged? r.stimulus = none)
      (idle : r.before.inFlight = none → r.stimulus.submission? = none)
      (after : r.after =
        { r.before with pending := r.before.pending ++ r.stimulus.submission?.toList })
      (effects : r.effects = [])

section Conduct

variable {s s' : Sender} {x : Stimulus} {actions : List Action} {now : Nat}

theorem reaction_eq (h : s.react x = (s', actions)) :
    sender.reaction now x s = ⟨s, x, actions, s'⟩ := sender.reaction_eq h

theorem conduct_of_silent (hreact : s.react x = (s, actions))
    (hack : s.acknowledged? x = none) (hx : x.submission? = none)
    (hactions : actions.filter (fun a => a.sent?.isSome || a.timer?.isSome) = []) :
    Conduct (sender.reaction now x s) := by
  rw [reaction_eq hreact]
  apply Conduct.keep hack
  · exact fun _ => hx
  · simp [hx]
  · exact hactions

theorem conduct_packet (s : Sender) (p : Packet) :
    Conduct (sender.reaction now (.packet p) s) := by
  cases hconfirmed : s.confirmedBy (.packet p) with
  | true =>
    obtain ⟨⟨⟨hf, hi⟩, ha⟩, hc⟩ : ((s.inFlight.isSome = true ∧ p.isIntact = true) ∧
        p.header.isAck = true) ∧ s.nextSeq.carriedBy p.header.ack = true := by
      simpa [Sender.confirmedBy] using hconfirmed
    obtain ⟨q, hq⟩ := Option.isSome_iff_exists.mp hf
    have hack : s.acknowledged? (.packet p) = some q.payload := by
      simp [Sender.acknowledged?, hconfirmed, hq]
    cases hpending : s.pending with
    | nil =>
      have hreact : s.react (.packet p) = ({ nextSeq := s.nextSeq.flip },
          [.log s!"RDT2 received ACK for seq {p.header.ack}", .cancel timerId]) := by
        simp [Sender.react, Sender.onAck, Sender.trySend, hi, ha, hf, hc, hpending]
      rw [reaction_eq hreact]
      exact .finish hq hack rfl hpending rfl rfl
    | cons data rest =>
      have hreact : s.react (.packet p) = ((Sender.trySend
          { s with inFlight := none, nextSeq := s.nextSeq.flip }).1,
          .log s!"RDT2 received ACK for seq {p.header.ack}" :: .cancel timerId :: (Sender.trySend
            { s with inFlight := none, nextSeq := s.nextSeq.flip }).2) := by
        simp [Sender.react, Sender.onAck, hi, ha, hf, hc]
      rw [reaction_eq hreact]
      apply Conduct.advance hq hack rfl hpending rfl
      · simp only [Sender.trySend, hpending]
        rfl
      · simp only [Reaction.effects, Sender.trySend, hpending]
        rfl
  | false =>
    have hack : s.acknowledged? (.packet p) = none := by
      simp [Sender.acknowledged?, hconfirmed]
    cases hi : p.isIntact with
    | false =>
      have hreact : s.react (.packet p) = (s, [.log "RDT2 sender dropping corrupted ACK"]) := by
        simp [Sender.react, hi]
      exact conduct_of_silent hreact hack rfl rfl
    | true =>
      have hreact : s.react (.packet p) = (s, []) := by
        simp only [Sender.confirmedBy, hi, Bool.and_true] at hconfirmed
        simp only [Sender.react, Sender.onAck, hi]
        grind
      exact conduct_of_silent hreact hack rfl rfl

theorem conduct_timer (s : Sender) (id : UInt32) :
    Conduct (sender.reaction now (.timer id) s) := by
  cases hq : s.inFlight with
  | none =>
    have hreact : s.react (.timer id) = (s, []) := by simp [Sender.react, hq]
    exact conduct_of_silent hreact rfl rfl rfl
  | some q =>
    by_cases hid : id = timerId
    · have hreact : s.react (.timer id) =
          (s, [.log s!"RDT2 timeout, retransmitting seq {q.header.seq}", .send q,
            .start timeout timerId]) := by
        simp [Sender.react, hq, hid]
      rw [reaction_eq hreact]
      exact .again hq rfl rfl rfl rfl
    · have hreact : s.react (.timer id) = (s, []) := by simp [Sender.react, hq, hid]
      exact conduct_of_silent hreact rfl rfl rfl

theorem conduct_app (s : Sender) (data : Payload) :
    Conduct (sender.reaction now (.app data) s) := by
  cases hq : s.inFlight with
  | some q =>
    have hreact : s.react (.app data) = ({ s with pending := s.pending ++ [data] }, []) := by
      simp [Sender.react, Sender.trySend, hq]
    rw [reaction_eq hreact]
    apply Conduct.keep rfl
    · simp [hq]
    · rfl
    · rfl
  | none =>
    obtain ⟨next, rest, hwaiting⟩ := List.exists_cons_of_ne_nil
      (List.append_ne_nil_of_right_ne_nil s.pending (List.cons_ne_nil data []))
    have hreact : s.react (.app data) =
        ((Sender.trySend { s with pending := next :: rest }).1,
          (Sender.trySend { s with pending := next :: rest }).2) := by
      rw [← hwaiting]
      rfl
    rw [reaction_eq hreact]
    apply Conduct.begin hq rfl hwaiting
    · simp only [Sender.trySend, hq]
      rfl
    · simp only [Reaction.effects, Sender.trySend, hq]
      rfl

theorem conduct (now : Nat) (s : Sender) (hx : x ≠ .init) :
    Conduct (sender.reaction now x s) := by
  cases x with
  | init => exact absurd rfl hx
  | packet p => exact conduct_packet s p
  | timer id => exact conduct_timer s id
  | app data => exact conduct_app s data

end Conduct

/-- The message that a call puts into flight, where nothing was or the message that was there
is acknowledged. -/
def begun? (r : Reaction Sender) : Option Payload :=
  if r.before.inFlight.isNone || (r.before.acknowledged? r.stimulus).isSome then
    r.after.inFlight.map Packet.payload
  else none

namespace Reactions

variable (reactions : List (Reaction Sender))

/-- The messages that the application handed over. -/
def submitted : List Payload := reactions.filterMap fun r => r.stimulus.submission?

/-- The messages whose acknowledgements came through. -/
def acknowledged : List Payload := reactions.filterMap fun r => r.before.acknowledged? r.stimulus

/-- The messages that were put into flight. -/
def begun : List Payload := reactions.filterMap begun?

variable (r : Reaction Sender)

@[simp] theorem submitted_append :
    submitted (reactions ++ [r]) = submitted reactions ++ r.stimulus.submission?.toList := by
  rw [submitted, submitted, List.filterMap_append]
  cases h : r.stimulus.submission? <;> simp [h]

@[simp] theorem acknowledged_append : acknowledged (reactions ++ [r]) =
    acknowledged reactions ++ (r.before.acknowledged? r.stimulus).toList := by
  rw [acknowledged, acknowledged, List.filterMap_append]
  cases h : r.before.acknowledged? r.stimulus <;> simp [h]

@[simp] theorem begun_append :
    begun (reactions ++ [r]) = begun reactions ++ (begun? r).toList := by
  rw [begun, begun, List.filterMap_append]
  cases h : begun? r <;> simp [h]

end Reactions

/-- The sender's state after the calls, told by the calls. -/
structure Standing (reactions : List (Reaction Sender)) (s : Sender) : Prop where
  /-- The bit is the parity of the number of messages acknowledged. -/
  bit : s.nextSeq.toUInt32 = UInt32.ofNat ((Reactions.acknowledged reactions).length % 2)
  /-- What was handed over is acknowledged, in flight or in the queue, in this order. -/
  messages : Reactions.submitted reactions = Reactions.acknowledged reactions ++
    (s.inFlight.map Packet.payload).toList ++ s.pending
  begun : Reactions.begun reactions =
    Reactions.acknowledged reactions ++ (s.inFlight.map Packet.payload).toList
  /-- Nothing waits unless a packet is in flight. -/
  pending : s.pending ≠ [] → s.inFlight.isSome
  /-- The packet in flight is the one of the message put there last. -/
  inFlight : ∀ p, s.inFlight = some p →
    p = dataPacket (Reactions.acknowledged reactions).length p.payload

/-- The event is an intact acknowledgement of the packet. -/
def Acknowledges (q : Packet) (x : Stimulus) : Prop :=
  ∃ p, x = .packet p ∧ p.isIntact = true ∧ p.header.isAck = true ∧ p.header.ack = q.header.seq

/-- The packet in flight leaves it. -/
def Retires (r : Reaction Sender) : Prop :=
  r.before.inFlight.isSome ∧ r.after.inFlight ≠ r.before.inFlight

instance (r : Reaction Sender) : Decidable (Retires r) := inferInstanceAs (Decidable (_ ∧ _))

/-- A call in which the sender keeps to the protocol, after those that came before. -/
structure Proper (past : List (Reaction Sender)) (r : Reaction Sender) : Prop where
  /-- A message that is put into flight is the next one, and its packet goes out under its
  number. -/
  first : ∀ data, begun? r = some data →
    (Reactions.submitted (past ++ [r]))[(Reactions.begun past).length]? = some data ∧
      r.sent = [dataPacket (Reactions.begun past).length data]
  /-- Whatever else goes out is the packet in flight. -/
  again : begun? r = none →
    ∀ p ∈ r.sent, r.before.inFlight = some p ∧ r.after.inFlight = some p
  /-- The timer is stopped when a packet leaves, and then at most one packet goes out, with the
  timer started once; nothing else is sent or timed. -/
  effects : ∃ out : Option Packet, r.effects =
    (if Retires r then [.cancel 1] else []) ++
      out.toList.flatMap fun p => [.send p, .start 1000 1]
  /-- A packet leaves for such an acknowledgement and for nothing else. -/
  retirement : ∀ q, r.before.inFlight = some q → (Retires r ↔ Acknowledges q r.stimulus)

section Step

variable {past : List (Reaction Sender)} {s : Sender} {x : Stimulus}

theorem packetFor_eq {n : Nat} (h : s.nextSeq.toUInt32 = UInt32.ofNat (n % 2)) (data : Payload) :
    s.packetFor data = dataPacket n data := by
  simp only [Sender.packetFor, Packet.simple, dataPacket, h]

@[simp] theorem payload_packetFor (s : Sender) (data : Payload) :
    (s.packetFor data).payload = data := rfl

theorem begun?_of_stays {r : Reaction Sender} (hack : r.before.acknowledged? r.stimulus = none)
    (hstays : r.after.inFlight = r.before.inFlight) : begun? r = none := by
  rw [begun?, hack, hstays]
  cases r.before.inFlight <;> rfl

theorem standing_start : Standing [] sender.start where
  bit := rfl
  messages := rfl
  begun := rfl
  pending := nofun
  inFlight := nofun

/-- The state after a call is told by the calls with this one added. -/
theorem Standing.append {r : Reaction Sender} (h : Standing past r.before) (hr : Conduct r) :
    Standing (past ++ [r]) r.after := by
  have hmessages := h.messages
  have hbegun := h.begun
  cases hr with
  | @begin data rest idle unacknowledged waiting after effects =>
    have hfirst : begun? r = some data := by simp [begun?, idle, after]
    rw [idle] at hmessages hbegun
    rw [after]
    constructor
    · simpa [unacknowledged] using h.bit
    · rw [Reactions.submitted_append, hmessages, List.append_assoc, waiting]
      simp [unacknowledged]
    · simp [hbegun, hfirst, unacknowledged]
    · exact fun _ => rfl
    · rintro p ⟨⟩
      simpa [unacknowledged] using packetFor_eq h.bit data
  | @advance p next data rest flying acknowledged unsubmitted waiting next_eq after effects =>
    have hfirst : begun? r = some data := by simp [begun?, acknowledged, after, next_eq]
    have hbit := SeqBit.toUInt32_flip h.bit
    rw [flying] at hmessages hbegun
    rw [after]
    constructor
    · simpa [acknowledged] using hbit
    · simp [hmessages, unsubmitted, acknowledged, waiting, next_eq]
    · simp [hbegun, hfirst, acknowledged, next_eq]
    · exact fun _ => rfl
    · rintro p ⟨⟩
      rw [next_eq]
      simpa [acknowledged] using packetFor_eq (s := { nextSeq := r.before.nextSeq.flip }) hbit data
  | @finish p flying acknowledged unsubmitted waiting after effects =>
    have hnone : begun? r = none := by simp [begun?, after]
    rw [flying] at hmessages hbegun
    rw [after]
    constructor
    · simpa [acknowledged] using SeqBit.toUInt32_flip h.bit
    · simp [hmessages, unsubmitted, acknowledged, waiting]
    · simp [hbegun, hnone, acknowledged]
    · exact fun hne => absurd rfl hne
    · rintro p ⟨⟩
  | @again p flying unacknowledged unsubmitted after effects =>
    have hnone : begun? r = none := begun?_of_stays unacknowledged (by rw [after])
    rw [after]
    constructor
    · simpa [unacknowledged] using h.bit
    · simpa [unsubmitted, unacknowledged] using hmessages
    · simpa [hnone, unacknowledged] using hbegun
    · exact h.pending
    · simpa [unacknowledged] using h.inFlight
  | keep unacknowledged idle after effects =>
    have hnone : begun? r = none := begun?_of_stays unacknowledged (by rw [after])
    rw [after]
    constructor
    · simpa [unacknowledged] using h.bit
    · simp [hmessages, unacknowledged]
    · simpa [hnone, unacknowledged] using hbegun
    · intro hne
      cases hq : r.before.inFlight with
      | some q => exact rfl
      | none =>
        have hpending : r.before.pending ≠ [] := by simpa [idle hq] using hne
        exact absurd (h.pending hpending) (by simp [hq])
    · simpa [unacknowledged] using h.inFlight

theorem Standing.acknowledges_iff {q : Packet} (h : Standing past s) (hq : s.inFlight = some q) :
    Acknowledges q x ↔ (s.acknowledged? x).isSome := by
  have hbit : q.header.seq = s.nextSeq.toUInt32 := by
    rw [h.bit, h.inFlight q hq]
    rfl
  cases x with
  | init => simp [Acknowledges, Sender.acknowledged?, Sender.confirmedBy]
  | timer id => simp [Acknowledges, Sender.acknowledged?, Sender.confirmedBy]
  | app data => simp [Acknowledges, Sender.acknowledged?, Sender.confirmedBy]
  | packet p =>
    have hcarried : s.nextSeq.carriedBy p.header.ack = true ↔ p.header.ack = q.header.seq := by
      rw [SeqBit.carriedBy_iff, hbit]
    simp [Acknowledges, Sender.acknowledged?, Sender.confirmedBy, hq, hcarried, and_assoc]

theorem Standing.ne_packetFor {q : Packet} (h : Standing past s) (hq : s.inFlight = some q)
    (data : Payload) : Sender.packetFor { nextSeq := s.nextSeq.flip } data ≠ q := by
  intro heq
  have hbit : s.nextSeq.flip.toUInt32 = s.nextSeq.toUInt32 := by
    have hseq : q.header.seq = s.nextSeq.toUInt32 := by
      rw [h.bit, h.inFlight q hq]
      rfl
    rw [← hseq, ← heq]
    rfl
  exact SeqBit.flip_ne _ (SeqBit.toUInt32_injective hbit)

/-- The message that is put into flight is the next of those handed over, and its packet is in
flight after the call. -/
theorem Standing.next_of_begun {r : Reaction Sender} {data : Payload}
    (h : Standing (past ++ [r]) r.after) (hfirst : begun? r = some data) :
    (Reactions.submitted (past ++ [r]))[(Reactions.begun past).length]? = some data ∧
      r.after.inFlight = some (dataPacket (Reactions.begun past).length data) := by
  obtain ⟨p, hp, rfl⟩ : ∃ p, r.after.inFlight = some p ∧ p.payload = data := by
    simpa using (Option.ite_none_right_eq_some.mp hfirst).2
  have hbegun := h.begun
  rw [Reactions.begun_append, hfirst, hp] at hbegun
  have hpast : Reactions.begun past = Reactions.acknowledged (past ++ [r]) :=
    List.append_inj_left' hbegun rfl
  constructor
  · rw [h.messages, ← hpast, hp, List.append_assoc, List.getElem?_append_right (Nat.le_refl _),
      Nat.sub_self]
    rfl
  · rw [hpast, hp]
    exact congrArg some (h.inFlight p hp)

theorem Standing.first_of_sent {r : Reaction Sender} {q : Packet}
    (h : Standing (past ++ [r]) r.after) (hflying : r.after.inFlight = some q)
    (hsent : r.sent = [q]) : ∀ data, begun? r = some data →
      (Reactions.submitted (past ++ [r]))[(Reactions.begun past).length]? = some data ∧
        r.sent = [dataPacket (Reactions.begun past).length data] := by
  intro data hdata
  obtain ⟨hsubmitted, hnext⟩ := h.next_of_begun hdata
  obtain rfl := Option.some.inj (hflying.symm.trans hnext)
  exact ⟨hsubmitted, hsent⟩

theorem Proper.of_not_begun {r : Reaction Sender} (hnone : begun? r = none)
    (again : ∀ p ∈ r.sent, r.before.inFlight = some p ∧ r.after.inFlight = some p)
    (effects : ∃ out : Option Packet, r.effects = (if Retires r then [.cancel 1] else []) ++
      out.toList.flatMap fun p => [.send p, .start 1000 1])
    (retirement : ∀ q, r.before.inFlight = some q → (Retires r ↔ Acknowledges q r.stimulus)) :
    Proper past r where
  first data hdata := by
    rw [hnone] at hdata
    cases hdata
  again _ := again
  effects := effects
  retirement := retirement

/-- Whatever a call comes to, it is a proper one. -/
theorem Standing.proper {r : Reaction Sender} (h : Standing past r.before) (hr : Conduct r) :
    Proper past r := by
  have hnext := h.append hr
  cases hr with
  | @begin data rest idle unacknowledged waiting after effects =>
    have hfirst : begun? r = some data := by simp [begun?, idle, after]
    have hretires : ¬ Retires r := by simp [Retires, idle]
    constructor
    · apply hnext.first_of_sent
      · rw [after]
      · rw [Reaction.sent_eq_effects, effects]
        rfl
    · intro hnone
      rw [hfirst] at hnone
      cases hnone
    · use some (r.before.packetFor data)
      rw [effects, if_neg hretires]
      rfl
    · intro q hq
      rw [idle] at hq
      cases hq
  | @advance p next data rest flying acknowledged unsubmitted waiting next_eq after effects =>
    have hfirst : begun? r = some data := by simp [begun?, acknowledged, after, next_eq]
    have hretires : Retires r := by
      constructor
      · simp [flying]
      · rw [after, flying, next_eq]
        exact fun heq => h.ne_packetFor flying data (Option.some.inj heq)
    constructor
    · apply hnext.first_of_sent
      · rw [after]
      · rw [Reaction.sent_eq_effects, effects]
        rfl
    · intro hnone
      rw [hfirst] at hnone
      cases hnone
    · use some next
      rw [effects, if_pos hretires]
      rfl
    · intro q hq
      rw [h.acknowledges_iff hq, acknowledged]
      exact iff_of_true hretires rfl
  | @finish p flying acknowledged unsubmitted waiting after effects =>
    have hretires : Retires r := by simp [Retires, flying, after]
    apply Proper.of_not_begun
    · simp [begun?, after]
    · intro q hq
      rw [Reaction.sent_eq_effects, effects] at hq
      cases hq
    · use none
      rw [effects, if_pos hretires]
      rfl
    · intro q hq
      rw [h.acknowledges_iff hq, acknowledged]
      exact iff_of_true hretires rfl
  | @again p flying unacknowledged unsubmitted after effects =>
    have hretires : ¬ Retires r := by simp [Retires, after]
    apply Proper.of_not_begun
    · exact begun?_of_stays unacknowledged (by rw [after])
    · intro q hq
      rw [Reaction.sent_eq_effects, effects] at hq
      obtain rfl : q = p := List.mem_singleton.mp hq
      rw [after]
      exact ⟨flying, flying⟩
    · use some p
      rw [effects, if_neg hretires]
      rfl
    · intro q hq
      rw [h.acknowledges_iff hq, unacknowledged]
      exact iff_of_false hretires Bool.false_ne_true
  | keep unacknowledged idle after effects =>
    have hretires : ¬ Retires r := by simp [Retires, after]
    apply Proper.of_not_begun
    · exact begun?_of_stays unacknowledged (by rw [after])
    · intro q hq
      rw [Reaction.sent_eq_effects, effects] at hq
      cases hq
    · use none
      rw [effects, if_neg hretires]
      rfl
    · intro q hq
      rw [h.acknowledges_iff hq, unacknowledged]
      exact iff_of_false hretires Bool.false_ne_true

end Step

/-- Whatever happens to a fresh sender, its messages keep their order from call to call, and in
every call it keeps to the protocol. -/
theorem keeps_order_in_any_environment {xs : List (Nat × Stimulus)}
    (h : ∀ x ∈ xs, x.2 ≠ .init) :
    (sender.reactions xs sender.start).map Reaction.actions = (sender.run xs sender.start).2 ∧
    Standing (sender.reactions xs sender.start) (sender.run xs sender.start).1 ∧
    ∀ past r rest, sender.reactions xs sender.start = past ++ r :: rest →
      Standing past r.before ∧ Proper past r := by
  obtain ⟨hend, hcalls⟩ := sender.holds_throughout (I := Standing) (A := (· ≠ .init))
    (fun now hx hs => hs.append (conduct now _ hx)) standing_start h
  rw [List.nil_append] at hend
  constructor
  · exact sender.actions_reactions xs _
  · constructor
    · exact hend
    · intro past r rest hsplit
      obtain ⟨hstanding, now, x, hx, hr⟩ := hcalls past r rest hsplit
      rw [List.nil_append] at hstanding
      have hconduct : Conduct r := hr ▸ conduct now r.before hx
      exact ⟨hstanding, hstanding.proper hconduct⟩

/-- Before the first of three messages is acknowledged there come a timer of no packet, the
timer, an acknowledgement of the other bit, a damaged one, and a packet that acknowledges
nothing. -/
def trial : List (Nat × Stimulus) :=
  [(0, .app [88]), (10, .app [90]), (20, .timer 7), (30, .timer 1),
    (40, .packet (Packet.acknowledgement 1 1 0).sealed),
    (50, .packet ((Packet.acknowledgement 0 0 0).withChecksum 1)),
    (60, .packet (Packet.simple 0 0 0 []).sealed),
    (70, .packet (Packet.acknowledgement 0 0 0).sealed), (80, .app [89])]

theorem keeps_order_under_trial : (∀ x ∈ trial, x.2 ≠ .init) ∧
    Reactions.submitted (sender.reactions trial sender.start) = [[88], [90], [89]] ∧
    Reactions.acknowledged (sender.reactions trial sender.start) = [[88]] ∧
    (sender.run trial sender.start).1.nextSeq.toUInt32 = UInt32.ofNat (1 % 2) ∧
    (sender.run trial sender.start).1.pending = [[89]] ∧
    (sender.run trial sender.start).1.inFlight.isSome ∧
    (sender.reactions trial sender.start).flatMap Reaction.sent =
      [dataPacket 0 [88], dataPacket 0 [88], dataPacket 1 [90]] := by
  have htrial : ∀ x ∈ trial, x.2 ≠ .init := by decide
  have hacknowledged :
      Reactions.acknowledged (sender.reactions trial sender.start) = [[88]] := by
    decide +kernel
  have hpending : (sender.run trial sender.start).1.pending = [[89]] := by decide +kernel
  obtain ⟨-, hstanding, -⟩ := keeps_order_in_any_environment htrial
  have hbit := hstanding.bit
  rw [hacknowledged] at hbit
  refine ⟨htrial, by decide +kernel, hacknowledged, hbit, hpending, ?_, by decide +kernel⟩
  exact hstanding.pending (by rw [hpending]; exact List.cons_ne_nil _ _)

end LossyLink.Queued
