import LossyLink.Proofs.StopAndWait.Sides
import LossyLink.Protocol.Queued

/-! # Stop-and-wait with a queue: the two sides

What the application submits joins the backlog, and an acknowledgement sends the
next message off at once. The receiver's memory of its last acknowledgement is the
bit before the one that it expects.
-/

namespace LossyLink.Queued

namespace Sender

/-- The event is the acknowledgement of the packet in flight. -/
def confirmedBy (s : Sender) : Stimulus → Bool
  | .packet p =>
    s.inFlight.isSome && p.isIntact && p.header.isAck && s.nextSeq.carriedBy p.header.ack
  | .init => false
  | .timer _ => false
  | .app _ => false

/-- The packet in flight carries its message under the present bit, and nothing waits
while there is none. -/
structure Sound (s : Sender) : Prop where
  packet : ∀ p, s.inFlight = some p → s.packetFor p.payload = p
  pending : s.inFlight = none → s.pending = []

end Sender

def format : Format where
  data b m := Sender.packetFor { nextSeq := b } m
  ack := Receiver.ackFor

def sending : SendingSide format Sender where
  endpoint := sender
  timeout := timeout
  timerId _ := timerId
  bit := Sender.nextSeq
  current s := s.inFlight.map Packet.payload
  backlog := Sender.pending
  accepted? _ := Stimulus.submission?
  confirms := Sender.confirmedBy
  Sound := Sender.Sound

def receiving : ReceivingSide format Receiver where
  endpoint := receiver
  expected := Receiver.expected
  Sound r := r.lastAcked = r.expected.flip

section Sender

variable {s s' : Sender} {p : Packet} {actions : List Action}

theorem eq_of_carriedBy {b : SeqBit} (hp : (Receiver.ackFor b).IsCopy p)
    (hi : p.isIntact = true) (hc : s.nextSeq.carriedBy p.header.ack = true) : b = s.nextSeq := by
  obtain rfl := hp.eq_of_isIntact (Packet.isIntact_sealed _) hi
  exact SeqBit.toUInt32_injective (SeqBit.carriedBy_iff.mp hc)

theorem change_refl {x : Stimulus} (hx : x.submission? = none) (hc : s.confirmedBy x = false) :
    sending.Change s x s := by
  refine .stay rfl (.inr rfl) ?_ hc
  simp [sending, hx]

theorem reply_silent (hs : s.Sound) {x : Stimulus} (hx : x.submission? = none)
    (hc : s.confirmedBy x = false) (hq : Quiet actions)
    (ht : x = .timer timerId → s.inFlight = none) : sending.Reply s x s actions where
  sound := hs
  change := change_refl hx hc
  output := .silent rfl rfl (fun h => by simp [sending, ht h]) hq
  delivered := hq.delivered

/-- The acknowledgement sends the next message off, if there is one. -/
theorem reply_confirmed (hi : p.isIntact = true) (ha : p.header.isAck = true)
    (hf : s.inFlight.isSome = true) (hc : s.nextSeq.carriedBy p.header.ack = true)
    (hr : s.onAck p.header.ack = (s', actions)) : sending.Reply s (.packet p) s' actions := by
  have hconfirmed : s.confirmedBy (.packet p) = true := by
    simp [Sender.confirmedBy, hi, ha, hf, hc]
  have hwaiting : (sending.current s).isSome := by simpa [sending] using hf
  have hack : ∀ b, (format.ack b).IsCopy p → b = s.nextSeq := fun b hb => eq_of_carriedBy hb hi hc
  simp only [Sender.onAck, hf, hc, Bool.and_self, if_true] at hr
  cases hpending : s.pending with
  | nil =>
    simp only [Sender.trySend, hpending] at hr
    obtain ⟨rfl, rfl⟩ := Prod.mk.inj hr
    refine ⟨⟨nofun, fun _ => rfl⟩, ?_, .released rfl rfl rfl rfl, rfl⟩
    exact .advance rfl hack hwaiting rfl hpending.symm rfl hconfirmed
  | cons data pending =>
    simp only [Sender.trySend, hpending] at hr
    obtain ⟨rfl, rfl⟩ := Prod.mk.inj hr
    refine ⟨⟨?_, nofun⟩, ?_, ?_, rfl⟩
    · rintro q ⟨⟩
      rfl
    · exact .advance rfl hack hwaiting rfl hpending.symm rfl hconfirmed
    · exact .sending (m := data) [timerId] rfl (.answered rfl) rfl rfl

theorem reply_packet (hs : s.Sound) (hr : s.react (.packet p) = (s', actions)) :
    sending.Reply s (.packet p) s' actions := by
  unfold Sender.react at hr
  simp only at hr
  split at hr
  · rename_i hi
    obtain ⟨rfl, rfl⟩ := Prod.mk.inj hr
    exact reply_silent hs rfl (by simp_all [Sender.confirmedBy]) (.log _) nofun
  · rename_i hi
    have hi : p.isIntact = true := by simpa using hi
    split at hr
    · rename_i ha
      by_cases hc : s.inFlight.isSome && s.nextSeq.carriedBy p.header.ack
      · obtain ⟨hf, hc⟩ := Bool.and_eq_true_iff.mp hc
        exact reply_confirmed hi ha hf hc hr
      · have hstay : s.onAck p.header.ack = (s, []) := if_neg hc
        obtain ⟨rfl, rfl⟩ := Prod.mk.inj (hstay.symm.trans hr)
        exact reply_silent hs rfl (by simp_all [Sender.confirmedBy]) .nil nofun
    · obtain ⟨rfl, rfl⟩ := Prod.mk.inj hr
      exact reply_silent hs rfl (by simp_all [Sender.confirmedBy]) .nil nofun

theorem reply_timer {id : UInt32} (hs : s.Sound) (hr : s.react (.timer id) = (s', actions)) :
    sending.Reply s (.timer id) s' actions := by
  unfold Sender.react at hr
  simp only at hr
  split at hr
  · rename_i p hp
    split at hr
    · rename_i hid
      subst hid
      obtain ⟨rfl, rfl⟩ := Prod.mk.inj hr
      refine ⟨hs, change_refl rfl rfl, ?_, rfl⟩
      refine .sending (m := p.payload) [] ?_ (.expired rfl) ?_ rfl
      · simp [sending, hp]
      · exact congrArg (fun q => [q]) (hs.packet p hp).symm
    · rename_i hid
      obtain ⟨rfl, rfl⟩ := Prod.mk.inj hr
      exact reply_silent hs rfl rfl .nil fun h => absurd (Stimulus.timer.inj h) hid
  · rename_i hp
    obtain ⟨rfl, rfl⟩ := Prod.mk.inj hr
    exact reply_silent hs rfl rfl .nil fun _ => hp

theorem reply_app {data : Payload} (hs : s.Sound) (hr : s.react (.app data) = (s', actions)) :
    sending.Reply s (.app data) s' actions := by
  cases hf : s.inFlight with
  | none =>
    simp only [Sender.react, Sender.trySend, hf, hs.pending hf, List.nil_append] at hr
    obtain ⟨rfl, rfl⟩ := Prod.mk.inj hr
    have hcurrent : sending.current s = none := by simp [sending, hf]
    refine ⟨⟨?_, nofun⟩, .stay rfl (.inl hcurrent) ?_ rfl, ?_, rfl⟩
    · rintro q ⟨⟩
      rfl
    · rw [hcurrent, show sending.backlog s = [] from hs.pending hf]
      rfl
    · exact .sending (m := data) [] rfl (.idle hcurrent) rfl rfl
  | some p =>
    have hbusy : s.react (.app data) = ({ s with pending := s.pending ++ [data] }, []) := by
      simp [Sender.react, Sender.trySend, hf]
    obtain ⟨rfl, rfl⟩ := Prod.mk.inj (hbusy.symm.trans hr)
    refine ⟨⟨hs.packet, ?_⟩, .stay rfl (.inr rfl) ?_ rfl, ?_, rfl⟩
    · intro hn
      exact absurd (hn.symm.trans hf) nofun
    · exact (List.append_assoc _ _ _).symm
    · exact .silent rfl rfl nofun .nil

theorem sending_lawful : sending.Lawful where
  init now s := ⟨{}, _, rfl, ⟨nofun, fun _ => rfl⟩, rfl, rfl, rfl, .log _⟩
  reply := by
    intro now s x s' actions hs hx hr
    cases x with
    | init => exact absurd rfl hx
    | packet p => exact reply_packet hs hr
    | timer id => exact reply_timer hs hr
    | app data => exact reply_app hs hr
  backlog_eq_nil := by
    intro s hs hc
    exact hs.pending (Option.map_eq_none_iff.mp hc)

end Sender

namespace Receiver

variable {r : Receiver} {p : Packet}

/-- A packet is taken if it is intact and carries the bit expected. -/
def Takes (r : Receiver) (p : Packet) : Prop :=
  p.isIntact = true ∧ p.header.seq = r.expected.toUInt32

theorem exists_onPacket_of_takes (h : r.Takes p) :
    ∃ first second, r.onPacket p = ({ expected := r.expected.flip, lastAcked := r.expected },
      [.log first, .deliver p.payload, .log second, .send (ackFor r.expected)]) := by
  obtain ⟨hi, hseq⟩ := h
  have hcarried : r.expected.carriedBy p.header.seq = true := SeqBit.carriedBy_iff.mpr hseq
  simp only [onPacket, sendAck, hi, hcarried]
  exact ⟨_, _, rfl⟩

theorem exists_onPacket_of_not_takes (h : ¬ r.Takes p) :
    ∃ first second, r.onPacket p =
      (r, [.log first, .log second, .send (ackFor r.lastAcked)]) := by
  cases hi : p.isIntact with
  | false =>
    simp only [onPacket, sendAck, hi]
    exact ⟨_, _, rfl⟩
  | true =>
    have hcarried : r.expected.carriedBy p.header.seq = false := by
      apply Bool.eq_false_iff.mpr
      intro hcarried
      exact h ⟨hi, SeqBit.carriedBy_iff.mp hcarried⟩
    simp only [onPacket, sendAck, hi, hcarried]
    exact ⟨_, _, rfl⟩

end Receiver

section Receiver

variable {r r' : Receiver} {p : Packet} {b : SeqBit} {m : Payload} {actions : List Action}

theorem sound_onPacket (hr : receiving.Sound r) : receiving.Sound (r.onPacket p).1 := by
  by_cases ht : r.Takes p
  · obtain ⟨first, second, hanswer⟩ := Receiver.exists_onPacket_of_takes ht
    rw [hanswer]
    exact (SeqBit.flip_flip _).symm
  · obtain ⟨first, second, hanswer⟩ := Receiver.exists_onPacket_of_not_takes ht
    rw [hanswer]
    exact hr

/-- A damaged packet is answered as one with the other bit is. -/
theorem answer_of_isCopy (hs : receiving.Sound r) (hp : (format.data b m).IsCopy p)
    (hr : r.onPacket p = (r', actions)) : receiving.Answer r b m r' actions := by
  have hseq : p.header.seq = b.toUInt32 := hp.seq_eq
  have hpayload : p.payload = m := hp.payload_eq
  by_cases ht : r.Takes p
  · have hb : b = r.expected := SeqBit.toUInt32_injective (hseq.symm.trans ht.2)
    obtain ⟨first, second, hanswer⟩ := Receiver.exists_onPacket_of_takes ht
    obtain ⟨rfl, rfl⟩ := Prod.mk.inj (hanswer.symm.trans hr)
    constructor
    · exact .inl ⟨hb, congrArg SeqBit.flip hb.symm, congrArg (fun data => [data]) hpayload⟩
    · exact congrArg (fun b => [Receiver.ackFor b]) (SeqBit.flip_flip _).symm
    · rfl
  · have hack : r.lastAcked = r.expected.flip := hs
    obtain ⟨first, second, hanswer⟩ := Receiver.exists_onPacket_of_not_takes ht
    obtain ⟨rfl, rfl⟩ := Prod.mk.inj (hanswer.symm.trans hr)
    constructor
    · exact .inr ⟨rfl, rfl⟩
    · exact congrArg (fun b => [Receiver.ackFor b]) hack
    · rfl

theorem receiving_lawful : receiving.Lawful where
  init now r := ⟨{}, _, rfl, rfl, rfl, .log _⟩
  sound := by
    intro now r x hr _
    cases x with
    | init => rfl
    | packet p => exact sound_onPacket hr
    | timer id => exact hr
    | app data => exact hr
  answer := by
    intro now r p b m r' actions hs hp hr
    exact answer_of_isCopy hs hp hr
  timer _ _ _ := rfl

end Receiver

end LossyLink.Queued
