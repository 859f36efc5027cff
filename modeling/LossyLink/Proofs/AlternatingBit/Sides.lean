import LossyLink.Proofs.StopAndWait.Sides
import LossyLink.Protocol.AlternatingBit

/-! # The alternating-bit protocol as stop-and-wait

The sender turns away what comes while it waits, so it has no backlog. It names its
timer by its bit, and it takes an acknowledgement for good only if the checksum
agrees; any other answer makes it send its packet again.
-/

namespace LossyLink.AlternatingBit

namespace Sender

/-- The message that the sender takes on. -/
def taken? (s : Sender) : Stimulus → Option Payload
  | .app data => if s.isWaiting then none else some data
  | .init => none
  | .packet _ => none
  | .timer _ => none

/-- The sender waits, and no longer does after the event. -/
def finishes (s : Sender) (x : Stimulus) : Bool := s.isWaiting && !(s.react x).1.isWaiting

/-- The outstanding packet carries its message under the present bit. -/
def Sound (s : Sender) : Prop := ∀ p, s.outstanding = some p → s.packetFor p.payload = p

end Sender

def format : Format where
  data b m := Sender.packetFor { nextSeq := b } m
  ack := Receiver.ackFor

def sending : SendingSide format Sender where
  endpoint := sender
  timeout := timeout
  timerId := SeqBit.toUInt32
  bit := Sender.nextSeq
  current s := s.outstanding.map Packet.payload
  backlog _ := []
  accepted? := Sender.taken?
  confirms := Sender.finishes
  Sound := Sender.Sound

def receiving : ReceivingSide format Receiver where
  endpoint := receiver
  expected := Receiver.expected
  Sound _ := True

section Sender

variable {s s' : Sender} {p outstanding : Packet} {actions : List Action}

theorem isCorrupted_ackFor (b : SeqBit) : (Receiver.ackFor b).isCorrupted = false := by
  simp [Packet.isCorrupted, Receiver.ackFor]

/-- Only the acknowledgement of the sender's own bit gets through. -/
theorem eq_of_acknowledges {b : SeqBit} (hp : (Receiver.ackFor b).IsCopy p)
    (hc : p.isCorrupted = false) (ha : s.acknowledges p = true) : b = s.nextSeq := by
  obtain rfl := hp.eq_of_not_isCorrupted (isCorrupted_ackFor b) hc
  have hcarried := (Bool.and_eq_true_iff.mp ha).2
  exact SeqBit.toUInt32_injective (SeqBit.carriedBy_iff.mp hcarried)

theorem change_refl {x : Stimulus} (hx : s.taken? x = none) (hr : s.react x = (s, actions)) :
    sending.Change s x s := by
  refine .stay rfl (.inr rfl) ?_ ?_
  · simp [sending, hx]
  · simp [sending, Sender.finishes, hr]

theorem reply_silent (hs : s.Sound) {x : Stimulus} (hx : s.taken? x = none)
    (hr : s.react x = (s, actions)) (hq : Quiet actions)
    (ht : x = .timer s.timerId → s.outstanding = none) : sending.Reply s x s actions where
  sound := hs
  change := change_refl hx hr
  output := .silent rfl rfl (fun h => by simp [sending, ht h]) hq
  delivered := hq.delivered

theorem reply_retransmit (hs : s.Sound) (ho : s.outstanding = some outstanding) {x : Stimulus}
    (hx : s.taken? x = none) (hr : s.react x = ((s.retransmit outstanding).1, actions))
    {ids : List UInt32} (hw : sending.Occasion s x ids)
    (hsent : actions.filterMap Action.sent? = [outstanding])
    (htimers : actions.filterMap Action.timer? =
      ids.map .cancel ++ [.start timeout s.timerId])
    (hdelivered : actions.filterMap Action.delivered? = []) :
    sending.Reply s x (s.retransmit outstanding).1 actions where
  sound := hs
  change := by
    refine .stay rfl (.inr rfl) ?_ ?_
    · simp [sending, Sender.retransmit, hx]
    · have hw : (s.retransmit outstanding).1.isWaiting = s.isWaiting := rfl
      simp [sending, Sender.finishes, hr, hw]
  output := by
    refine .sending (m := outstanding.payload) ids ?_ hw ?_ htimers
    · simp [sending, Sender.retransmit, ho]
    · rw [hsent]
      exact congrArg (fun p => [p]) (hs outstanding ho).symm
  delivered := hdelivered

theorem reply_packet (hs : s.Sound) (hr : s.react (.packet p) = (s', actions)) :
    sending.Reply s (.packet p) s' actions := by
  cases ho : s.outstanding with
  | none =>
    have hreact : s.react (.packet p) = (s, []) := by simp [Sender.react, ho]
    obtain ⟨rfl, rfl⟩ := Prod.mk.inj (hreact.symm.trans hr)
    exact reply_silent hs rfl hreact .nil nofun
  | some outstanding =>
    have hreact : s.react (.packet p) = s.onPacket outstanding p := by simp [Sender.react, ho]
    have hon := hreact.symm.trans hr
    unfold Sender.onPacket at hon
    split at hon
    · obtain ⟨rfl, rfl⟩ := Prod.mk.inj hon
      exact reply_retransmit hs ho rfl hr (.answered rfl) rfl rfl rfl
    · rename_i hgood
      have hc : p.isCorrupted = false := by simp_all
      split at hon
      · rename_i hack
        obtain ⟨rfl, rfl⟩ := Prod.mk.inj hon
        refine ⟨nofun, ?_, .released rfl rfl rfl rfl, rfl⟩
        refine .advance rfl (fun b hb => eq_of_acknowledges hb hc hack) ?_ rfl rfl rfl ?_
        · simp [sending, ho]
        · simp [sending, Sender.finishes, Sender.isWaiting, ho, hr]
      · obtain ⟨rfl, rfl⟩ := Prod.mk.inj hon
        exact reply_silent hs rfl hr .nil nofun

theorem reply_timer {id : UInt32} (hs : s.Sound) (hr : s.react (.timer id) = (s', actions)) :
    sending.Reply s (.timer id) s' actions := by
  have hreact := hr
  unfold Sender.react at hreact
  simp only at hreact
  split at hreact
  · rename_i outstanding ho
    split at hreact
    · rename_i hid
      obtain ⟨rfl, rfl⟩ := Prod.mk.inj hreact
      exact reply_retransmit hs ho rfl hr (.expired (congrArg Stimulus.timer hid)) rfl rfl rfl
    · rename_i hid
      obtain ⟨rfl, rfl⟩ := Prod.mk.inj hreact
      exact reply_silent hs rfl hr .nil fun h =>
        absurd (Stimulus.timer.inj h) hid
  · rename_i ho
    obtain ⟨rfl, rfl⟩ := Prod.mk.inj hreact
    exact reply_silent hs rfl hr .nil fun _ => ho

theorem reply_app {data : Payload} (hs : s.Sound) (hr : s.react (.app data) = (s', actions)) :
    sending.Reply s (.app data) s' actions := by
  have hreact := hr
  simp only [Sender.react] at hreact
  split at hreact
  · rename_i hw
    obtain ⟨rfl, rfl⟩ := Prod.mk.inj hreact
    exact reply_silent hs (by simp [Sender.taken?, hw]) hr (.log _) nofun
  · rename_i hw
    have ho : s.outstanding = none := by simpa [Sender.isWaiting] using hw
    obtain ⟨rfl, rfl⟩ := Prod.mk.inj hreact
    refine ⟨?_, ?_, ?_, rfl⟩
    · rintro p ⟨⟩
      rfl
    · refine .stay rfl (.inl ?_) ?_ ?_
      · simp [sending, ho]
      · simp [sending, Sender.taken?, Sender.packetFor, ho, hw]
      · simp [sending, Sender.finishes, hw]
    · exact .sending (m := data) [] rfl (.idle (by simp [sending, ho])) rfl rfl

theorem sending_lawful : sending.Lawful where
  init now s := ⟨{}, [], rfl, nofun, rfl, rfl, rfl, .nil⟩
  reply := by
    intro now s x s' actions hs hx hr
    cases x with
    | init => exact absurd rfl hx
    | packet p => exact reply_packet hs hr
    | timer id => exact reply_timer hs hr
    | app data => exact reply_app hs hr
  backlog_eq_nil _ _ := rfl

end Sender

namespace Receiver

variable {r : Receiver} {p : Packet}

theorem onPacket_of_expected (h : p.header.seq = r.expected.toUInt32) :
    r.onPacket p = ({ expected := r.expected.flip },
      [.log s!"Received correct packet {p.header.seq}", .deliver p.payload,
        .send (ackFor r.expected)]) := by
  simp [onPacket, h]

theorem exists_onPacket_of_not_expected (h : p.header.seq ≠ r.expected.toUInt32) :
    ∃ text, r.onPacket p = (r, [.log text, .send (ackFor r.expected.flip)]) := by
  cases hbit : SeqBit.ofRaw p.header.seq with
  | error e =>
    simp only [onPacket, hbit]
    exact ⟨_, rfl⟩
  | ok bit =>
    have hne : bit ≠ r.expected := by
      rintro rfl
      exact h (SeqBit.ofRaw_eq_ok_iff.mp hbit)
    simp only [onPacket, hbit, if_neg hne]
    exact ⟨_, rfl⟩

end Receiver

theorem answer_of_isCopy {r r' : Receiver} {p : Packet} {b : SeqBit} {m : Payload}
    {actions : List Action} (hp : (format.data b m).IsCopy p)
    (hr : r.onPacket p = (r', actions)) : receiving.Answer r b m r' actions := by
  have hseq : p.header.seq = b.toUInt32 := hp.seq_eq
  have hpayload : p.payload = m := hp.payload_eq
  by_cases hb : b = r.expected
  · subst hb
    rw [Receiver.onPacket_of_expected hseq] at hr
    obtain ⟨rfl, rfl⟩ := Prod.mk.inj hr
    constructor
    · exact .inl ⟨rfl, rfl, congrArg (fun data => [data]) hpayload⟩
    · exact congrArg (fun b => [Receiver.ackFor b]) (SeqBit.flip_flip _).symm
    · rfl
  · have hne : p.header.seq ≠ r.expected.toUInt32 := fun h =>
      hb (SeqBit.toUInt32_injective (hseq.symm.trans h))
    obtain ⟨text, hanswer⟩ := Receiver.exists_onPacket_of_not_expected hne
    obtain ⟨rfl, rfl⟩ := Prod.mk.inj (hanswer.symm.trans hr)
    exact ⟨.inr ⟨rfl, rfl⟩, rfl, rfl⟩

theorem receiving_lawful : receiving.Lawful where
  init now r := ⟨{}, [], rfl, trivial, rfl, .nil⟩
  sound _ _ := trivial
  answer := by
    intro now r p b m r' actions _ hp hr
    exact answer_of_isCopy hp hr
  timer _ _ _ := rfl

end LossyLink.AlternatingBit
