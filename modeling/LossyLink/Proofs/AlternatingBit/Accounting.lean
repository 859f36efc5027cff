import LossyLink.Proofs.AlternatingBit.Delivery
import LossyLink.Proofs.StopAndWait.Accounting
import LossyLink.Report

/-! # What the alternating-bit protocol pays for faults

The receiver takes whatever arrives of a packet, damaged or not, and the sender answers a bad
acknowledgement with its packet at once. So a damaged packet costs nothing, a damaged
acknowledgement costs a packet and a way there and back, and a dropped packet of either
direction costs a packet and a timeout.
-/

namespace LossyLink.AlternatingBit

open Situation

section Ends

variable {s : Sender} {outstanding p : Packet} {b : SeqBit}

/-- An answer ends the waiting or makes the sender send its packet again. -/
theorem onPacket_of_isCopy (hp : (Receiver.ackFor b).IsCopy p) :
    (s.onPacket outstanding p).1.isWaiting = false ∨
      (s.onPacket outstanding p).2.filterMap Action.sent? = [outstanding] := by
  cases hc : p.isCorrupted with
  | true =>
    right
    simp only [Sender.onPacket, hc, Bool.true_or, if_true]
    rfl
  | false =>
    obtain rfl := hp.eq_of_not_isCorrupted (isCorrupted_ackFor b) hc
    have hack : (Receiver.ackFor b).header.isAck = true := Packet.isAck_acknowledgement _ _ _
    cases ha : s.acknowledges (Receiver.ackFor b) with
    | true =>
      left
      simp [Sender.onPacket, hc, ha, Sender.isWaiting]
    | false =>
      right
      simp only [Sender.onPacket, hc, hack, ha, Bool.not_false, Bool.and_self, Bool.or_true,
        if_true]
      rfl

theorem finishes_packet (ho : s.outstanding = some outstanding) :
    s.finishes (.packet p) = !(s.onPacket outstanding p).1.isWaiting := by
  simp [Sender.finishes, Sender.react, Sender.isWaiting, ho]

theorem checks : sending.Checks := by
  intro s b
  show s.finishes (.packet (Receiver.ackFor b).damaged) = false
  have hc : (Receiver.ackFor b).damaged.isCorrupted = true :=
    Packet.isCorrupted_damaged (isCorrupted_ackFor b)
  cases ho : s.outstanding with
  | none => simp [Sender.finishes, Sender.isWaiting, ho]
  | some outstanding =>
    rw [finishes_packet ho]
    simp [Sender.onPacket, hc, Sender.retransmit, Sender.isWaiting, ho]

theorem expected_onPacket {r r' : Receiver} {m : Payload} {actions : List Action}
    (hp : (format.data b m).IsCopy p) (hr : r.onPacket p = (r', actions)) :
    r'.expected = b.flip := by
  have hseq : p.header.seq = b.toUInt32 := hp.seq_eq
  by_cases hb : b = r.expected
  · subst hb
    rw [Receiver.onPacket_of_expected hseq] at hr
    obtain ⟨rfl, -⟩ := Prod.mk.inj hr
    rfl
  · have hne : p.header.seq ≠ r.expected.toUInt32 := fun h =>
      hb (SeqBit.toUInt32_injective (hseq.symm.trans h))
    obtain ⟨text, hanswer⟩ := Receiver.exists_onPacket_of_not_expected hne
    obtain ⟨rfl, -⟩ := Prod.mk.inj (hanswer.symm.trans hr)
    exact SeqBit.eq_flip_of_ne hb

theorem faithful : sending.Faithful receiving where
  accepts := by
    intro s x hx
    cases x with
    | app data => cases hx
    | init => rfl
    | packet p => rfl
    | timer id => rfl
  confirms := by
    intro s _ hw
    obtain ⟨outstanding, ho, -⟩ := Option.map_eq_some_iff.mp (Option.eq_some_of_isSome hw)
    show s.finishes (.packet (Receiver.ackFor s.nextSeq)) = true
    have ha : s.acknowledges (Receiver.ackFor s.nextSeq) = true :=
      Bool.and_eq_true_iff.mpr ⟨Packet.isAck_acknowledgement _ _ _, SeqBit.carriedBy_iff.mpr rfl⟩
    rw [finishes_packet ho]
    simp [Sender.onPacket, isCorrupted_ackFor, ha, Sender.isWaiting]
  expected _ hr := expected_onPacket (.inl rfl) hr

theorem accountable : sending.Accountable receiving True where
  sending := sending_lawful
  receiving := receiving_lawful
  faithful := faithful
  checks := checks
  eager _ := by
    refine ⟨fun _ => rfl, fun _ hp hr => expected_onPacket hp hr, ?_⟩
    intro now s b p s' actions _ hw hp hconfirms hr
    obtain ⟨outstanding, ho, -⟩ := Option.map_eq_some_iff.mp (Option.eq_some_of_isSome hw)
    have hconfirms : s.finishes (.packet p) = false := hconfirms
    rw [finishes_packet ho] at hconfirms
    have hreact : s.react (.packet p) = s.onPacket outstanding p := by simp [Sender.react, ho]
    obtain rfl : (s.onPacket outstanding p).2 = actions :=
      congrArg Prod.snd (hreact.symm.trans hr)
    rcases onPacket_of_isCopy (s := s) hp with hdone | hsent
    · rw [hdone] at hconfirms
      cases hconfirms
    · rw [hsent]
      exact List.cons_ne_nil _ _

end Ends

variable {config : Config} {s s' : Simulation Sender Receiver} {plan : List Preparation}
  {turns : List (Turn Sender Receiver)} {n : Nat}

theorem accounts_of_history (hs : Simulation.create config ends = .ok s)
    (hlatency : 2 * config.maxLatency < timeout)
    (h : (s.prepare plan).history ends n = .ok (turns, s')) : ∃ owed ≤ 1,
    s'.senderPackets + owed =
      (accepted turns).length + s'.dropCount + s'.damageCount .receiver ∧
    (s'.queue.isEmpty → owed = 0 ∧ s'.report.duration ≤ latest plan + timeout * s'.dropCount +
      2 * config.maxLatency * (1 + s'.damageCount .receiver)) := by
  obtain ⟨x, hmoves, hx⟩ := exists_accounted_of_history accountable hlatency hs h
  have hpaid : x.Paid timeout config.maxLatency := Course.paid_of_moves trivial hmoves
  rw [← hx.follows.sent_eq, ← hx.follows.drops_eq, ← hx.follows.damagedAcks_eq]
  refine ⟨x.debt, x.debt_le_one, ?_, ?_⟩
  · rw [hpaid.count, hx.follows.accepted]
    rfl
  · intro hempty
    have hidle := hx.idle_of_drained hempty
    have hprompt := hpaid.prompt
    simp only [Course.Prompt, Course.grant, hidle] at hprompt
    have hlast : x.last ≤ latest plan := hx.follows.last ▸ lastTime_le_latest hs h
    have hduration : s'.report.duration = x.now := hx.follows.now.symm
    rw [hduration, Nat.mul_add, Nat.mul_one]
    constructor
    · simp only [Course.debt, hidle]
    · omega

/-- Every drop and every damaged acknowledgement makes the sender send once more, and nothing
else does. One of them may not have done so yet, but in a drained history all have. -/
theorem packets_accounted (hs : Simulation.create config ends = .ok s)
    (hlatency : 2 * config.maxLatency < timeout) (plan : List Preparation) :
    (∀ n turns s', (s.prepare plan).history ends n = .ok (turns, s') → ∃ owed ≤ 1,
      s'.senderPackets + owed =
        (accepted turns).length + s'.dropCount + s'.damageCount .receiver ∧
      (s'.queue.isEmpty → owed = 0 ∧ s'.report.duration ≤ latest plan + timeout * s'.dropCount +
        2 * config.maxLatency * (1 + s'.damageCount .receiver))) ∧
    ∀ limit s', (s.prepare plan).run ends limit = .ok (true, s') →
      ∃ n ≤ limit, ∃ turns s₁, (s.prepare plan).history ends n = .ok (turns, s₁) ∧
        s' = s₁.close limit true ∧
        s'.senderPackets = (accepted turns).length + s'.dropCount + s'.damageCount .receiver ∧
        s'.report.duration ≤ latest plan + timeout * s'.dropCount +
          2 * config.maxLatency * (1 + s'.damageCount .receiver) := by
  constructor
  · intro n turns s' h
    exact accounts_of_history hs hlatency h
  · intro limit s' hrun
    obtain ⟨n, hn, turns, s₁, h, hempty, rfl⟩ := Simulation.history_of_run hrun
    obtain ⟨owed, -, hcount, hdrained⟩ := accounts_of_history hs hlatency h
    obtain ⟨rfl, hduration⟩ := hdrained hempty
    exact ⟨n, hn, turns, s₁, h, rfl, hcount, hduration⟩

/-- Three messages with time between them, and two drops. -/
def spaced : List Preparation :=
  [.submit 20000 [3], .dropSeq 1, .submit 0 [1, 2], .dropAck 0, .submit 9000 [9]]

/-- The two packets that were damaged cost nothing, unlike the acknowledgement that was. -/
theorem packets_accounted_over_noisy_link :
    ∃ (s' : Simulation Sender Receiver) (n : Nat) (turns : List (Turn Sender Receiver))
      (s₁ : Simulation Sender Receiver),
      ((Simulation.fresh (noisy 10 90) ends).prepare spaced).run ends 1000 = .ok (true, s') ∧
      s'.dropCount = 2 ∧ s'.damageCount .sender = 2 ∧ s'.damageCount .receiver = 1 ∧
      ((Simulation.fresh (noisy 10 90) ends).prepare spaced).history ends n = .ok (turns, s₁) ∧
      s' = s₁.close 1000 true ∧ s'.senderPackets = (accepted turns).length + 2 + 1 ∧
      s'.report.duration ≤ 20000 + 3000 * 2 + 180 * (1 + 1) := by
  have hrun : (((Simulation.fresh (noisy 10 90) ends).prepare spaced).run ends 1000).map
      (fun r => (r.1, r.2.dropCount, r.2.damageCount .sender, r.2.damageCount .receiver)) =
      .ok (true, 2, 2, 1) := by decide +kernel
  obtain ⟨⟨completed, s'⟩, h, hcounts⟩ := exists_of_map_eq_ok hrun
  obtain ⟨rfl, hdrops, hdata, hacks⟩ : completed = true ∧ s'.dropCount = 2 ∧
      s'.damageCount .sender = 2 ∧ s'.damageCount .receiver = 1 := by simpa using hcounts
  obtain ⟨n, -, turns, s₁, hhistory, hclose, hpackets, hduration⟩ :=
    (packets_accounted (create_noisy (by decide)) (by decide) spaced).2 _ _ h
  rw [hdrops, hacks] at hpackets hduration
  exact ⟨s', n, turns, s₁, h, hdrops, hdata, hacks, hhistory, hclose, hpackets, hduration⟩

end LossyLink.AlternatingBit
