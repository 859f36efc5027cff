import LossyLink.Proofs.Binary64.Whole
import LossyLink.Proofs.Protocol.Reaction
import LossyLink.Proofs.StopAndWait.Senders

/-! # The alternating-bit sender in any environment

Packets of any kind, timers of any name and messages at any time may reach the sender, in any
order. It numbers the messages that it accepts, sends the packet of each at once and no other
packet until an intact acknowledgement of it comes, and counts how often it sent one again.
-/

namespace LossyLink

namespace AlternatingBit

namespace Sender

/-- A packet that makes the sender send again stops the timer first. -/
def cancels (s : Sender) : Stimulus → List TimerOp
  | .packet _ => [.cancel s.timerId]
  | .init => []
  | .timer _ => []
  | .app _ => []

end Sender

/-- The four things that a call can come to. -/
inductive Conduct (r : Reaction Sender) : Prop where
  | accept {data : Payload} (idle : r.before.outstanding = none)
      (taken : r.before.taken? r.stimulus = some data)
      (unacknowledged : r.before.acknowledged? r.stimulus = none)
      (after : r.after = { r.before with outstanding := some (r.before.packetFor data) })
      (sent : r.sent = [r.before.packetFor data])
      (timers : r.timers = r.before.cancels r.stimulus ++ [.start timeout r.before.timerId])
      (samples : r.samples = [])
  | again {outstanding : Packet} (waiting : r.before.outstanding = some outstanding)
      (untaken : r.before.taken? r.stimulus = none)
      (unacknowledged : r.before.acknowledged? r.stimulus = none)
      (after : r.after = { r.before with retransmissions := r.before.retransmissions + 1 })
      (sent : r.sent = [outstanding])
      (timers : r.timers = r.before.cancels r.stimulus ++ [.start timeout r.before.timerId])
      (samples : r.samples =
        [("retransmissions", Float.ofNat (r.before.retransmissions + 1))])
  | release {outstanding : Packet} (waiting : r.before.outstanding = some outstanding)
      (untaken : r.before.taken? r.stimulus = none)
      (acknowledged : r.before.acknowledged? r.stimulus = some outstanding.payload)
      (after : r.after = { r.before with outstanding := none, nextSeq := r.before.nextSeq.flip })
      (sent : r.sent = []) (timers : r.timers = [.cancel r.before.timerId])
      (samples : r.samples = [])
  | ignore (untaken : r.before.taken? r.stimulus = none)
      (unacknowledged : r.before.acknowledged? r.stimulus = none) (after : r.after = r.before)
      (sent : r.sent = []) (timers : r.timers = []) (samples : r.samples = [])

section Conduct

variable {s s' : Sender} {x : Stimulus} {actions : List Action} {now : Nat}

theorem reaction_eq (h : s.react x = (s', actions)) :
    sender.reaction now x s = ⟨s, x, actions, s'⟩ := sender.reaction_eq h

theorem conduct_packet (s : Sender) (p : Packet) :
    Conduct (sender.reaction now (.packet p) s) := by
  cases ho : s.outstanding with
  | none =>
    have hreact : s.react (.packet p) = (s, []) := by simp [Sender.react, ho]
    rw [reaction_eq hreact]
    exact .ignore rfl (by simp [Sender.acknowledged?, ho]) rfl rfl rfl rfl
  | some outstanding =>
    have hreact : s.react (.packet p) = s.onPacket outstanding p := by simp [Sender.react, ho]
    rw [Sender.onPacket] at hreact
    split at hreact
    · rename_i hbad
      have hnot : (!p.isCorrupted && s.acknowledges p) = false := by
        rcases Bool.or_eq_true_iff.mp hbad with hc | ha
        · rw [hc]
          rfl
        · rw [Bool.and_eq_true_iff] at ha
          rw [(Bool.not_eq_true' _).mp ha.2, Bool.and_false]
      rw [reaction_eq hreact]
      exact .again ho rfl (by simp [Sender.acknowledged?, hnot]) rfl rfl rfl rfl
    · rename_i hgood
      have hc : p.isCorrupted = false := by simp_all
      split at hreact
      · rename_i ha
        rw [reaction_eq hreact]
        exact .release ho rfl (by simp [Sender.acknowledged?, hc, ha, ho]) rfl rfl rfl rfl
      · rename_i ha
        rw [reaction_eq hreact]
        exact .ignore rfl (by simp [Sender.acknowledged?, ha]) rfl rfl rfl rfl

theorem conduct_timer (s : Sender) (id : UInt32) :
    Conduct (sender.reaction now (.timer id) s) := by
  cases ho : s.outstanding with
  | none =>
    have hreact : s.react (.timer id) = (s, []) := by simp [Sender.react, ho]
    rw [reaction_eq hreact]
    exact .ignore rfl rfl rfl rfl rfl rfl
  | some outstanding =>
    by_cases hid : id = s.timerId
    · have hreact : s.react (.timer id) = ((s.retransmit outstanding).1,
          .log s!"Timeout! Retransmitting seq {id}" :: (s.retransmit outstanding).2) := by
        simp [Sender.react, ho, hid]
      rw [reaction_eq hreact]
      exact .again ho rfl rfl rfl rfl rfl rfl
    · have hreact : s.react (.timer id) = (s, []) := by simp [Sender.react, ho, hid]
      rw [reaction_eq hreact]
      exact .ignore rfl rfl rfl rfl rfl rfl

theorem conduct_app (s : Sender) (data : Payload) :
    Conduct (sender.reaction now (.app data) s) := by
  cases ho : s.outstanding with
  | none =>
    have hreact : s.react (.app data) = ({ s with outstanding := some (s.packetFor data) },
        [.send (s.packetFor data), .start timeout s.timerId]) := by
      simp [Sender.react, Sender.isWaiting, ho]
    rw [reaction_eq hreact]
    exact .accept ho (by simp [Sender.taken?, Sender.isWaiting, ho]) rfl rfl rfl rfl rfl
  | some outstanding =>
    have hw : s.isWaiting = true := by simp [Sender.isWaiting, ho]
    have hreact : s.react (.app data) =
        (s, [.log "RDT3 Sender Busy: Dropping application data"]) := if_pos hw
    rw [reaction_eq hreact]
    exact .ignore (by simp [Sender.taken?, hw]) rfl rfl rfl rfl rfl

theorem conduct (now : Nat) (s : Sender) (hx : x ≠ .init) :
    Conduct (sender.reaction now x s) := by
  cases x with
  | init => exact absurd rfl hx
  | packet p => exact conduct_packet s p
  | timer id => exact conduct_timer s id
  | app data => exact conduct_app s data

end Conduct

/-- The packet of the message with a number: its bit is the number modulo two. -/
def dataPacket (i : Nat) (data : Payload) : Packet :=
  let seq := UInt32.ofNat (i % 2)
  { header := { seq, checksum := Checksum.additive seq data }, payload := data }

namespace Reactions

variable (reactions : List (Reaction Sender))

/-- The messages that came while the sender did not wait. -/
def accepted : List Payload := reactions.filterMap fun r => r.before.taken? r.stimulus

/-- The messages whose acknowledgements came through. -/
def acknowledged : List Payload := reactions.filterMap fun r => r.before.acknowledged? r.stimulus

def sent : List Packet := reactions.flatMap Reaction.sent

/-- The packets sent by calls that accept nothing. -/
def repeated : List Packet :=
  reactions.flatMap fun r => if (r.before.taken? r.stimulus).isNone then r.sent else []

def samples : List (String × Float) := reactions.flatMap Reaction.samples

variable (r : Reaction Sender)

@[simp] theorem accepted_append :
    accepted (reactions ++ [r]) = accepted reactions ++ (r.before.taken? r.stimulus).toList := by
  rw [accepted, accepted, List.filterMap_append]
  cases h : r.before.taken? r.stimulus <;> simp [h]

@[simp] theorem acknowledged_append : acknowledged (reactions ++ [r]) =
    acknowledged reactions ++ (r.before.acknowledged? r.stimulus).toList := by
  rw [acknowledged, acknowledged, List.filterMap_append]
  cases h : r.before.acknowledged? r.stimulus <;> simp [h]

@[simp] theorem sent_append : sent (reactions ++ [r]) = sent reactions ++ r.sent := by
  simp [sent]

@[simp] theorem repeated_append : repeated (reactions ++ [r]) =
    repeated reactions ++ if (r.before.taken? r.stimulus).isNone then r.sent else [] := by
  simp [repeated]

@[simp] theorem samples_append :
    samples (reactions ++ [r]) = samples reactions ++ r.samples := by
  simp [samples]

end Reactions

/-- The sender's state after the calls, told by the calls. -/
structure Standing (reactions : List (Reaction Sender)) (s : Sender) : Prop where
  /-- The bit is the parity of the number of messages acknowledged. -/
  bit : s.nextSeq.toUInt32 = UInt32.ofNat ((Reactions.acknowledged reactions).length % 2)
  /-- What was accepted is acknowledged, but for the message under way. -/
  messages : Reactions.accepted reactions =
    Reactions.acknowledged reactions ++ (s.outstanding.map Packet.payload).toList
  /-- The outstanding packet is the one of the message accepted last. -/
  outstanding : ∀ p, s.outstanding = some p →
    p = dataPacket (Reactions.acknowledged reactions).length p.payload
  packets : (Reactions.sent reactions).length =
    (Reactions.accepted reactions).length + (Reactions.repeated reactions).length
  count : s.retransmissions = (Reactions.repeated reactions).length
  /-- Every repetition has its number recorded. -/
  samples : Reactions.samples reactions =
    (List.range' 1 (Reactions.repeated reactions).length).map fun n =>
      ("retransmissions", Float.ofNat n)

/-- The event is an intact acknowledgement of the message accepted last. -/
def AcknowledgesLast (past : List (Reaction Sender)) (x : Stimulus) : Prop :=
  ∃ i p, (Reactions.accepted past).length = i + 1 ∧ x = .packet p ∧ p.isCorrupted = false ∧
    p.header.isAck = true ∧ p.header.ack = UInt32.ofNat (i % 2)

/-- A call in which the sender keeps to the protocol, after those that came before. -/
structure Proper (past : List (Reaction Sender)) (r : Reaction Sender) : Prop where
  /-- A message that is accepted goes out under its number. -/
  first : ∀ data, r.before.taken? r.stimulus = some data →
    r.sent = [dataPacket (Reactions.accepted past).length data]
  /-- Whatever else goes out is the outstanding packet. -/
  again : r.before.taken? r.stimulus = none → ∀ p ∈ r.sent, r.before.outstanding = some p
  /-- One packet goes out and the timer is started once, or neither. -/
  output : (r.sent = [] ∧ ∀ delay id, .start delay id ∉ r.timers) ∨
    ∃ p, r.sent = [p] ∧
      r.timers = r.before.cancels r.stimulus ++ [.start 3000 r.before.nextSeq.toUInt32]
  /-- The sender stops waiting for such an acknowledgement and for nothing else. -/
  release : r.before.isWaiting = true →
    (r.after.isWaiting = false ↔ AcknowledgesLast past r.stimulus)

section Step

variable {past : List (Reaction Sender)} {s : Sender} {x : Stimulus}

theorem Standing.packetFor_eq (h : Standing past s) (data : Payload) :
    s.packetFor data = dataPacket (Reactions.acknowledged past).length data := by
  simp only [Sender.packetFor, dataPacket, h.bit]

theorem standing_start : Standing [] sender.start where
  bit := rfl
  messages := rfl
  outstanding := nofun
  packets := rfl
  count := rfl
  samples := rfl

/-- The state after a call is told by the calls with this one added. -/
theorem Standing.append {r : Reaction Sender} (h : Standing past r.before) (hr : Conduct r) :
    Standing (past ++ [r]) r.after := by
  cases hr with
  | @accept data idle taken unacknowledged after sent timers samples =>
    rw [after]
    constructor
    · simpa [unacknowledged] using h.bit
    · simp [taken, unacknowledged, h.messages, idle, Sender.packetFor]
    · rintro p ⟨⟩
      rw [Reactions.acknowledged_append, unacknowledged, Option.toList_none, List.append_nil]
      exact h.packetFor_eq data
    · simp [taken, sent, h.packets]
      omega
    · simpa [taken] using h.count
    · simpa [taken, samples] using h.samples
  | @again outstanding waiting untaken unacknowledged after sent timers samples =>
    have hrepeated : Reactions.repeated (past ++ [r]) =
        Reactions.repeated past ++ [outstanding] := by simp [untaken, sent]
    rw [after]
    constructor
    · simpa [unacknowledged] using h.bit
    · simp [untaken, unacknowledged, h.messages]
    · simpa [unacknowledged] using h.outstanding
    · simp [hrepeated, untaken, sent, h.packets]
      omega
    · simp [hrepeated, h.count]
    · rw [hrepeated, List.length_append, List.length_singleton, List.range'_1_concat,
        List.map_append, Reactions.samples_append, h.samples, samples, h.count, Nat.add_comm 1]
      rfl
  | @release outstanding waiting untaken acknowledged after sent timers samples =>
    rw [after]
    constructor
    · simpa [acknowledged] using SeqBit.toUInt32_flip h.bit
    · simp [untaken, acknowledged, h.messages, waiting]
    · rintro p ⟨⟩
    · simpa [untaken, sent] using h.packets
    · simpa [untaken, sent] using h.count
    · simpa [untaken, sent, samples] using h.samples
  | ignore untaken unacknowledged after sent timers samples =>
    rw [after]
    constructor
    · simpa [unacknowledged] using h.bit
    · simpa [untaken, unacknowledged] using h.messages
    · simpa [unacknowledged] using h.outstanding
    · simpa [untaken, sent] using h.packets
    · simpa [untaken, sent] using h.count
    · simpa [untaken, sent, samples] using h.samples

theorem Standing.length_accepted (h : Standing past s) (hw : s.isWaiting = true) :
    (Reactions.accepted past).length = (Reactions.acknowledged past).length + 1 := by
  obtain ⟨outstanding, ho⟩ := Option.isSome_iff_exists.mp hw
  simp [h.messages, ho]

theorem Standing.acknowledgesLast_iff (h : Standing past s) (hw : s.isWaiting = true) :
    AcknowledgesLast past x ↔ (s.acknowledged? x).isSome := by
  have hlength := h.length_accepted hw
  obtain ⟨outstanding, ho⟩ := Option.isSome_iff_exists.mp hw
  constructor
  · rintro ⟨i, p, hi, rfl, hc, ha, hack⟩
    obtain rfl : i = (Reactions.acknowledged past).length := by omega
    have hcarried : s.nextSeq.carriedBy p.header.ack = true :=
      SeqBit.carriedBy_iff.mpr (hack.trans h.bit.symm)
    simp [Sender.acknowledged?, Sender.acknowledges, hc, ha, hcarried, ho]
  · intro hsome
    cases x with
    | init => cases hsome
    | timer id => cases hsome
    | app data => cases hsome
    | packet p =>
      have hgood : !p.isCorrupted && s.acknowledges p := by
        by_contra hbad
        simp [Sender.acknowledged?, hbad] at hsome
      obtain ⟨hc, ha⟩ := Bool.and_eq_true_iff.mp hgood
      obtain ⟨hack, hcarried⟩ := Bool.and_eq_true_iff.mp ha
      have hbit := (SeqBit.carriedBy_iff.mp hcarried).trans h.bit
      exact ⟨_, p, hlength, rfl, by simpa using hc, hack, hbit⟩

theorem Proper.of_untaken {r : Reaction Sender} (untaken : r.before.taken? r.stimulus = none)
    (again : ∀ p ∈ r.sent, r.before.outstanding = some p)
    (output : (r.sent = [] ∧ ∀ delay id, .start delay id ∉ r.timers) ∨ ∃ p, r.sent = [p] ∧
      r.timers = r.before.cancels r.stimulus ++ [.start 3000 r.before.nextSeq.toUInt32])
    (release : r.before.isWaiting = true →
      (r.after.isWaiting = false ↔ AcknowledgesLast past r.stimulus)) : Proper past r where
  first data hdata := by
    rw [untaken] at hdata
    cases hdata
  again _ := again
  output := output
  release := release

theorem Proper.of_silent {r : Reaction Sender} (untaken : r.before.taken? r.stimulus = none)
    (sent : r.sent = []) (timers : ∀ delay id, .start delay id ∉ r.timers)
    (release : r.before.isWaiting = true →
      (r.after.isWaiting = false ↔ AcknowledgesLast past r.stimulus)) : Proper past r := by
  apply Proper.of_untaken untaken
  · intro p hp
    rw [sent] at hp
    cases hp
  · exact .inl ⟨sent, timers⟩
  · exact release

/-- Whatever a call comes to, it is a proper one. -/
theorem Standing.proper {r : Reaction Sender} (h : Standing past r.before) (hr : Conduct r) :
    Proper past r := by
  cases hr with
  | @accept data idle taken unacknowledged after sent timers samples =>
    have hlength : (Reactions.accepted past).length = (Reactions.acknowledged past).length := by
      simp [h.messages, idle]
    constructor
    · intro data' hdata'
      obtain rfl := Option.some.inj (taken.symm.trans hdata')
      rw [sent, hlength, h.packetFor_eq]
    · intro hnone
      rw [taken] at hnone
      cases hnone
    · exact .inr ⟨_, sent, timers⟩
    · intro hw
      simp [Sender.isWaiting, idle] at hw
  | @again outstanding waiting untaken unacknowledged after sent timers samples =>
    apply Proper.of_untaken untaken
    · intro p hp
      rw [sent, List.mem_singleton] at hp
      rw [hp, waiting]
    · exact .inr ⟨outstanding, sent, timers⟩
    · intro hw
      have hstill : r.after.isWaiting = true := by
        rw [after]
        exact hw
      rw [h.acknowledgesLast_iff hw, unacknowledged, hstill]
      simp
  | release waiting untaken acknowledged after sent timers samples =>
    apply Proper.of_silent untaken sent
    · simp [timers]
    · intro hw
      have hdone : r.after.isWaiting = false := by
        rw [after]
        rfl
      rw [h.acknowledgesLast_iff hw, acknowledged, hdone]
      simp
  | ignore untaken unacknowledged after sent timers samples =>
    apply Proper.of_silent untaken sent
    · simp [timers]
    · intro hw
      rw [h.acknowledgesLast_iff hw, unacknowledged, after, hw]
      simp

end Step

/-- Whatever happens to a fresh sender, it keeps to the protocol in every call, and its state
is told by the calls. The samples count what it sent again, one by one and exactly. -/
theorem proper_in_any_environment {xs : List (Nat × Stimulus)} (h : ∀ x ∈ xs, x.2 ≠ .init) :
    (sender.reactions xs sender.start).map Reaction.actions = (sender.run xs sender.start).2 ∧
    Standing (sender.reactions xs sender.start) (sender.run xs sender.start).1 ∧
    (∀ past r rest, sender.reactions xs sender.start = past ++ r :: rest →
      Standing past r.before ∧ Proper past r) ∧
    ((Reactions.repeated (sender.reactions xs sender.start)).length < 2 ^ 53 →
      (Reactions.samples (sender.reactions xs sender.start)).map
          (fun m => (m.1, (Binary64.ofFloat m.2).value)) =
        (List.range' 1 (Reactions.repeated (sender.reactions xs sender.start)).length).map
          fun n : Nat => ("retransmissions", some (n : ℚ))) := by
  obtain ⟨hend, hcalls⟩ := sender.holds_throughout (I := Standing) (A := (· ≠ .init))
    (fun now hx hs => hs.append (conduct now _ hx)) standing_start h
  rw [List.nil_append] at hend
  refine ⟨sender.actions_reactions xs _, hend, ?_, ?_⟩
  · intro past r rest hsplit
    obtain ⟨hstanding, now, x, hx, hr⟩ := hcalls past r rest hsplit
    rw [List.nil_append] at hstanding
    have hconduct : Conduct r := hr ▸ conduct now r.before hx
    exact ⟨hstanding, hstanding.proper hconduct⟩
  · intro hcount
    rw [hend.samples, List.map_map]
    apply List.map_congr_left
    intro n hn
    obtain ⟨-, hlt⟩ := List.mem_range'_1.mp hn
    have hexact : (Binary64.ofFloat (Float.ofNat n)).value = some (n : ℚ) :=
      Binary64.value_ofNat (by omega)
    exact congrArg (Prod.mk "retransmissions") hexact

/-- Before the first message is acknowledged there come another message, a timer of no packet,
an outdated and a damaged acknowledgement, the timer, and a packet that acknowledges nothing. -/
def trial : List (Nat × Stimulus) :=
  [(0, .app [88]), (10, .app [90]), (20, .timer 7), (30, .packet (.acknowledgement 0 1 0)),
    (40, .packet ((Packet.acknowledgement 0 0 0).withChecksum 1)), (50, .timer 0),
    (60, .packet { payload := [] }), (70, .packet (.acknowledgement 0 0 0)), (80, .app [89])]

theorem proper_under_trial : (∀ x ∈ trial, x.2 ≠ .init) ∧
    Reactions.sent (sender.reactions trial sender.start) =
      List.replicate 4 (dataPacket 0 [88]) ++ [dataPacket 1 [89]] ∧
    (sender.run trial sender.start).1.nextSeq.toUInt32 = UInt32.ofNat (1 % 2) ∧
    (Reactions.samples (sender.reactions trial sender.start)).map
        (fun m => (m.1, (Binary64.ofFloat m.2).value)) =
      [1, 2, 3].map fun n : Nat => ("retransmissions", some (n : ℚ)) := by
  have htrial : ∀ x ∈ trial, x.2 ≠ .init := by decide
  have hrepeated : (Reactions.repeated (sender.reactions trial sender.start)).length = 3 := by
    decide +kernel
  obtain ⟨-, hstanding, -, hsamples⟩ := proper_in_any_environment htrial
  rw [hrepeated] at hsamples
  refine ⟨htrial, ?_, hstanding.bit, hsamples (by decide)⟩
  decide +kernel

end AlternatingBit

end LossyLink
