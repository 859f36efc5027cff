import LossyLink.Proofs.Simulation.Chance
import LossyLink.Proofs.Simulation.Conservation

/-! # Sessions

The packets that the ends hand to the channel in a session, one after another. What the rules
and the log of the link tell of the packets handed over so far, and goes on to hold with every
packet, holds after every session that installs no rule.
-/

namespace LossyLink

variable {σ ρ : Type}

/-- The packet that is handed over, and the node that does so. -/
def Demand.packet? (d : Demand) : Option (Node × Packet) :=
  match d.request with
  | .send p => some (d.node, p)
  | .deliver _ => none

theorem Demand.packets_ofActions (time : Nat) (node : Node) (actions : List Action) :
    (ofActions time node actions).filterMap packet? =
      (actions.filterMap Action.sent?).map (Prod.mk node) := by
  have hdeliveries : ∀ xs : List Payload,
      (xs.map fun data => (⟨time, node, .deliver data⟩ : Demand)).filterMap packet? = [] := by
    simp [packet?]
  rw [ofActions, List.filterMap_append, hdeliveries, List.nil_append, List.filterMap_map]
  show List.filterMap (some ∘ Prod.mk node) _ = _
  exact congrFun List.filterMap_eq_map _

/-- A packet of the origin is to be dropped, the next one that has this number. -/
structure DropRule where
  origin : Node
  number : UInt32
  deriving DecidableEq, Repr

/-- The rule that is installed. -/
def Operation.rule? : Operation → Option DropRule
  | .arrange (.dropSeq seq) => some ⟨.sender, seq⟩
  | .arrange (.dropAck ack) => some ⟨.receiver, ack⟩
  | .arrange (.submit _ _) => none
  | .init => none
  | .step => none
  | .run _ => none

/-- What is logged of a packet, and at which node. -/
def LinkEvent.posted? (e : LinkEvent) : Option (Node × LinkChange) :=
  match e.change with
  | .delivered _ => none
  | .dropped .. => some (e.node, e.change)
  | .corrupted .. => some (e.node, e.change)
  | .sent .. => some (e.node, e.change)

theorem Post.posted_events (time : Nat) (node : Node) (x : Post) :
    (x.events time node).filterMap LinkEvent.posted? = x.changes.map (Prod.mk node) := by
  obtain ⟨p, reason | ⟨_ | _, latency⟩⟩ := x <;> rfl

namespace Simulation

/-- What the link logged of packets. -/
def channelLog (s : Simulation σ ρ) : List (Node × LinkChange) :=
  s.links.toList.filterMap LinkEvent.posted?

theorem channelLog_transmit {s s' : Simulation σ ρ} {node : Node} {p : Packet}
    (hs : s.transmit node p = .ok s') : s'.channelLog =
      s.channelLog ++ (Post.mk p (s.decision node p).passage).changes.map (Prod.mk node) := by
  have hlinks : (s.decided node (s.decision node p)).links = s.links := by cases node <;> rfl
  rw [transmit_eq] at hs
  obtain ⟨queue, rfl⟩ := pass_frame hs
  simp [channelLog, hlinks, Post.posted_events]

/-- What the ends ask of the link in an operation. -/
def asked (ends : Ends σ ρ) (s : Simulation σ ρ) : Operation → List Demand
  | .arrange _ => []
  | .init => s.demanded ends []
  | .step =>
    match s.step ends with
    | .ok (o, _) => Turn.demands ends ⟨s, o⟩
    | .error _ => []
  | .run limit =>
    match s.history ends limit with
    | .ok (turns, _) => s.demanded ends turns
    | .error _ => []

/-- The packets that are handed over in a session. -/
def handed (ends : Ends σ ρ) : Simulation σ ρ → List Operation → List (Node × Packet)
  | _, [] => []
  | s, op :: ops =>
    (s.asked ends op).filterMap Demand.packet? ++
      match s.operate ends op with
      | .ok t => t.handed ends ops
      | .error _ => []

variable {ends : Ends σ ρ} {s s' t : Simulation σ ρ} {node : Node} {ops : List Operation}

theorem handed_cons {op : Operation} (h : s.operate ends op = .ok t) :
    s.handed ends (op :: ops) =
      (s.asked ends op).filterMap Demand.packet? ++ t.handed ends ops := by
  simp only [handed, h]

/-- The rules and the log of the link, as far as it is about packets, are the same. -/
structure SameChannel (s t : Simulation σ ρ) : Prop where
  drops : t.drops = s.drops
  reading : t.reading = s.reading
  log : t.channelLog = s.channelLog

theorem SameChannel.of_links (hdrops : t.drops = s.drops) (hlinks : t.links = s.links) :
    SameChannel s t := by
  constructor
  · exact hdrops
  · rw [Simulation.reading, Simulation.reading, hlinks]
  · rw [channelLog, channelLog, hlinks]

theorem SameChannel.trans {u : Simulation σ ρ} (h : SameChannel s t) (hu : SameChannel t u) :
    SameChannel s u := by
  constructor
  · exact hu.drops.trans h.drops
  · exact hu.reading.trans h.reading
  · exact hu.log.trans h.log

theorem sameChannel_record (s : Simulation σ ρ) (node : Node) (actions : List Action) :
    SameChannel s (s.record node actions) := by
  have hrecords : KeepsRecords fun a b : Simulation σ ρ => a = b ∧ SameChannel s a := by
    constructor
    · rintro a _ name value ⟨rfl, h⟩
      exact ⟨rfl, h.trans (.of_links rfl rfl)⟩
    · rintro a _ n ⟨rfl, h⟩
      exact ⟨rfl, h.trans (.of_links rfl rfl)⟩
    · rintro a _ node data ⟨rfl, h⟩
      refine ⟨rfl, h.trans ⟨rfl, reading_link _ node (.delivered data.length), ?_⟩⟩
      simp [channelLog, deliver, link, notify, LinkEvent.posted?]
  exact (hrecords.record ⟨rfl, .of_links rfl rfl⟩ actions).2

theorem sameChannel_timers {timers : List TimerOp}
    (h : timers.foldlM (fun s op => s.timer node op) s = .ok s') : SameChannel s s' := by
  induction timers generalizing s with
  | nil =>
    cases h
    exact .of_links rfl rfl
  | cons op timers ih =>
    rw [List.foldlM_cons] at h
    obtain ⟨t, ht, h⟩ := exists_of_bind_eq_ok h
    have hfirst : SameChannel s t := by
      apply timer_keeps (P := SameChannel s) _ _ (.of_links rfl rfl) ht
      · exact fun _ hsame => hsame.trans (.of_links rfl rfl)
      · intro a b delay what hsame hafter
        rw [after_eq_ok hafter]
        exact hsame.trans (.of_links rfl rfl)
    exact hfirst.trans (ih h)

theorem receiver_of_handle_sender {x : Stimulus} (h : s.handle ends .sender x = .ok t) :
    t.clock = s.clock ∧ t.receiver = s.receiver := by
  have hkept : Invariant fun t : Simulation σ ρ => t.clock = s.clock ∧ t.receiver = s.receiver := by
    constructor
    · exact fun _ _ h => h
    · exact fun _ h => h
    · exact fun _ _ h => h
    · intro a b node op hkept htimer
      apply timer_keeps _ _ hkept htimer
      · exact fun _ h => h
      · intro a b delay what hkept hafter
        rw [after_eq_ok hafter]
        exact hkept
    · intro a b node p hkept htransmit
      rw [transmit_eq] at htransmit
      obtain ⟨queue, rfl⟩ := pass_frame htransmit
      cases node <;> exact hkept
  have habsorbed : (s.absorb ends .sender x).clock = s.clock ∧
      (s.absorb ends .sender x).receiver = s.receiver := ⟨rfl, rfl⟩
  rw [handle_eq] at h
  exact hkept.perform habsorbed h

/-- What is known of the packets handed over goes on to be known with every packet. -/
structure Followed (P : List (Node × Packet) → Simulation σ ρ → Prop) : Prop where
  congr : ∀ {packets s t}, P packets s → SameChannel s t → P packets t
  transmit : ∀ {packets s s' node p}, P packets s → s.transmit node p = .ok s' →
    P (packets ++ [(node, p)]) s'

namespace Followed

variable {P : List (Node × Packet) → Simulation σ ρ → Prop} {packets : List (Node × Packet)}

theorem transmits (hP : Followed P) {ps : List Packet} (h : P packets s)
    (hs : ps.foldlM (fun s p => s.transmit node p) s = .ok s') :
    P (packets ++ ps.map (Prod.mk node)) s' := by
  induction ps generalizing s packets with
  | nil =>
    cases hs
    simpa using h
  | cons p ps ih =>
    rw [List.foldlM_cons] at hs
    obtain ⟨t, ht, hs⟩ := exists_of_bind_eq_ok hs
    simpa using ih (hP.transmit h ht) hs

theorem perform (hP : Followed P) {actions : List Action} (time : Nat) (h : P packets s)
    (hs : s.perform node actions = .ok s') :
    P (packets ++ (Demand.ofActions time node actions).filterMap Demand.packet?) s' := by
  rw [perform_eq] at hs
  obtain ⟨t, ht, hs⟩ := exists_of_bind_eq_ok hs
  have hrecorded := hP.congr h (sameChannel_record s node actions)
  rw [Demand.packets_ofActions]
  exact hP.transmits (hP.congr hrecorded (sameChannel_timers ht)) hs

theorem handle (hP : Followed P) {x : Stimulus} (h : P packets s)
    (hs : s.handle ends node x = .ok s') :
    P (packets ++ (Demand.ofActions s.clock node
      (ends.answer node s.clock x s.sender s.receiver)).filterMap Demand.packet?) s' := by
  rw [handle_eq] at hs
  have habsorbed : SameChannel s (s.absorb ends node x) := by cases node <;> exact .of_links rfl rfl
  exact hP.perform s.clock (hP.congr h habsorbed) hs

theorem init (hP : Followed P) (h : P packets s) (hs : s.init ends = .ok s') :
    P (packets ++ (s.demanded ends []).filterMap Demand.packet?) s' := by
  obtain ⟨t, ht, hs⟩ := init_eq_ok hs
  obtain ⟨hclock, hreceiver⟩ := receiver_of_handle_sender ht
  have hboth := hP.handle (hP.handle h ht) hs
  have hanswer : ends.answer .receiver t.clock .init t.sender t.receiver =
      ends.answer .receiver s.clock .init s.sender s.receiver := by
    rw [hclock, hreceiver]
    rfl
  rw [hanswer, hclock] at hboth
  simpa [demanded] using hboth

theorem step (hP : Followed P) {o : Outcome} (h : P packets s)
    (hs : s.step ends = .ok (o, s')) :
    P (packets ++ (Turn.demands ends ⟨s, o⟩).filterMap Demand.packet?) s' := by
  rcases step_eq_ok hs with ⟨-, rfl, rfl⟩ | ⟨e, queue, -, -, rfl, rfl⟩ |
    ⟨e, queue, -, -, rfl, hh⟩
  · simpa [Turn.demands] using h
  · simpa [Turn.demands] using hP.congr (t := { s with queue }) h (.of_links rfl rfl)
  · exact hP.handle (hP.congr (t := { s with queue, clock := e.time }) h (.of_links rfl rfl)) hh

theorem walk (hP : Followed P) {n : Nat} {turns : List (Turn σ ρ)} (h : P packets s)
    (hs : s.walk ends n = .ok (turns, s')) :
    P (packets ++ (turns.flatMap (Turn.demands ends)).filterMap Demand.packet?) s' := by
  induction n generalizing s packets turns with
  | zero =>
    cases hs
    simpa using h
  | succ n ih =>
    obtain ⟨o, t, rest, ht, hw, rfl⟩ := walk_succ_eq_ok hs
    simpa using ih (hP.step h ht) hw

theorem history (hP : Followed P) {n : Nat} {turns : List (Turn σ ρ)} (h : P packets s)
    (hs : s.history ends n = .ok (turns, s')) :
    P (packets ++ (s.demanded ends turns).filterMap Demand.packet?) s' := by
  obtain ⟨t, ht, hw⟩ := history_eq_ok hs
  have hall := hP.walk (hP.init h ht) hw
  simpa [demanded] using hall

theorem operate (hP : Followed P) {op : Operation} (hop : op.rule? = none) (h : P packets s)
    (hs : s.operate ends op = .ok s') :
    P (packets ++ (s.asked ends op).filterMap Demand.packet?) s' := by
  cases op with
  | arrange p =>
    cases p with
    | submit time data =>
      cases hs
      rw [asked, List.filterMap_nil, List.append_nil]
      exact hP.congr h (.of_links rfl rfl)
    | dropSeq seq => cases hop
    | dropAck ack => cases hop
  | init => exact hP.init h hs
  | step =>
    obtain ⟨⟨o, t⟩, ht, rfl⟩ := exists_of_map_eq_ok hs
    simp only [asked, ht]
    exact hP.step h ht
  | run limit =>
    obtain ⟨⟨completed, t⟩, ht, rfl⟩ := exists_of_map_eq_ok hs
    rw [run_eq_history] at ht
    obtain ⟨⟨turns, u⟩, hu, hend⟩ := exists_of_map_eq_ok ht
    obtain ⟨rfl, rfl⟩ := Prod.mk.inj hend
    simp only [asked, hu]
    apply hP.congr (hP.history h hu)
    cases u.queue.isEmpty <;> exact .of_links rfl rfl

theorem operateAll (hP : Followed P) (hops : ∀ op ∈ ops, op.rule? = none) (h : P packets s)
    (hs : s.operateAll ends ops = .ok s') : P (packets ++ s.handed ends ops) s' := by
  unfold Simulation.operateAll at hs
  induction ops generalizing s packets with
  | nil =>
    cases hs
    simpa [handed] using h
  | cons op ops ih =>
    rw [List.foldlM_cons] at hs
    obtain ⟨t, ht, hs⟩ := exists_of_bind_eq_ok hs
    have hfirst := hP.operate (hops op List.mem_cons_self) h ht
    rw [handed_cons ht, ← List.append_assoc]
    exact ih (fun op hop => hops op (List.mem_cons_of_mem _ hop)) hfirst hs

end Followed

end Simulation

end LossyLink
