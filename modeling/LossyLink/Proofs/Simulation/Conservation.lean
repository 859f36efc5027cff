import LossyLink.Proofs.AlternatingBit.Delivery
import LossyLink.Proofs.Simulation.LinkLog

/-! # Conservation of packets

Whatever the two ends do, nothing comes out of the channel that was not put into it. Every
packet that an end sends is either dropped or sent, and the log tells which; what is sent
arrives once, or is still on its way, after the latency that the log tells, and it arrives
as it was unless the log tells that it was damaged. Deliveries are logged one by one.
-/

namespace LossyLink

variable {σ ρ : Type}

namespace LinkEvent

def isSent (e : LinkEvent) : Bool :=
  match e.change with
  | .sent .. => true
  | .delivered _ => false
  | .dropped .. => false
  | .corrupted .. => false

/-- The size of what was delivered. -/
def delivered? (e : LinkEvent) : Option Nat :=
  match e.change with
  | .delivered size => some size
  | .dropped .. => none
  | .corrupted .. => none
  | .sent .. => none

end LinkEvent

def Call.isPacket (c : Call) : Bool :=
  match c.stimulus with
  | .packet _ => true
  | .init => false
  | .timer _ => false
  | .app _ => false

def Demand.isPacket (d : Demand) : Bool :=
  match d.request with
  | .send _ => true
  | .deliver _ => false

/-- What an end asked of the link in a step. -/
def Turn.demands (ends : Ends σ ρ) (t : Turn σ ρ) : List Demand :=
  match t.outcome with
  | .drained => []
  | .stale _ => []
  | .handled e => Demand.ofActions e.time e.what.node
      (ends.answer e.what.node e.time e.what.stimulus t.before.sender t.before.receiver)

section Entries

variable {entries : List LinkEntry}

theorem countP_events {p : LinkEvent → Bool} {q : LinkEntry → Bool}
    (h : ∀ x : LinkEntry, x.events.countP p = (q x).toNat) (entries : List LinkEntry) :
    (entries.flatMap LinkEntry.events).countP p = entries.countP q := by
  induction entries with
  | nil => rfl
  | cons x entries ih =>
    rw [List.flatMap_cons, List.countP_append, List.countP_cons, h, ih, Nat.add_comm]
    cases q x <;> rfl

theorem delivered_events (entries : List LinkEntry) :
    (entries.flatMap LinkEntry.events).filterMap LinkEvent.delivered? =
      (entries.filterMap LinkEntry.data?).map List.length := by
  induction entries with
  | nil => rfl
  | cons x entries ih =>
    rw [List.flatMap_cons, List.filterMap_append, ih]
    obtain ⟨time, node, data | ⟨p, reason | ⟨_ | _, latency⟩⟩⟩ := x
    all_goals rfl

/-- No entry ends with damage: the packet that was damaged is sent then. -/
theorem isCorruption_getLast (entries : List LinkEntry) {e : LinkEvent}
    (h : (entries.flatMap LinkEntry.events).getLast? = some e) : e.isCorruption = false := by
  induction entries using List.reverseRecOn with
  | nil => cases h
  | append_singleton entries x =>
    rw [List.flatMap_append, List.flatMap_singleton] at h
    obtain ⟨time, node, data | ⟨p, reason | ⟨_ | _, latency⟩⟩⟩ := x
    all_goals
      simp only [LinkEntry.events, Post.events, Post.changes, List.map_cons, List.map_nil,
        List.getLast?_append, List.getLast?_cons_cons, List.getLast?_singleton, Option.some_or,
        Option.some.injEq] at h
      rw [← h]
      rfl

theorem countP_calls (entries : List LinkEntry) (node : Node) :
    (entries.filterMap LinkEntry.call?).countP (fun c => c.node = node) =
      (entries.flatMap LinkEntry.events).countP fun e => e.node = node.peer ∧ e.isSent := by
  rw [List.countP_filterMap]
  refine (countP_events (fun x => ?_) entries).symm
  obtain ⟨time, node', data | ⟨p, reason | ⟨_ | _, latency⟩⟩⟩ := x
  all_goals cases node <;> cases node' <;> rfl

theorem countP_demands (entries : List LinkEntry) (node : Node) :
    (entries.map LinkEntry.demand).countP (fun d => d.node = node ∧ d.isPacket) =
      (entries.flatMap LinkEntry.events).countP
        fun e => e.node = node ∧ (e.isDrop ∨ e.isSent) := by
  rw [List.countP_map]
  refine (countP_events (fun x => ?_) entries).symm
  obtain ⟨time, node', data | ⟨p, reason | ⟨_ | _, latency⟩⟩⟩ := x
  all_goals cases node <;> cases node' <;> rfl

theorem countP_isSenderPost (entries : List LinkEntry) :
    entries.countP LinkEntry.isSenderPost =
      (entries.map LinkEntry.demand).countP fun d => d.node = .sender ∧ d.isPacket := by
  rw [List.countP_map]
  refine List.countP_congr fun x _ => ?_
  obtain ⟨time, _ | _, data | y⟩ := x
  all_goals simp [LinkEntry.isSenderPost, LinkEntry.demand, Demand.isPacket]

end Entries

namespace Simulation

variable {ends : Ends σ ρ} {s s' t : Simulation σ ρ} {turns : List (Turn σ ρ)}
  {entries : List LinkEntry}

/-- What the ends ask of the link from the start on. -/
def demanded (ends : Ends σ ρ) (s : Simulation σ ρ) (turns : List (Turn σ ρ)) : List Demand :=
  Demand.ofActions s.clock .sender (ends.answer .sender s.clock .init s.sender s.receiver) ++
    Demand.ofActions s.clock .receiver (ends.answer .receiver s.clock .init s.sender s.receiver) ++
    turns.flatMap (Turn.demands ends)

/-- The records of a run are what the entries tell, and these are what was asked for. -/
structure Recounted (ends : Ends σ ρ) (s : Simulation σ ρ) (turns : List (Turn σ ρ))
    (entries : List LinkEntry) (s' : Simulation σ ρ) : Prop where
  demands : entries.map LinkEntry.demand = s.demanded ends turns
  links : s'.links.toList = entries.flatMap LinkEntry.events
  delivered : s'.delivered.toList = entries.filterMap LinkEntry.data?
  packets : ((calls turns).filter Call.isPacket ++ s'.queue.awaited).Perm
    (entries.filterMap LinkEntry.call?)
  senderPackets : s'.senderPackets = entries.countP LinkEntry.isSenderPost
  possible : ∀ x ∈ entries, x.Possible s'.config

theorem exists_recounted_of_init (hv : s.config.minLatency ≤ s.config.maxLatency)
    (hlinks : s.links = #[]) (hdelivered : s.delivered = #[]) (hpackets : s.senderPackets = 0)
    (hawaited : s.queue.awaited = []) (h : s.init ends = .ok s') :
    ∃ entries, Recounted ends s [] entries s' := by
  obtain ⟨t, ht, h⟩ := init_eq_ok h
  obtain ⟨queue, generations, delivered, hframe⟩ := (situation_handle hv ht).sender_frame
  have hconfig : t.config = s.config := congrArg Situation.config hframe
  have hclock : t.clock = s.clock := congrArg Situation.clock hframe
  have hreceiver : t.receiver = s.receiver := congrArg Situation.receiver hframe
  obtain ⟨entries₁, hdemands₁, htells₁⟩ := exists_tells_of_handle hv ht
  obtain ⟨entries₂, hdemands₂, htells₂⟩ := exists_tells_of_handle (hconfig ▸ hv) h
  rw [hclock, hreceiver] at hdemands₂
  have htells := htells₁.trans htells₂
  refine ⟨entries₁ ++ entries₂, ?_, ?_, ?_, ?_, ?_, ?_⟩
  · rw [List.map_append, hdemands₁, hdemands₂]
    exact (List.append_nil _).symm
  · simpa [hlinks] using htells.links
  · simpa [hdelivered] using htells.delivered
  · simpa [hawaited, calls] using htells.awaited
  · simpa [hpackets] using htells.senderPackets
  · exact htells.config ▸ htells.possible

theorem isPacket_call (e : Event) : e.call.isPacket = e.isArrival := by
  obtain ⟨time, id, _ | _ | _⟩ := e <;> rfl

theorem Recounted.step {o : Outcome} (hv : t.config.minLatency ≤ t.config.maxLatency)
    (h : Recounted ends s turns entries t) (hs : t.step ends = .ok (o, s')) :
    ∃ entries, Recounted ends s (turns ++ [⟨t, o⟩]) entries s' := by
  obtain ⟨hdemands, hlinks, hdelivered, hcalls, hpackets, hpossible⟩ := h
  have hgrown : s.demanded ends (turns ++ [⟨t, o⟩]) =
      s.demanded ends turns ++ Turn.demands ends ⟨t, o⟩ := by
    simp [demanded]
  rcases step_eq_ok hs with ⟨-, rfl, rfl⟩ | ⟨e, queue, hq, hst, rfl, rfl⟩ |
    ⟨e, queue, hq, hst, rfl, hh⟩
  · refine ⟨entries, ?_, hlinks, hdelivered, ?_, hpackets, hpossible⟩
    · rw [hgrown, hdemands]
      exact (List.append_nil _).symm
    · simpa [calls, Outcome.call?] using hcalls
  · have ha : e.isArrival = false := by
      cases hw : e.what <;> simp_all [Simulation.isStale, Event.isArrival]
    rw [Queue.awaited_of_pop?_eq_some hq, ha] at hcalls
    refine ⟨entries, ?_, hlinks, hdelivered, ?_, hpackets, hpossible⟩
    · rw [hgrown, hdemands]
      exact (List.append_nil _).symm
    · simpa [calls, Outcome.call?] using hcalls
  · obtain ⟨rest, hrest, htells⟩ :=
      exists_tells_of_handle (s := { t with queue, clock := e.time }) hv hh
    refine ⟨entries ++ rest, ?_, ?_, ?_, ?_, ?_, ?_⟩
    · rw [List.map_append, hdemands, hrest, hgrown]
      rfl
    · rw [List.flatMap_append, ← hlinks]
      exact htells.links
    · rw [List.filterMap_append, ← hdelivered]
      exact htells.delivered
    · have hawaited : s'.queue.awaited.Perm
          (queue.awaited ++ rest.filterMap LinkEntry.call?) := htells.awaited
      rw [Queue.awaited_of_pop?_eq_some hq] at hcalls
      have hlast : (calls (turns ++ [⟨t, .handled e⟩])).filter Call.isPacket ++ queue.awaited =
          (calls turns).filter Call.isPacket ++
            if e.isArrival then e.call :: queue.awaited else queue.awaited := by
        have hcall : calls [(⟨t, .handled e⟩ : Turn σ ρ)] = [e.call] := rfl
        rw [calls_append, hcall, List.filter_append, List.filter_cons, isPacket_call]
        cases e.isArrival <;> simp
      rw [List.filterMap_append]
      refine (hawaited.append_left _).trans ?_
      rw [← List.append_assoc, hlast]
      exact hcalls.append_right _
    · rw [List.countP_append, ← hpackets]
      exact htells.senderPackets
    · intro x hx
      rw [htells.config]
      rcases List.mem_append.mp hx with hx | hx
      · exact hpossible x hx
      · exact htells.possible x hx

theorem exists_recounted_of_history {config : Config} {plan : List Preparation} {n : Nat}
    (hs : create config ends = .ok s)
    (h : (s.prepare plan).history ends n = .ok (turns, s')) :
    s'.config = config ∧ ∃ entries, Recounted ends (s.prepare plan) turns entries s' := by
  obtain ⟨hvalid, rfl⟩ := create_eq_ok_iff.mp hs
  have hconfig : ((fresh config ends).prepare plan).config = config := config_prepare _ plan
  obtain ⟨s₁, hinit, hwalk⟩ := history_eq_ok h
  obtain ⟨hlinks, hdelivered, hpackets⟩ := records_prepare (fresh config ends) plan
  have hawaited : ((fresh config ends).prepare plan).queue.awaited = [] := by
    rw [Queue.awaited, Queue.arrivals, List.filter_eq_nil_iff.mpr, List.map_nil]
    intro e he
    obtain ⟨data, hd⟩ := submission_of_mem_prepare_fresh plan e he
    simp [Event.isArrival, hd]
  have hstart := exists_recounted_of_init (hconfig.symm ▸ hvalid.latency) hlinks hdelivered
    hpackets hawaited hinit
  obtain ⟨c, h₁, h₂⟩ := situation_init (hconfig.symm ▸ hvalid.latency) hinit
  have hconfig₁ : s₁.config = config := h₂.config_eq.trans (h₁.config_eq.trans hconfig)
  refine walk_induction (P := fun past t => t.config = config ∧
    ∃ entries, Recounted ends _ past entries t) ?_ [] ⟨hconfig₁, hstart⟩ hwalk
  rintro past t o t' ⟨ht, entries, hpast⟩ hstep
  have hv : t.config.minLatency ≤ t.config.maxLatency := ht.symm ▸ hvalid.latency
  exact ⟨(situation_step hv hstep).config_eq.trans ht, hpast.step hv hstep⟩

theorem isCorruption_of_history {config : Config} {plan : List Preparation} {n : Nat}
    (hs : create config ends = .ok s) (hcorrupt : IsZero config.corruptRate)
    (h : (s.prepare plan).history ends n = .ok (turns, s')) :
    ∀ e ∈ s'.links.toList, e.isCorruption = false := by
  obtain ⟨hconfig, entries, hr⟩ := exists_recounted_of_history hs h
  intro e he
  rw [hr.links] at he
  obtain ⟨x, hx, he⟩ := List.mem_flatMap.mp he
  have hpossible := hr.possible x hx
  rw [hconfig] at hpossible
  obtain ⟨time, node, data | ⟨p, reason | ⟨damaged, latency⟩⟩⟩ := x
  · obtain rfl := List.mem_singleton.mp he
    rfl
  · obtain rfl := List.mem_singleton.mp he
    rfl
  · obtain _ | ⟨-, -, rate⟩ := hpossible
    cases damaged with
    | true => exact absurd hcorrupt (rate rfl)
    | false =>
      obtain rfl := List.mem_singleton.mp he
      rfl

end Simulation

open Simulation

/-- The records of every history of any two ends. -/
theorem packets_conserved {config : Config} {ends : Ends σ ρ} {s s' : Simulation σ ρ}
    {plan : List Preparation} {n : Nat} {turns : List (Turn σ ρ)}
    (hs : create config ends = .ok s)
    (h : (s.prepare plan).history ends n = .ok (turns, s')) :
    (∀ node, (calls turns).countP (fun c => c.node = node ∧ c.isPacket) +
        (s'.queue.inTransit node).length =
      s'.links.countP fun e => e.node = node.peer ∧ e.isSent) ∧
    (∀ node, ((s.prepare plan).demanded ends turns).countP (fun d => d.node = node ∧ d.isPacket) =
      s'.links.countP fun e => e.node = node ∧ (e.isDrop ∨ e.isSent)) ∧
    s'.senderPackets =
      s'.links.countP (fun e => e.node = .sender ∧ (e.isDrop ∨ e.isSent)) ∧
    s'.links.toList.filterMap LinkEvent.delivered? = s'.delivered.toList.map List.length ∧
    ∃ entries, Recounted ends (s.prepare plan) turns entries s' ∧
      ∀ earlier time node p damaged latency later,
        entries = earlier ++ ⟨time, node, .posted ⟨p, .carried damaged latency⟩⟩ :: later →
        config.minLatency ≤ latency ∧ latency ≤ config.maxLatency ∧
        ∃ before, s'.links.toList =
            before ++ ⟨time, node, .sent p.header.seq p.header.ack latency⟩ ::
              later.flatMap LinkEntry.events ∧
          (damaged = true ↔ ∃ e, before.getLast? = some e ∧ e.isCorruption = true) := by
  obtain ⟨hconfig, entries, hr⟩ := exists_recounted_of_history hs h
  have hdemands : ∀ node, ((s.prepare plan).demanded ends turns).countP
      (fun d => d.node = node ∧ d.isPacket) =
        s'.links.countP fun e => e.node = node ∧ (e.isDrop ∨ e.isSent) := by
    intro node
    rw [← hr.demands, countP_demands, ← hr.links, Array.countP_toList]
  refine ⟨fun node => ?_, hdemands, ?_, ?_, entries, hr, ?_⟩
  · rw [Queue.length_inTransit, ← Array.countP_toList, hr.links, ← countP_calls,
      ← hr.packets.countP_eq, List.countP_append, List.countP_filter]
    congr 1
    refine List.countP_congr fun c _ => ?_
    simp
  · rw [hr.senderPackets, countP_isSenderPost, hr.demands, hdemands]
  · rw [hr.links, delivered_events, hr.delivered]
  · rintro earlier time node p damaged latency later rfl
    have hpossible := hr.possible ⟨time, node, .posted ⟨p, .carried damaged latency⟩⟩
      (List.mem_append_right _ List.mem_cons_self)
    obtain _ | ⟨le, ge, -⟩ := hpossible
    have hlinks := hr.links
    rw [List.flatMap_append, List.flatMap_cons] at hlinks
    refine ⟨hconfig ▸ le, hconfig ▸ ge, ?_⟩
    cases damaged with
    | false =>
      refine ⟨earlier.flatMap LinkEntry.events, hlinks, nofun, ?_⟩
      rintro ⟨e, he, hcorruption⟩
      exact absurd hcorruption (by simp [isCorruption_getLast earlier he])
    | true =>
      refine ⟨earlier.flatMap LinkEntry.events ++
        [⟨time, node, .corrupted p.header.seq p.header.ack⟩], ?_, ?_⟩
      · rw [hlinks, List.append_assoc]
        rfl
      · exact iff_of_true rfl ⟨_, List.getLast?_concat, rfl⟩

theorem packets_conserved_over_noisy_link :
    ∃ (n : Nat) (turns : List (Turn AlternatingBit.Sender AlternatingBit.Receiver))
      (s' : Simulation AlternatingBit.Sender AlternatingBit.Receiver),
      ((fresh (noisy 10 90) AlternatingBit.ends).prepare workload).history AlternatingBit.ends n =
        .ok (turns, s') ∧
      s'.queue.isEmpty ∧
      (∀ node, (calls turns).countP (fun c => c.node = node ∧ c.isPacket) =
        s'.links.countP fun e => e.node = node.peer ∧ e.isSent) ∧
      s'.senderPackets =
        s'.links.countP (fun e => e.node = .sender ∧ (e.isDrop ∨ e.isSent)) := by
  obtain ⟨s', h⟩ : ∃ s', ((fresh (noisy 10 90) AlternatingBit.ends).prepare workload).run
      AlternatingBit.ends 1000 = .ok (true, s') := exists_run_of_completed (by decide +kernel)
  obtain ⟨n, -, turns, s₁, hhistory, hempty, -⟩ := history_of_run h
  obtain ⟨hcalls, -, hpackets, -⟩ := packets_conserved (create_noisy (by decide)) hhistory
  refine ⟨n, turns, s₁, hhistory, hempty, fun node => ?_, hpackets⟩
  rw [← hcalls node, Queue.inTransit, Queue.isEmpty_iff.mp hempty]
  rfl

end LossyLink
