import LossyLink.Proofs.Protocol.Frugal
import LossyLink.Proofs.Simulation.Operation
import LossyLink.Proofs.Simulation.Renewal
import LossyLink.Proofs.StopAndWait.Termination

/-! # Headroom

Times and numbers are kept in words of a machine. What a simulation uses up of them in one step
is bounded when its ends ask for little: it looks ahead by one latency or timeout, numbers two
events, touches a timer twice and counts one packet. So a run of a given number of steps has
enough of all of them if the times of its plan leave so much room.
-/

namespace LossyLink

variable {σ ρ : Type}

/-- Both ends ask for little, and the sender counts no more than its calls. -/
structure Ends.Frugal (ends : Ends σ ρ) (tally : σ → Nat) (limit : Nat) : Prop where
  sender : ends.sender.Frugal tally limit
  receiver : ends.receiver.Frugal (fun _ => 0) limit

section Frugal

variable {ends : Ends σ ρ} {tally : σ → Nat} {limit : Nat}

theorem Ends.Frugal.quiet_answer (h : ends.Frugal tally limit) (node : Node) (now : Nat)
    (sender : σ) (receiver : ρ) : Quiet (ends.answer node now .init sender receiver) := by
  cases node with
  | sender => exact (h.sender.init now sender).1
  | receiver => exact (h.receiver.init now receiver).1

theorem Ends.Frugal.sparing_answer (h : ends.Frugal tally limit) (node : Node) (now : Nat)
    {x : Stimulus} (hx : x ≠ .init) (sender : σ) (receiver : ρ) :
    Sparing limit (ends.answer node now x sender receiver) := by
  cases node with
  | sender => exact (h.sender.call now sender hx).1
  | receiver => exact (h.receiver.call now receiver hx).1

end Frugal

namespace Situation

variable {ends : Ends σ ρ} {c c' : Situation σ ρ} {node : Node} {x : Stimulus}
  {latest events generations latest' events' generations' limit : Nat} {tally : σ → Nat}

/-- Events are due until the latest time, so many of them were numbered, and so many generations
of any timer begun, or fewer. -/
structure Within (latest events generations : Nat) (c : Situation σ ρ) : Prop where
  due : ∀ e ∈ c.queue.toList, e.time ≤ latest
  events : c.queue.nextId ≤ events
  generations : ∀ k, c.generations.get k ≤ generations

theorem Within.mono (h : c.Within latest events generations) (hlatest : latest ≤ latest')
    (hevents : events ≤ events') (hgenerations : generations ≤ generations') :
    c.Within latest' events' generations' where
  due e he := Nat.le_trans (h.due e he) hlatest
  events := Nat.le_trans h.events hevents
  generations k := Nat.le_trans (h.generations k) hgenerations

theorem Within.enqueue (h : c.Within latest events generations) {time : Nat}
    (ht : time ≤ latest) (what : Happening) :
    (c.enqueue time what).Within latest (events + 1) generations where
  due e he := by
    rcases Queue.mem_schedule.mp he with rfl | he
    · exact ht
    · exact h.due e he
  events := Nat.succ_le_succ h.events
  generations := h.generations

theorem Within.cancel (h : c.Within latest events generations) (id : UInt32) :
    (c.timer node (.cancel id)).Within latest events (generations + 1) where
  due := h.due
  events := h.events
  generations k := by
    have hk := h.generations k
    have hid := h.generations (node, id)
    show (c.generations.bump (node, id)).get k ≤ generations + 1
    rw [Generations.get_bump]
    split <;> omega

theorem Within.start (h : c.Within latest events generations) {delay : Nat}
    (hd : c.clock + delay ≤ latest) (id : UInt32) :
    (c.timer node (.start delay id)).Within latest (events + 1) (generations + 1) :=
  (h.cancel id).enqueue hd _

theorem Within.runTimers {ops : List TimerOp} (h : c.Within latest events generations)
    (hops : Winding limit ops) (hl : c.clock + limit ≤ latest) :
    (c.runTimers node ops).Within latest (events + 1) (generations + 2) := by
  cases hops with
  | none => exact h.mono (by omega) (by omega) (by omega)
  | stop id => exact (h.cancel id).mono (by omega) (by omega) (by omega)
  | start le id => exact (h.start (by omega) id).mono (by omega) (by omega) (by omega)
  | @restart delay le stopped id =>
    have hd : c.clock + delay ≤ latest := by omega
    exact (h.cancel stopped).start hd id

theorem Within.carried {p : Packet} (h : c.Within latest events generations)
    (hl : c.clock + c.config.maxLatency ≤ latest) (hc : Carried node p c c') :
    c'.Within latest (events + 1) generations := by
  cases hc with
  | dropped => exact h.mono (by omega) (by omega) (by omega)
  | sent _ _ hmax => exact h.enqueue (by omega) _

theorem Handled.exists_carriedAll (h : Handled ends x c node c') : ∃ sender receiver,
    CarriedAll node
      ((ends.answer node c.clock x c.sender c.receiver).filterMap Action.sent?)
      ({ c with sender, receiver }.carryOut node
        (ends.answer node c.clock x c.sender c.receiver)) c' := by
  cases h with
  | @sender sender _ _ hr hc =>
    refine ⟨sender, c.receiver, ?_⟩
    rw [Ends.answer, hr]
    exact hc
  | @receiver receiver _ _ hr hc =>
    refine ⟨c.sender, receiver, ?_⟩
    rw [Ends.answer, hr]
    exact hc

theorem Within.started (hends : ends.Frugal tally limit) (h : c.Within latest events generations)
    (hh : Handled ends .init c node c') : c'.Within latest events generations := by
  obtain ⟨sender, receiver, hc⟩ := hh.exists_carriedAll
  have hquiet := hends.quiet_answer node c.clock c.sender c.receiver
  rw [hquiet.sent, carriedAll_nil, carryOut_of_quiet hquiet] at hc
  rw [hc]
  exact ⟨h.due, h.events, h.generations⟩

/-- An answer takes two events and two generations, and nothing later than its packet or its
timer may be due. -/
theorem Within.handled (hends : ends.Frugal tally limit) (hx : x ≠ .init)
    (h : c.Within latest events generations)
    (hl : c.clock + max c.config.maxLatency limit ≤ latest) (hh : Handled ends x c node c') :
    c'.Within latest (events + 2) (generations + 2) := by
  obtain ⟨sender, receiver, hc⟩ := hh.exists_carriedAll
  obtain ⟨hsent, htimers⟩ := hends.sparing_answer node c.clock hx c.sender c.receiver
  generalize ends.answer node c.clock x c.sender c.receiver = actions at hc hsent htimers
  obtain ⟨queue, generations', hframe⟩ := carryOut_frame { c with sender, receiver } node actions
  have hlimit : c.clock + limit ≤ latest := by omega
  have hlatency : c.clock + c.config.maxLatency ≤ latest := by omega
  have hrecorded : { c with
      sender, receiver,
      delivered := c.delivered ++ actions.filterMap Action.delivered? }.Within
        latest events generations := ⟨h.due, h.events, h.generations⟩
  have htimed : ({ c with sender, receiver }.carryOut node actions).Within
      latest (events + 1) (generations + 2) := hrecorded.runTimers htimers hlimit
  rcases hsent with hsent | ⟨p, hsent⟩
  · rw [hsent, carriedAll_nil] at hc
    rw [hc]
    exact htimed.mono (by omega) (by omega) (by omega)
  · rw [hsent, carriedAll_singleton] at hc
    apply htimed.carried _ hc
    rw [hframe]
    exact hlatency

theorem Within.step {span : Nat} {o : Outcome} (hends : ends.Frugal tally limit)
    (h : c.Within latest events generations) (hspan : max c.config.maxLatency limit ≤ span)
    (hs : Step ends c o c') : c'.Within (latest + span) (events + 2) (generations + 2) := by
  cases hs with
  | drained => exact h.mono (by omega) (by omega) (by omega)
  | @stale e queue hq _ =>
    have hrest : { c with queue }.Within latest events generations :=
      ⟨fun a ha => h.due a (Queue.mem_of_mem_rest hq ha),
        Queue.nextId_of_pop?_eq_some hq ▸ h.events, h.generations⟩
    exact hrest.mono (by omega) (by omega) (by omega)
  | @handled e queue _ hq _ hh =>
    have htime := h.due e (Queue.first_mem_of_pop?_eq_some hq)
    have hreach : (c.reach e queue).Within (latest + span) events generations :=
      ⟨fun a ha => Nat.le_add_right_of_le (h.due a (Queue.mem_of_mem_rest hq ha)),
        Queue.nextId_of_pop?_eq_some hq ▸ h.events, h.generations⟩
    exact hreach.handled hends e.what.stimulus_ne_init
      (Nat.add_le_add htime hspan) hh

theorem Step.tally_le {o : Outcome} (hends : ends.Frugal tally limit) (hs : Step ends c o c') :
    tally c'.sender ≤ tally c.sender + 1 := by
  cases hs with
  | drained => exact Nat.le_succ _
  | stale => exact Nat.le_succ _
  | @handled e queue _ hq _ hh =>
    generalize hn : e.what.node = n at hh
    cases n with
    | sender =>
      obtain ⟨_, _, _, rfl⟩ := hh.sender_frame
      exact (hends.sender.call e.time c.sender e.what.stimulus_ne_init).2
    | receiver =>
      obtain ⟨_, _, _, rfl⟩ := hh.receiver_frame
      exact Nat.le_succ _

end Situation

namespace Simulation

open Situation

variable {ends : Ends σ ρ} {config : Config} {plan : List Preparation} {s s' t : Simulation σ ρ}
  {node : Node} {x : Stimulus} {tally : σ → Nat} {limit latest events span : Nat}

theorem senderPackets_of_perform {actions : List Action}
    (hv : s.config.minLatency ≤ s.config.maxLatency) (h : s.perform node actions = .ok s') :
    s'.senderPackets =
      s.senderPackets + (actions.filterMap Action.sent?).length * node.senderPackets := by
  obtain ⟨t, posts, -, -, hpackets, hposts, hc⟩ := exists_conveyed_of_perform hv h
  rw [hc.senderPackets, hpackets, ← hposts, List.length_map]

theorem senderPackets_le_of_handle (hends : ends.Frugal tally limit) (hx : x ≠ .init)
    (hv : s.config.minLatency ≤ s.config.maxLatency) (h : s.handle ends node x = .ok s') :
    s'.senderPackets ≤ s.senderPackets + 1 := by
  have hone := (hends.sparing_answer node s.clock hx s.sender s.receiver).length_sent_le
  have hnode : node.senderPackets ≤ 1 := by cases node <;> decide
  have hmul := Nat.mul_le_mul hone hnode
  rw [handle_eq] at h
  rw [senderPackets_of_perform (by simpa using hv) h, senderPackets_absorb]
  omega

theorem exists_handle_eq_ok_of_frugal (hends : ends.Frugal tally limit) (hx : x ≠ .init)
    (hv : s.config.minLatency ≤ s.config.maxLatency)
    (hl : s.clock + max s.config.maxLatency limit < clockLimit) :
    ∃ s', s.handle ends node x = .ok s' := by
  obtain ⟨-, htimers⟩ := hends.sparing_answer node s.clock hx s.sender s.receiver
  rw [handle_eq]
  apply exists_perform_eq_ok (by simpa using hv)
  · intro delay id hmem
    have hdelay := htimers.delay_le hmem
    rw [clock_absorb]
    omega
  · right
    rw [clock_absorb, config_absorb]
    omega

theorem exists_start_eq_ok_of_frugal (hends : ends.Frugal tally limit) (node : Node)
    (s : Simulation σ ρ) : ∃ s', s.handle ends node .init = .ok s' ∧ s'.ledger = s.ledger := by
  have hquiet := hends.quiet_answer node s.clock s.sender s.receiver
  obtain ⟨s', hs, hledger⟩ := perform_of_quiet hquiet (s.absorb ends node .init) node
  refine ⟨s', (handle_eq ends s node .init).trans hs, hledger.trans ?_⟩
  cases node <;> rfl

theorem within_prepare (h : s.situation.Within latest events 0)
    (hplan : ∀ x ∈ planned plan, x.1 ≤ latest) :
    (s.prepare plan).situation.Within latest (events + (planned plan).length) 0 := by
  induction plan generalizing s events with
  | nil => exact h
  | cons p plan ih =>
    rw [prepare_cons]
    cases p with
    | submit time data =>
      have htime : time ≤ latest := hplan (time, data) List.mem_cons_self
      have hrest := ih (s := s.submitAt time data) (h.enqueue htime (.submission data))
        fun x hx => hplan x (List.mem_cons_of_mem _ hx)
      exact hrest.mono (Nat.le_refl _) (by simp +arith [planned, Preparation.submission?])
        (Nat.le_refl _)
    | dropSeq seq => exact ih (s := s.dropSeq seq) h hplan
    | dropAck ack => exact ih (s := s.dropAck ack) h hplan

/-- What a simulation has used up after a number of steps. -/
structure Spent (config : Config) (tally : σ → Nat) (latest events span steps : Nat)
    (s : Simulation σ ρ) : Prop where
  config : s.config = config
  within : s.situation.Within (latest + steps * span) (events + 2 * steps) (2 * steps)
  packets : s.senderPackets ≤ steps
  tally : tally s.sender ≤ steps

theorem Spent.step {steps : Nat} {o : Outcome} (hends : ends.Frugal tally limit)
    (hv : config.Valid) (hspan : max config.maxLatency limit ≤ span)
    (h : Spent config tally latest events span steps s) (hs : s.step ends = .ok (o, s')) :
    Spent config tally latest events span (steps + 1) s' := by
  have hlatency : s.config.minLatency ≤ s.config.maxLatency := h.config ▸ hv.latency
  have hmax : max s.config.maxLatency limit ≤ span := h.config ▸ hspan
  have hstep := situation_step hlatency hs
  constructor
  · exact hstep.config_eq.trans h.config
  · have hnext := h.within.step hends hmax hstep
    exact hnext.mono (by rw [Nat.succ_mul, Nat.add_assoc]) (by omega) (by omega)
  · have hpackets := h.packets
    rcases step_eq_ok hs with ⟨-, -, rfl⟩ | ⟨e, queue, -, -, -, rfl⟩ | ⟨e, queue, -, -, -, hh⟩
    · exact Nat.le_succ_of_le hpackets
    · exact Nat.le_succ_of_le hpackets
    · have hone := senderPackets_le_of_handle hends e.what.stimulus_ne_init (by exact hlatency) hh
      exact Nat.le_trans hone (Nat.succ_le_succ hpackets)
  · exact Nat.le_trans (hstep.tally_le hends) (Nat.succ_le_succ h.tally)

theorem Spent.exists_step {steps : Nat} (hends : ends.Frugal tally limit) (hv : config.Valid)
    (hspan : max config.maxLatency limit ≤ span) (hroom : latest + (steps + 1) * span < clockLimit)
    (h : Spent config tally latest events span steps s) : ∃ r, s.step ends = .ok r := by
  apply exists_step_eq_ok
  intro e queue hq _
  have htime : e.time ≤ latest + steps * span :=
    h.within.due e (Queue.first_mem_of_pop?_eq_some hq)
  rw [Nat.succ_mul] at hroom
  apply exists_handle_eq_ok_of_frugal hends e.what.stimulus_ne_init
  · exact h.config ▸ hv.latency
  · show e.time + max s.config.maxLatency limit < clockLimit
    rw [h.config]
    omega

theorem exists_spent_of_init (hends : ends.Frugal tally limit) (hv : config.Valid) (span : Nat)
    (hplan : ∀ x ∈ planned plan, x.1 ≤ latest) :
    ∃ s, ((fresh config ends).prepare plan).init ends = .ok s ∧
      Spent config tally latest (planned plan).length span 0 s := by
  have hprepared : ((fresh config ends).prepare plan).situation.Within latest
      (0 + (planned plan).length) 0 := by
    apply within_prepare _ hplan
    exact ⟨by simp [fresh, situation], Nat.le_refl 0, fun _ => Nat.le_refl 0⟩
  have hledger := ledger_prepare_fresh config ends plan
  have hconfig : ((fresh config ends).prepare plan).config = config := config_prepare _ plan
  generalize (fresh config ends).prepare plan = s at hprepared hledger hconfig
  obtain ⟨t, ht, htledger⟩ := exists_start_eq_ok_of_frugal hends .sender s
  obtain ⟨u, hu, huledger⟩ := exists_start_eq_ok_of_frugal hends .receiver t
  have hsender := situation_handle (hconfig ▸ hv.latency) ht
  have htconfig : t.config = config := hsender.config_eq.trans hconfig
  have hreceiver := situation_handle (htconfig ▸ hv.latency) hu
  refine ⟨u, ?_, hreceiver.config_eq.trans htconfig, ?_, ?_, ?_⟩
  · simp only [init, ht]
    exact hu
  · exact ((hprepared.started hends hsender).started hends hreceiver).mono (by omega) (by omega)
      (by omega)
  · have hpackets := congrArg Ledger.senderPackets (huledger.trans (htledger.trans hledger))
    exact Nat.le_of_eq hpackets
  · obtain ⟨_, _, _, hsframe⟩ := hsender.sender_frame
    obtain ⟨_, _, _, hrframe⟩ := hreceiver.receiver_frame
    have hstate : u.sender = (ends.sender.react s.clock .init s.sender).1 :=
      (congrArg Situation.sender hrframe).trans (congrArg Situation.sender hsframe)
    rw [hstate]
    exact Nat.le_of_eq (hends.sender.init s.clock s.sender).2

theorem history_concat {n : Nat} {turns : List (Turn σ ρ)} {o : Outcome}
    (h : s.history ends n = .ok (turns, t)) (hs : t.step ends = .ok (o, s')) :
    s.history ends (n + 1) = .ok (turns ++ [⟨t, o⟩], s') := by
  obtain ⟨s₁, hinit, hwalk⟩ := history_eq_ok h
  have hlast : t.walk ends 1 = .ok ([⟨t, o⟩], s') := by simp only [walk, hs]
  simp only [history, hinit]
  exact walk_append hwalk hlast

/-- As long as the times leave room no step fails, and its number tells what is used up. -/
theorem exists_history_of_frugal {m : Nat} (hends : ends.Frugal tally limit)
    (hs : create config ends = .ok s) (hplan : ∀ x ∈ planned plan, x.1 ≤ latest)
    (hroom : latest + m * max config.maxLatency limit < clockLimit) {k : Nat} (hk : k ≤ m) :
    ∃ turns t, (s.prepare plan).history ends k = .ok (turns, t) ∧
      Spent config tally latest (planned plan).length (max config.maxLatency limit) k t := by
  obtain ⟨hv, rfl⟩ := create_eq_ok_iff.mp hs
  induction k with
  | zero =>
    obtain ⟨t, ht, hspent⟩ :=
      exists_spent_of_init hends hv (max config.maxLatency limit) hplan
    exact ⟨[], t, by simp only [history, ht, walk], hspent⟩
  | succ k ih =>
    obtain ⟨turns, t, hhistory, hspent⟩ := ih (Nat.le_of_succ_le hk)
    have hmul := Nat.mul_le_mul_right (max config.maxLatency limit) hk
    obtain ⟨⟨o, t'⟩, ho⟩ := hspent.exists_step hends hv (Nat.le_refl _) (by omega)
    exact ⟨_, t', history_concat hhistory ho, hspent.step hends hv (Nat.le_refl _) ho⟩

end Simulation

theorem Protocol.ends_frugal (p q : Protocol) :
    (p.ends q).Frugal p.retransmissions AlternatingBit.timeout :=
  ⟨p.sender_frugal, q.receiver_frugal⟩

namespace Simulation

/-- What holds `k` steps after so many submissions: no event is due too late, and no number has
left its range. Packets are counted in 32 bits, and generations, retransmissions and events in 64;
a queue of 2⁶³ submissions does not fit into memory. -/
structure InRange (p : Protocol) (latest delay submissions k : Nat)
    (t : Simulation p.sender.State ρ) : Prop where
  due : ∀ e ∈ t.queue.toList, e.time ≤ latest + k * delay
  senderPackets : t.senderPackets < 2 ^ 32
  generations : ∀ timer, t.generations.get timer < 2 ^ 64
  retransmissions : p.retransmissions t.sender < 2 ^ 64
  events : t.queue.nextId ≤ submissions + 2 * k
  nextId : submissions < 2 ^ 63 → t.queue.nextId < 2 ^ 64

/-- A run of any two protocols with a limit below 2³² never fails if the times planned leave room
for one latency, or one timeout, per event. -/
theorem run_within_range (p q : Protocol) {config : Config} {plan : List Preparation}
    {latest m : Nat} {s : Simulation p.sender.State q.receiver.State}
    (hs : create config (p.ends q) = .ok s) (hplan : ∀ x ∈ planned plan, x.1 ≤ latest)
    (hm : m < 2 ^ 32) (hroom : latest + m * max config.maxLatency 3000 < 2 ^ 64) :
    (∃ r, (s.prepare plan).run (p.ends q) m = .ok r) ∧
    ∀ k ≤ m, ∃ turns t, (s.prepare plan).history (p.ends q) k = .ok (turns, t) ∧
      InRange p latest (max config.maxLatency 3000) (planned plan).length k t := by
  have hhistory := fun {k : Nat} (hk : k ≤ m) =>
    exists_history_of_frugal (p.ends_frugal q) hs hplan hroom hk
  constructor
  · obtain ⟨turns, t, h, -⟩ := hhistory (Nat.le_refl m)
    exact ⟨_, by rw [run_eq_history, h]; rfl⟩
  · intro k hk
    obtain ⟨turns, t, h, hspent⟩ := hhistory hk
    have hpackets := hspent.packets
    have htally := hspent.tally
    have hevents : t.queue.nextId ≤ (planned plan).length + 2 * k := hspent.within.events
    refine ⟨turns, t, h, hspent.within.due, by omega, ?_, by omega, hevents, by omega⟩
    intro timer
    have hgeneration : t.generations.get timer ≤ 2 * k := hspent.within.generations timer
    omega

/-- Three latencies take the clock to its last millisecond but one. -/
theorem run_within_range_to_the_end :
    let ends := Protocol.ends .alternatingBit .queued
    let config := noisy 6148914691236510538 6148914691236510538
    create config ends = .ok (fresh config ends) ∧ (∀ x ∈ planned workload, x.1 ≤ 20000) ∧
      3 < 2 ^ 32 ∧ 20000 + 3 * max config.maxLatency 3000 = 2 ^ 64 - 2 ∧
      ∃ r, ((fresh config ends).prepare workload).run ends 3 = .ok r := by
  intro ends config
  have hs : create config ends = .ok (fresh config ends) := create_noisy (Nat.le_refl _)
  have hplan : ∀ x ∈ planned workload, x.1 ≤ 20000 := by decide
  have hroom : 20000 + 3 * max config.maxLatency 3000 = 2 ^ 64 - 2 := by decide
  refine ⟨hs, hplan, by decide, hroom, ?_⟩
  exact (run_within_range .alternatingBit .queued hs hplan (by decide) (by omega)).1

end Simulation

end LossyLink
