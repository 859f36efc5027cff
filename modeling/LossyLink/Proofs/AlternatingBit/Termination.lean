import LossyLink.Proofs.AlternatingBit.Accounting
import LossyLink.Proofs.Simulation.Conservation
import LossyLink.Proofs.StopAndWait.Termination
import Mathlib.Data.List.Chain

/-! # Messages with time between them are all accepted

The sender turns a message away that comes while it waits. Where packets are dropped by rules
alone, it waits for one way there and back at most, and a timeout for each rule. So messages
that leave it more time than that are all accepted, and come out in order.
-/

namespace LossyLink.AlternatingBit

open Situation

variable {config : Config} {s s' : Simulation Sender Receiver} {plan : List Preparation}
  {turns : List (Turn Sender Receiver)} {n : Nat}

theorem accepted_of_submitted_eq_nil (h : submitted turns = []) : accepted turns = [] := by
  refine List.filterMap_eq_nil_iff.mpr fun x hx => ?_
  exact faithful.accepts (List.filterMap_eq_nil_iff.mp h x hx)

theorem stage_eq_idle {x : Course} (hcovered : x.Covered timeout config.maxLatency)
    (hx : Accounted sending receiving (heard turns) (lastTime (timetabled turns)) s' x)
    (hnone : timetabled turns = []) : x.stage = .idle := by
  have haccepted : x.accepted = (accepted turns).length := hx.follows.accepted
  rw [accepted_of_submitted_eq_nil (by rw [submitted_eq, hnone]; rfl)] at haccepted
  have hsettled := hcovered.settled
  rw [haccepted, List.length_nil] at hsettled
  exact Course.eq_idle_of_busy_eq_zero (by omega)

/-- Without random faults nothing is due later after the last submission than rules and
latencies account for. -/
theorem due_le_of_faultless {x : Course} (hs : Simulation.create config ends = .ok s)
    (hf : config.Faultless) (hlatency : 2 * config.maxLatency < timeout)
    (h : (s.prepare plan).history ends n = .ok (turns, s'))
    (hx : Accounted sending receiving (heard turns) (lastTime (timetabled turns)) s' x)
    (hpaid : x.Paid timeout config.maxLatency) :
    x.due timeout ≤ x.last + (timeout * (scripted plan).length + 2 * config.maxLatency) := by
  have hbudgeted := budgeted_of_history sending_lawful receiving_lawful faithful hf hlatency hs h
  have hdrops : x.drops ≤ (scripted plan).length := by
    rw [hx.follows.drops_eq, ← hbudgeted.balanced.rules]
    exact Nat.le_add_right _ _
  have hacks : x.damagedAcks = 0 := by
    rw [hx.follows.damagedAcks_eq, Simulation.damageCount, ← Array.countP_toList]
    refine List.countP_eq_zero.mpr fun a ha => ?_
    simp [Simulation.isCorruption_of_history hs hf.corruptRate h a ha]
  have hdue := hpaid.due_le
  have hcost := Nat.mul_le_mul_left timeout hdrops
  rw [Course.grant, hacks] at hdue
  omega

/-- When a message comes the one before it is acknowledged. -/
theorem isWaiting_of_spaced (hs : Simulation.create config ends = .ok s)
    (hf : config.Faultless) (hlatency : 2 * config.maxLatency < timeout)
    (hspaced : (timetable plan).IsChain fun x y =>
      x.1 + (timeout * (scripted plan).length + 2 * config.maxLatency) < y.1)
    (h : (s.prepare plan).history ends n = .ok (turns, s')) {e : Event} {queue : Queue}
    {data : Payload} (hq : s'.queue.pop? = some (e, queue)) (hw : e.what = .submission data) :
    s'.sender.isWaiting = false := by
  obtain ⟨x, hmoves, hx⟩ := exists_accounted_of_history accountable hlatency hs h
  have hwaiting : (sending.current s'.sender).isSome = s'.sender.isWaiting := Option.isSome_map
  rw [← hwaiting, ← Bool.not_eq_true]
  intro hwait
  -- what the message under way depends on waits as well, so the next message is not later
  obtain ⟨d, hd, htime⟩ := hx.exists_due hwait
  have hle : e.time ≤ x.due timeout := by
    rw [← show d.time = x.due timeout from htime]
    rcases (Queue.mem_of_pop?_eq_some hq).mp hd with rfl | hd
    · exact Nat.le_refl _
    · exact Queue.time_le_of_pop?_eq_some hq d hd
  have hdue := due_le_of_faultless hs hf hlatency h hx (Course.paid_of_moves trivial hmoves)
  have htimetable := timetabled_append_timetable hs h
  rw [Queue.timetable_of_pop?_eq_some hq] at htimetable
  cases hlast : (timetabled turns).getLast? with
  | none =>
    have hidle := stage_eq_idle (Course.covered_of_moves hlatency hmoves) hx
      (List.getLast?_eq_none_iff.mp hlast)
    have hstands := hx.follows.stage
    rw [hidle] at hstands
    rw [show sending.current s'.sender = none from hstands.current_eq_none] at hwait
    cases hwait
  | some y =>
    have hxlast : x.last = y.1 := by
      rw [hx.follows.last, lastTime, hlast]
      rfl
    have hgap : y.1 + (timeout * (scripted plan).length + 2 * config.maxLatency) < e.time := by
      rw [← htimetable] at hspaced
      have hnext := (List.isChain_append.mp hspaced).2.2 y hlast (e.time, data)
      exact hnext (by simp [Event.timed?, Event.submission?, hw])
    omega

theorem isWaiting_of_heard (hs : Simulation.create config ends = .ok s) (hf : config.Faultless)
    (hlatency : 2 * config.maxLatency < timeout)
    (hspaced : (timetable plan).IsChain fun x y =>
      x.1 + (timeout * (scripted plan).length + 2 * config.maxLatency) < y.1)
    (h : (s.prepare plan).history ends n = .ok (turns, s')) :
    ∀ x ∈ heard turns, ∀ data, x.2 = .app data → x.1.isWaiting = false := by
  intro x hx data hdata
  obtain ⟨t, ht, hheard⟩ := List.mem_filterMap.mp hx
  obtain ⟨past, rest, rfl⟩ := List.append_of_mem ht
  obtain ⟨k, s₁, hk, hstep⟩ := Simulation.history_of_append h
  obtain ⟨z, hz, rfl⟩ := Option.map_eq_some_iff.mp hheard
  obtain rfl : z = .app data := hdata
  rcases Simulation.step_eq_ok hstep with ⟨-, ho, -⟩ | ⟨e, queue, -, -, ho, -⟩ |
    ⟨e, queue, hq, -, ho, -⟩
  · rw [ho] at hz
    cases hz
  · rw [ho] at hz
    cases hz
  · have hsubmission : e.submission? = some data := by
      rw [Event.submission?_eq, ← ho, hz]
      rfl
    exact isWaiting_of_spaced hs hf hlatency hspaced hk hq
      (Event.submission?_eq_some_iff.mp hsubmission)

theorem accepted_eq_submitted
    (h : ∀ x ∈ heard turns, ∀ data, x.2 = .app data → x.1.isWaiting = false) :
    accepted turns = submitted turns := by
  refine List.filterMap_congr fun x hx => ?_
  obtain ⟨s, z⟩ := x
  cases z with
  | app data => simp [Sender.taken?, Stimulus.submission?, h _ hx data rfl]
  | init => rfl
  | packet p => rfl
  | timer id => rfl

/-- No message is turned away, and all are delivered. -/
theorem completes_when_spaced (hs : Simulation.create config ends = .ok s)
    (hloss : IsZero config.lossRate) (hcorrupt : IsZero config.corruptRate)
    (hlatency : 2 * config.maxLatency < timeout) (plan : List Preparation)
    (hcount : (planned plan).length + (scripted plan).length < 2 ^ 32)
    (hspaced : (timetable plan).IsChain fun x y =>
      x.1 + (timeout * (scripted plan).length + 2 * config.maxLatency) < y.1) {limit : Nat}
    (hl : 4 * (planned plan).length + 2 * (scripted plan).length ≤ limit) :
    Completes ends timeout s plan limit ∧
    (∀ n turns s', (s.prepare plan).history ends n = .ok (turns, s') →
      ∀ x ∈ heard turns, ∀ data, x.2 = .app data → x.1.isWaiting = false) ∧
    ∀ s', (s.prepare plan).run ends limit = .ok (true, s') →
      ∃ n turns s₁, (s.prepare plan).history ends n = .ok (turns, s₁) ∧
        s' = s₁.close limit true ∧ accepted turns = outgoing plan := by
  have hf : config.Faultless := ⟨hloss, hcorrupt⟩
  have haccepted : ∀ {n turns s'}, (s.prepare plan).history ends n = .ok (turns, s') →
      s'.queue.isEmpty → accepted turns = outgoing plan := by
    intro n turns s' h hempty
    rw [accepted_eq_submitted (isWaiting_of_heard hs hf hlatency hspaced h)]
    exact submitted_of_drained hs h hempty
  refine ⟨?_, fun n turns s' h => isWaiting_of_heard hs hf hlatency hspaced h, ?_⟩
  · exact completes_of_faultless sending_lawful receiving_lawful faithful hf hlatency hs plan
      hcount haccepted hl
  · intro s' hrun
    obtain ⟨n, -, turns, s₁, h, hempty, rfl⟩ := Simulation.history_of_run hrun
    exact ⟨n, turns, s₁, h, rfl, haccepted h hempty⟩

/-- Sixteen events suffice for three messages and two rules. -/
theorem completes_over_default_link : ∃ s' : Simulation Sender Receiver,
    ((Simulation.fresh {} ends).prepare spaced).run ends 16 = .ok (true, s') ∧
      s'.delivered.toList = outgoing spaced ∧ s'.senderPackets = 3 + s'.dropCount := by
  have hp : isProbability 0.0 = true := by decide +kernel
  have hs : Simulation.create {} ends = .ok (Simulation.fresh {} ends) :=
    Simulation.create_eq_ok_iff.mpr ⟨⟨hp, hp, by decide⟩, rfl⟩
  have htimetable : timetable spaced = [(0, [1, 2]), (9000, [9]), (20000, [3])] := by
    show List.mergeSort [(20000, [3]), (0, [1, 2]), (9000, [9])] notLater = _
    simp [List.mergeSort, notLater]
  obtain ⟨h, -, -⟩ := completes_when_spaced hs (.inl rfl) (.inl rfl) (by decide)
    spaced (by decide) (by rw [htimetable]; decide)
    (by decide : 4 * (planned spaced).length + 2 * (scripted spaced).length ≤ 16)
  obtain ⟨s', hrun⟩ := h.exists_run (by decide)
  obtain ⟨-, hdelivered, hpackets⟩ := h.outcome true s' hrun
  exact ⟨s', hrun, hdelivered, hpackets⟩

end LossyLink.AlternatingBit
