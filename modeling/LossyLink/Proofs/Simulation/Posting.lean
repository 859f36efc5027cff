import LossyLink.Proofs.Simulation.Pending

/-! # Packets on a channel without random faults

With both rates zero the channel drops a packet only by a rule, which is used up, and
lets every other one arrive as it was sent. A step fails only if the clock cannot hold
the times that it asks for.
-/

namespace LossyLink

variable {σ ρ : Type}

/-- Zero, of either sign. -/
def IsZero (x : Float) : Prop := x = 0.0 ∨ x = -0.0

theorem Generator.hits_of_isZero {rate : Float} (h : IsZero rate) (g : Generator) :
    (g.hits rate).1 = false := by
  have hneg : Binary64.ofFloat (-0.0) = .finite true 0 Binary64.leastExponent := by
    decide +kernel
  rcases h with rfl | rfl
  · exact g.hits_zero
  · simp [hits, hneg]

/-- The channel neither loses nor damages packets at random. -/
structure Config.Faultless (c : Config) : Prop where
  lossRate : IsZero c.lossRate
  corruptRate : IsZero c.corruptRate

theorem Config.drawFate_of_faultless {c : Config} (h : c.Faultless)
    (hv : c.minLatency ≤ c.maxLatency) (g : Generator) :
    ∃ latency, (c.drawFate g).1 = .arrives false latency ∧ c.minLatency ≤ latency ∧
      latency ≤ c.maxLatency := by
  have hfate : ∃ latency, (c.drawFate g).1 = .arrives false latency := by
    simp [drawFate, Generator.hits_of_isZero h.lossRate, Generator.hits_of_isZero h.corruptRate]
  obtain ⟨latency, hl⟩ := hfate
  exact ⟨latency, hl, latency_of_drawFate hv hl⟩

/-- The packets of a node that count as the sender's. -/
def Node.senderPackets : Node → Nat
  | .sender => 1
  | .receiver => 0

namespace Simulation

open Situation

variable {ends : Ends σ ρ} {s s' : Simulation σ ρ} {node : Node} {p : Packet}

/-- What becomes of a packet when nothing is left to chance but its latency. -/
inductive Posted (node : Node) (p : Packet) (s s' : Simulation σ ρ) : Prop where
  | dropped (situation : s'.situation = s.situation)
      (senderPackets : s'.ledger.senderPackets = s.ledger.senderPackets + node.senderPackets)
      (drops : s'.ledger.drops = s.ledger.drops + 1)
      (rules : s'.ledger.rules + 1 = s.ledger.rules)
  | sent {latency : Nat} (le : latency ≤ s.config.maxLatency)
      (situation : s'.situation =
        s.situation.enqueue (s.clock + latency) (.arrival node.peer p))
      (senderPackets : s'.ledger.senderPackets = s.ledger.senderPackets + node.senderPackets)
      (drops : s'.ledger.drops = s.ledger.drops) (rules : s'.ledger.rules = s.ledger.rules)

theorem ledger_countSent (s : Simulation σ ρ) (node : Node) : (s.countSent node).ledger =
    { s.ledger with senderPackets := s.ledger.senderPackets + node.senderPackets } := by
  cases node <;> rfl

theorem posted_of_transmit (hf : s.config.Faultless)
    (hv : s.config.minLatency ≤ s.config.maxLatency) (h : s.transmit node p = .ok s') :
    Posted node p s s' := by
  have hledger := ledger_countSent s node
  have hsituation := situation_countSent s node
  have hconfig : (s.countSent node).config = s.config := congrArg Situation.config hsituation
  have hclock : (s.countSent node).clock = s.clock := congrArg Situation.clock hsituation
  simp only [transmit] at h
  generalize s.countSent node = t at h hledger hsituation hconfig hclock
  rw [← hconfig] at hf hv
  obtain ⟨latency, hfate, -, hmax⟩ := Config.drawFate_of_faultless hf hv t.generator
  rw [hconfig] at hmax
  simp only [carry, hfate] at h
  split at h
  · rename_i reason drops htake
    cases h
    refine .dropped hsituation ?_ ?_ ?_
    · exact congrArg Ledger.senderPackets hledger
    · rw [← congrArg Ledger.drops hledger]
      simp [ledger, dropCount, link, Array.countP_push, LinkEvent.isDrop]
    · rw [← congrArg Ledger.rules hledger]
      exact DropRules.count_of_take?_eq_some htake
  · have hsent := situation_after h
    have hafter := ledger_after h
    refine .sent hmax ?_ ?_ ?_ ?_
    · rw [hsent, ← hsituation, ← hclock]
      rfl
    · rw [hafter]
      exact congrArg Ledger.senderPackets hledger
    · rw [hafter, ← congrArg Ledger.drops hledger]
      simp [ledger, dropCount, link, LinkEvent.isDrop]
    · rw [hafter, ← congrArg Ledger.rules hledger]
      rfl

theorem exists_after_eq_ok {delay : Nat} {what : Happening} (h : s.clock + delay < clockLimit) :
    ∃ s', s.after delay what = .ok s' :=
  ⟨_, if_pos h⟩

theorem exists_transmit_eq_ok (node : Node) (p : Packet)
    (hv : s.config.minLatency ≤ s.config.maxLatency)
    (h : s.clock + s.config.maxLatency < clockLimit) : ∃ s', s.transmit node p = .ok s' := by
  have hsituation := situation_countSent s node
  have hconfig : (s.countSent node).config = s.config := congrArg Situation.config hsituation
  have hclock : (s.countSent node).clock = s.clock := congrArg Situation.clock hsituation
  unfold transmit
  generalize s.countSent node = t at hconfig hclock
  have hlate : ∀ {damaged latency}, (t.config.drawFate t.generator).1 = .arrives damaged latency →
      t.clock + latency < clockLimit := by
    intro damaged latency hf
    have hmax := (Config.latency_of_drawFate (hconfig ▸ hv) hf).2
    rw [hconfig] at hmax
    omega
  unfold carry
  simp only
  split
  · exact ⟨_, rfl⟩
  · split
    · exact ⟨_, rfl⟩
    · rename_i hf
      exact exists_after_eq_ok (hlate hf)
    · rename_i hf
      exact exists_after_eq_ok (hlate hf)

theorem exists_transmits_eq_ok (node : Node) (ps : List Packet)
    (hv : s.config.minLatency ≤ s.config.maxLatency)
    (h : ps = [] ∨ s.clock + s.config.maxLatency < clockLimit) :
    ∃ s', ps.foldlM (fun s p => s.transmit node p) s = .ok s' := by
  induction ps generalizing s with
  | nil => exact ⟨s, rfl⟩
  | cons p ps ih =>
    have hlate := h.resolve_left (List.cons_ne_nil _ _)
    obtain ⟨t, ht⟩ := exists_transmit_eq_ok node p hv hlate
    obtain ⟨queue, hframe⟩ := (situation_transmit hv ht).frame
    have hconfig : t.config = s.config := congrArg Situation.config hframe
    have hclock : t.clock = s.clock := congrArg Situation.clock hframe
    obtain ⟨s', hs⟩ := ih (s := t) (hconfig ▸ hv) (.inr (by rw [hconfig, hclock]; exact hlate))
    exact ⟨s', by rw [List.foldlM_cons, ht]; exact hs⟩

theorem exists_timers_eq_ok (node : Node) {ops : List TimerOp}
    (h : ∀ delay id, .start delay id ∈ ops → s.clock + delay < clockLimit) :
    ∃ s', ops.foldlM (fun s op => s.timer node op) s = .ok s' := by
  induction ops generalizing s with
  | nil => exact ⟨s, rfl⟩
  | cons op ops ih =>
    have hop : ∃ t, s.timer node op = .ok t := by
      cases op with
      | start delay id => exact exists_after_eq_ok (h delay id List.mem_cons_self)
      | cancel id => exact ⟨_, rfl⟩
    obtain ⟨t, ht⟩ := hop
    have hclock : t.clock = s.clock := by
      have hsituation := situation_timer ht
      cases op <;> exact congrArg Situation.clock hsituation
    obtain ⟨s', hs⟩ := ih (s := t) fun delay id hmem => by
      rw [hclock]
      exact h delay id (List.mem_cons_of_mem _ hmem)
    exact ⟨s', by rw [List.foldlM_cons, ht]; exact hs⟩

theorem exists_perform_eq_ok {actions : List Action}
    (hv : s.config.minLatency ≤ s.config.maxLatency)
    (hstarts : ∀ delay id, .start delay id ∈ actions.filterMap Action.timer? →
      s.clock + delay < clockLimit)
    (hsent : actions.filterMap Action.sent? = [] ∨ s.clock + s.config.maxLatency < clockLimit) :
    ∃ s', s.perform node actions = .ok s' := by
  have hsituation := situation_record s node actions
  have hperform := perform_eq s node actions
  generalize s.record node actions = r at hsituation hperform
  have hconfig : r.config = s.config := congrArg Situation.config hsituation
  have hclock : r.clock = s.clock := congrArg Situation.clock hsituation
  obtain ⟨t, ht⟩ := exists_timers_eq_ok (s := r) node (hclock ▸ hstarts)
  obtain ⟨queue, generations, hframe⟩ :=
    timers_frame (actions.filterMap Action.timer?) node r.situation
  rw [← situation_timers ht] at hframe
  have hconfig' : t.config = s.config := (congrArg Situation.config hframe).trans hconfig
  have hclock' : t.clock = s.clock := (congrArg Situation.clock hframe).trans hclock
  obtain ⟨s', hs⟩ := exists_transmits_eq_ok (s := t) node (actions.filterMap Action.sent?)
    (hconfig' ▸ hv) (by rw [hclock', hconfig']; exact hsent)
  exact ⟨s', by rw [hperform, ht]; exact hs⟩

theorem exists_step_eq_ok (h : ∀ e queue, s.queue.pop? = some (e, queue) → s.isStale e = false →
    ∃ s', { s with queue, clock := e.time }.handle ends e.what.node e.what.stimulus = .ok s') :
    ∃ r, s.step ends = .ok r := by
  unfold step
  split
  · exact ⟨_, rfl⟩
  · rename_i e queue hq
    simp only
    split
    · exact ⟨_, rfl⟩
    · rename_i hst
      obtain ⟨s', hs⟩ := h e queue hq (Bool.not_eq_true _ ▸ hst)
      exact ⟨_, by rw [hs]⟩

end Simulation

end LossyLink
