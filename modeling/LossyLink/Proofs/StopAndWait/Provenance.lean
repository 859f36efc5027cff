import LossyLink.Proofs.Simulation.Conservation
import LossyLink.Proofs.StopAndWait.Delivery

/-! # Where packets come from

Both ends of a stop-and-wait protocol are sound in every state of a history. So all that
the sender hands to the channel are data packets, and the receiver is shown nothing but
copies of these; a copy is damaged only over a channel that damages packets at all.
-/

namespace LossyLink

open Simulation Situation

variable {σ ρ : Type} {F : Format} {A : SendingSide F σ} {B : ReceivingSide F ρ}
  {config : Config} {plan : List Preparation} {s s' : Simulation σ ρ} {turns : List (Turn σ ρ)}
  {n : Nat}

theorem soundEnds_of_history (hA : A.Lawful) (hB : B.Lawful)
    (hs : create config (A.ends B) = .ok s)
    (h : (s.prepare plan).history (A.ends B) n = .ok (turns, s')) :
    s'.situation.SoundEnds A B := by
  refine history_induction (P := fun _ c => c.SoundEnds A B) hs ?_ ?_ h
  · intro c c' hsender hreceiver
    obtain ⟨sender, receiver, rfl, hsound, -, -, -, hsound', -⟩ :=
      eq_of_init hA hB hsender hreceiver
    exact ⟨hsound, hsound'⟩
  · intro log c o c' hc hstep
    exact hc.step hA hB hstep

theorem mem_ofActions_iff {time : Nat} {node : Node} {actions : List Action} {d : Demand}
    {q : Packet} (hq : d.request = .send q) :
    d ∈ Demand.ofActions time node actions ↔
      d = ⟨time, node, .send q⟩ ∧ q ∈ actions.filterMap Action.sent? := by
  obtain ⟨t, m, r⟩ := d
  obtain rfl : r = .send q := hq
  simp only [Demand.ofActions, List.mem_append, List.mem_map, Demand.mk.injEq, reduceCtorEq,
    and_false, exists_false, false_or, Request.send.injEq, and_true]
  constructor
  · rintro ⟨p, hp, rfl, rfl, rfl⟩
    exact ⟨⟨rfl, rfl⟩, hp⟩
  · rintro ⟨⟨rfl, rfl⟩, hp⟩
    exact ⟨q, hp, rfl, rfl, rfl⟩

theorem SendingSide.Reply.exists_data {sender sender' : σ} {x : Stimulus}
    {actions : List Action} (h : A.Reply sender x sender' actions) {q : Packet}
    (hq : q ∈ actions.filterMap Action.sent?) : ∃ b m, q = F.data b m := by
  cases h.output with
  | silent _ _ _ quiet =>
    rw [quiet.sent] at hq
    cases hq
  | released _ _ sent =>
    rw [sent] at hq
    cases hq
  | @sending m _ _ _ sent =>
    rw [sent] at hq
    exact ⟨_, m, List.mem_singleton.mp hq⟩

theorem exists_data_of_demanded (hA : A.Lawful) (hB : B.Lawful)
    (hs : create config (A.ends B) = .ok s)
    (h : (s.prepare plan).history (A.ends B) n = .ok (turns, s')) {time : Nat} {q : Packet}
    (hd : ⟨time, .sender, .send q⟩ ∈ (s.prepare plan).demanded (A.ends B) turns) :
    ∃ b m, q = F.data b m := by
  rcases List.mem_append.mp hd with hd | hd
  · rcases List.mem_append.mp hd with hd | hd
    · obtain ⟨sender, actions, hreact, -, -, -, -, hquiet⟩ :=
        hA.init (s.prepare plan).clock (s.prepare plan).sender
      have hsent := ((mem_ofActions_iff rfl).mp hd).2
      rw [Ends.answer, SendingSide.ends, hreact, hquiet.sent] at hsent
      cases hsent
    · cases ((mem_ofActions_iff rfl).mp hd).1
  · obtain ⟨t, ht, hturn⟩ := List.mem_flatMap.mp hd
    obtain ⟨past, rest, rfl⟩ := List.append_of_mem ht
    obtain ⟨k, s₁, hpast, -⟩ := history_of_append h
    have hsound := (soundEnds_of_history hA hB hs hpast).sender
    unfold Turn.demands at hturn
    split at hturn
    · cases hturn
    · cases hturn
    · rename_i e _
      obtain ⟨heq, hsent⟩ := (mem_ofActions_iff rfl).mp hturn
      have hnode : e.what.node = .sender := congrArg Demand.node heq.symm
      rw [hnode] at hsent
      exact (hA.reply hsound e.what.stimulus_ne_init rfl).exists_data hsent

/-- What an end asks the link to deliver. -/
def Demand.data? (d : Demand) : Option Payload :=
  match d.request with
  | .deliver data => some data
  | .send _ => none

theorem Demand.data_ofActions (time : Nat) (node : Node) (actions : List Action) :
    (Demand.ofActions time node actions).filterMap Demand.data? =
      actions.filterMap Action.delivered? := by
  have hsent : ∀ ps : List Packet,
      (ps.map fun p => (⟨time, node, .send p⟩ : Demand)).filterMap Demand.data? = [] := by
    simp [Demand.data?]
  rw [Demand.ofActions, List.filterMap_append, hsent, List.append_nil, List.filterMap_map]
  exact List.filterMap_some

theorem delivered_eq_demanded {ends : Ends σ ρ} (hs : create config ends = .ok s)
    (h : (s.prepare plan).history ends n = .ok (turns, s')) :
    s'.delivered.toList = ((s.prepare plan).demanded ends turns).filterMap Demand.data? := by
  obtain ⟨-, entries, hr⟩ := exists_recounted_of_history hs h
  rw [hr.delivered, ← hr.demands, List.filterMap_map]
  refine List.filterMap_congr fun x _ => ?_
  obtain ⟨time, node, data | y⟩ := x <;> rfl

/-- What the receiver is shown was sent. -/
theorem exists_demanded_of_call {ends : Ends σ ρ} (hs : create config ends = .ok s)
    (h : (s.prepare plan).history ends n = .ok (turns, s')) {time : Nat} {p : Packet}
    (hc : ⟨time, .receiver, .packet p⟩ ∈ calls turns) :
    ∃ sent q damaged, ⟨sent, .sender, .send q⟩ ∈ (s.prepare plan).demanded ends turns ∧
      p = q.received damaged ∧ (damaged = true → ¬ IsZero config.corruptRate) := by
  obtain ⟨hconfig, entries, hr⟩ := exists_recounted_of_history hs h
  have hcall : ⟨time, .receiver, .packet p⟩ ∈ entries.filterMap LinkEntry.call? :=
    hr.packets.mem_iff.mp (List.mem_append_left _ (List.mem_filter.mpr ⟨hc, rfl⟩))
  obtain ⟨x, hx, hcall⟩ := List.mem_filterMap.mp hcall
  have hpossible := hr.possible x hx
  have hdemand := hr.demands ▸ List.mem_map_of_mem (f := LinkEntry.demand) hx
  obtain ⟨sent, node, data | ⟨q, reason | ⟨damaged, latency⟩⟩⟩ := x
  · cases hcall
  · cases hcall
  · obtain ⟨-, hnode, hp⟩ := Call.mk.inj (Option.some.inj hcall)
    obtain rfl : node = .sender := by
      cases node with
      | sender => rfl
      | receiver => cases hnode
    obtain _ | ⟨-, -, rate⟩ := hpossible
    exact ⟨sent, q, damaged, hdemand, (Stimulus.packet.inj hp).symm, hconfig ▸ rate⟩

end LossyLink
