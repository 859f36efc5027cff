import LossyLink.Proofs.AlternatingBit.Delivery
import LossyLink.Proofs.StopAndWait.Provenance

/-! # Damage goes unnoticed

The receiver goes by the number of a packet and does not look at the checksum, so it passes
up a damaged packet as it would pass up the intact one. Every packet that it passes up is a
copy of one that the sender sealed, and none is damaged over a channel that damages nothing.
-/

namespace LossyLink.AlternatingBit

open Simulation

namespace Receiver

/-- The packet of which the receiver passes up the payload. -/
def passesUp? (r : Receiver) : Stimulus → Option Packet
  | .packet p => if p.header.seq = r.expected.toUInt32 then some p else none
  | .init => none
  | .timer _ => none
  | .app _ => none

theorem delivered_react (r : Receiver) (x : Stimulus) :
    (r.react x).2.filterMap Action.delivered? = (r.passesUp? x).toList.map Packet.payload := by
  cases x with
  | init => rfl
  | timer => rfl
  | app => rfl
  | packet p =>
    simp only [react, onPacket, passesUp?]
    split
    · rename_i bit hbit
      rw [SeqBit.ofRaw_eq_ok_iff] at hbit
      split
      · rename_i hexpected
        rw [if_pos (hexpected ▸ hbit)]
        rfl
      · rename_i hexpected
        rw [if_neg fun h => hexpected (SeqBit.toUInt32_injective (hbit.symm.trans h))]
        rfl
    · rename_i f hf
      rw [if_neg]
      · rfl
      · intro h
        rw [SeqBit.ofRaw_eq_ok_iff.mpr h] at hf
        cases hf

theorem react_withChecksum (r : Receiver) (p : Packet) (checksum : UInt16) :
    r.react (.packet (p.withChecksum checksum)) = r.react (.packet p) := rfl

end Receiver

/-- Whatever checksums packets carry, the receiver does the same. -/
theorem run_withChecksum (checksum : Packet → UInt16) (ps : List (Nat × Packet)) (r : Receiver) :
    receiver.run (ps.map fun x => (x.1, .packet (x.2.withChecksum (checksum x.2)))) r =
      receiver.run (ps.map fun x => (x.1, .packet x.2)) r := by
  induction ps generalizing r with
  | nil => rfl
  | cons x ps ih =>
    have hreact : ∀ now, receiver.react now (.packet (x.2.withChecksum (checksum x.2))) r =
        receiver.react now (.packet x.2) r := fun _ => r.react_withChecksum x.2 _
    simp only [List.map_cons, Endpoint.run, hreact, ih]

theorem Sender.delivered_react (s : Sender) (x : Stimulus) :
    (s.react x).2.filterMap Action.delivered? = [] := by
  cases x with
  | init => rfl
  | packet p =>
    simp only [react]
    split
    · unfold onPacket
      split
      · rfl
      · split <;> rfl
    · rfl
  | timer id =>
    simp only [react]
    split
    · split <;> rfl
    · rfl
  | app data =>
    simp only [react]
    split <;> rfl

/-- The packet of which the receiver passed up the payload in a step. -/
def passedUp? (t : Turn Sender Receiver) : Option Packet :=
  match t.outcome with
  | .drained => none
  | .stale _ => none
  | .handled e =>
    if e.what.node = .receiver then t.before.receiver.passesUp? e.what.stimulus else none

def passedUp (turns : List (Turn Sender Receiver)) : List Packet := turns.filterMap passedUp?

theorem data_demands (t : Turn Sender Receiver) :
    (t.demands ends).filterMap Demand.data? = (passedUp? t).toList.map Packet.payload := by
  obtain ⟨s, - | e | e⟩ := t
  · rfl
  · rfl
  · simp only [Turn.demands, passedUp?, Demand.data_ofActions]
    cases hnode : e.what.node with
    | sender => exact s.sender.delivered_react _
    | receiver => exact s.receiver.delivered_react _

theorem data_flatMap_demands (turns : List (Turn Sender Receiver)) :
    (turns.flatMap (Turn.demands ends)).filterMap Demand.data? =
      (passedUp turns).map Packet.payload := by
  induction turns with
  | nil => rfl
  | cons t turns ih =>
    rw [List.flatMap_cons, List.filterMap_append, ih, data_demands, ← List.map_append]
    refine congrArg (List.map Packet.payload) ?_
    simp only [passedUp, List.filterMap_cons]
    cases passedUp? t <;> rfl

theorem isCorrupted_data (b : SeqBit) (m : Payload) : (format.data b m).isCorrupted = false := by
  simp [Packet.isCorrupted, format, Sender.packetFor]

theorem isCorrupted_received {q : Packet} (hq : q.isCorrupted = false) (damaged : Bool) :
    (q.received damaged).isCorrupted = damaged := by
  cases damaged with
  | false => exact hq
  | true => exact Packet.isCorrupted_damaged hq

variable {config : Config} {plan : List Preparation} {s s' : Simulation Sender Receiver}
  {turns : List (Turn Sender Receiver)} {n : Nat}

theorem exists_call_of_passedUp {p : Packet} (hp : p ∈ passedUp turns) :
    ∃ time, (⟨time, .receiver, .packet p⟩ : Call) ∈ calls turns := by
  obtain ⟨t, ht, hp⟩ := List.mem_filterMap.mp hp
  unfold passedUp? at hp
  split at hp
  · cases hp
  · cases hp
  · rename_i e he
    obtain ⟨hnode, hp⟩ := Option.ite_none_right_eq_some.mp hp
    refine ⟨e.time, List.mem_filterMap.mpr ⟨t, ht, ?_⟩⟩
    obtain ⟨time, id, what⟩ := e
    cases what with
    | arrival node q =>
      obtain ⟨-, hq⟩ := Option.ite_none_right_eq_some.mp hp
      obtain rfl := Option.some.inj hq
      obtain rfl : node = .receiver := hnode
      rw [he]
      rfl
    | expiry => cases hp
    | submission => cases hnode

theorem delivered_eq_passedUp (hs : create config ends = .ok s)
    (h : (s.prepare plan).history ends n = .ok (turns, s')) :
    s'.delivered.toList = (passedUp turns).map Packet.payload := by
  have hinit : ∀ node, (Demand.ofActions (s.prepare plan).clock node (ends.answer node
      (s.prepare plan).clock .init (s.prepare plan).sender
        (s.prepare plan).receiver)).filterMap Demand.data? = [] := by
    intro node
    rw [Demand.data_ofActions]
    cases node <;> rfl
  rw [delivered_eq_demanded hs h, demanded, List.filterMap_append, List.filterMap_append, hinit,
    hinit, data_flatMap_demands]
  rfl

/-- What the receiver delivers are the payloads of the packets with the number that it expects,
whatever checksums they carry. Each is a copy of a packet that the sender sealed and sent, and
it is damaged exactly if the channel damaged this copy, which takes a channel that damages
packets. -/
theorem delivers_whatever_the_checksum (hs : create config ends = .ok s)
    (h : (s.prepare plan).history ends n = .ok (turns, s')) :
    s'.delivered.toList = (passedUp turns).map Packet.payload ∧
    (∀ p ∈ passedUp turns, ∃ time q damaged,
      ⟨time, .sender, .send q⟩ ∈ (s.prepare plan).demanded ends turns ∧ q.isCorrupted = false ∧
      p = q.received damaged ∧ p.isCorrupted = damaged ∧
      (damaged = true → ¬ IsZero config.corruptRate)) ∧
    ∀ (checksum : Packet → UInt16) (ps : List (Nat × Packet)) (r : Receiver),
      receiver.run (ps.map fun x => (x.1, .packet (x.2.withChecksum (checksum x.2)))) r =
        receiver.run (ps.map fun x => (x.1, .packet x.2)) r := by
  refine ⟨delivered_eq_passedUp hs h, fun p hp => ?_, run_withChecksum⟩
  obtain ⟨time, hcall⟩ := exists_call_of_passedUp hp
  obtain ⟨sent, q, damaged, hdemand, rfl, hrate⟩ := exists_demanded_of_call hs h hcall
  obtain ⟨b, m, rfl⟩ := exists_data_of_demanded sending_lawful receiving_lawful hs h hdemand
  exact ⟨sent, _, damaged, hdemand, isCorrupted_data b m, rfl,
    isCorrupted_received (isCorrupted_data b m) damaged, hrate⟩

/-- A channel that damages every packet. -/
def damaging : Config where
  corruptRate := 1.0
  minLatency := 1
  maxLatency := 1
  seed := 1

theorem create_damaging : create damaging ends = .ok (fresh damaging ends) := by
  have hloss : isProbability 0.0 = true := by decide +kernel
  have hcorrupt : isProbability 1.0 = true := by decide +kernel
  exact create_eq_ok_iff.mpr ⟨⟨hloss, hcorrupt, Nat.le_refl _⟩, rfl⟩

theorem exists_history_damaging :
    ∃ turns s', ((fresh damaging ends).prepare [.submit 0 [0x41]]).history ends 2 =
      .ok (turns, s') ∧ (passedUp turns).map Packet.isCorrupted = [true] := by
  have hrun : (((fresh damaging ends).prepare [.submit 0 [0x41]]).history ends 2).map
      (fun r => (passedUp r.1).map Packet.isCorrupted) = .ok [true] := by
    decide +kernel
  obtain ⟨⟨turns, s'⟩, hrun, hdamaged⟩ := exists_of_map_eq_ok hrun
  exact ⟨turns, s', hrun, hdamaged⟩

theorem delivers_whatever_the_checksum_over_damaging_link :
    ∃ turns s', ((fresh damaging ends).prepare [.submit 0 [0x41]]).history ends 2 =
        .ok (turns, s') ∧
      (passedUp turns).map Packet.isCorrupted = [true] ∧
      s'.delivered.toList = (passedUp turns).map Packet.payload ∧
      ∀ p ∈ passedUp turns, ∃ q : Packet, q.isCorrupted = false ∧ p = q.damaged := by
  obtain ⟨turns, s', hrun, hdamaged⟩ := exists_history_damaging
  obtain ⟨hdelivered, hsealed, -⟩ := delivers_whatever_the_checksum create_damaging hrun
  refine ⟨turns, s', hrun, hdamaged, hdelivered, fun p hp => ?_⟩
  obtain ⟨-, q, damaged, -, hq, rfl, hcorrupted, -⟩ := hsealed p hp
  have hmem : (q.received damaged).isCorrupted ∈ [true] :=
    hdamaged ▸ List.mem_map_of_mem (f := Packet.isCorrupted) hp
  obtain rfl : damaged = true := hcorrupted.symm.trans (List.mem_singleton.mp hmem)
  exact ⟨q, hq, rfl⟩

/-- Neither in all histories nor for all packets does what is delivered come from packets
whose checksum agrees. -/
theorem delivers_damaged_packet :
    (¬ ∀ (config : Config) (s : Simulation Sender Receiver) (plan : List Preparation) (n : Nat)
      (turns : List (Turn Sender Receiver)) (s' : Simulation Sender Receiver),
      create config ends = .ok s → (s.prepare plan).history ends n = .ok (turns, s') →
      ∀ p ∈ passedUp turns, p.isCorrupted = false) ∧
    ¬ ∀ (ps : List Packet) (data : Payload),
      data ∈ (receiver.run (ps.map fun p => (0, .packet p)) {}).2.flatMap
        (List.filterMap Action.delivered?) →
      ∃ p ∈ ps, p.payload = data ∧ p.isCorrupted = false := by
  constructor
  · intro h
    obtain ⟨turns, s', hrun, hdamaged⟩ := exists_history_damaging
    obtain ⟨p, hp, hcorrupted⟩ : ∃ p ∈ passedUp turns, p.isCorrupted = true := by
      refine List.mem_map.mp (hdamaged ▸ ?_)
      exact List.mem_singleton.mpr rfl
    rw [h _ _ _ _ turns s' create_damaging hrun p hp] at hcorrupted
    cases hcorrupted
  · intro h
    obtain ⟨p, hp, -, hcorrupted⟩ :=
      h [{ header := { checksum := 1 }, payload := [0x41] }] [0x41] (by decide)
    obtain rfl := List.mem_singleton.mp hp
    revert hcorrupted
    decide

end LossyLink.AlternatingBit
