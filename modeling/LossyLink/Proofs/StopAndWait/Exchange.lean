import Mathlib.Logic.Relation
import LossyLink.Packet
import LossyLink.SeqBit

/-! # The alternating-bit exchange

Stop-and-wait without packets, timers and clocks: the two ends, and the copies on
the way between them in the order in which they arrive. A copy may be repeated at
any time and may have no effect where it arrives, which also stands for its loss.
The copies of each direction always split into those of the last message and
those of the present one, so a bit is enough to tell them apart.
-/

namespace LossyLink

/-- The older elements of a list satisfy one property and the newer ones another. -/
def Splits {α : Type} (P Q : α → Prop) (xs : List α) : Prop :=
  ∃ old new, xs = old ++ new ∧ (∀ a ∈ old, P a) ∧ ∀ a ∈ new, Q a

namespace Splits

variable {α : Type} {P P' Q Q' : α → Prop} {a : α} {xs : List α}

theorem of_old (h : ∀ a ∈ xs, P a) : Splits P Q xs :=
  ⟨xs, [], by simp, h, by simp⟩

theorem imp (h : Splits P Q xs) (hp : ∀ a, P a → P' a) (hq : ∀ a, Q a → Q' a) :
    Splits P' Q' xs := by
  obtain ⟨old, new, he, ho, hn⟩ := h
  exact ⟨old, new, he, fun a ha => hp a (ho a ha), fun a ha => hq a (hn a ha)⟩

theorem append (h : Splits P Q xs) (ha : Q a) : Splits P Q (xs ++ [a]) := by
  obtain ⟨old, new, rfl, ho, hn⟩ := h
  refine ⟨old, new ++ [a], by simp, ho, ?_⟩
  intro b hb
  rcases List.mem_append.mp hb with hb | hb
  · exact hn b hb
  · exact List.mem_singleton.mp hb ▸ ha

theorem tail (h : Splits P Q (a :: xs)) : Splits P Q xs := by
  obtain ⟨old, new, he, ho, hn⟩ := h
  cases old with
  | nil =>
    obtain rfl : a :: xs = new := he
    exact ⟨[], xs, rfl, by simp, fun b hb => hn b (List.mem_cons_of_mem _ hb)⟩
  | cons b old =>
    obtain ⟨-, he⟩ := List.cons.inj he
    exact ⟨old, new, he, fun b hb => ho b (List.mem_cons_of_mem _ hb), hn⟩

theorem of_head (h : Splits P Q (a :: xs)) (ha : ¬ P a) : ∀ b ∈ a :: xs, Q b := by
  obtain ⟨old, new, he, ho, hn⟩ := h
  cases old with
  | nil => exact he ▸ hn
  | cons b old =>
    obtain ⟨rfl, -⟩ := List.cons.inj he
    exact absurd (ho a List.mem_cons_self) ha

end Splits

structure Exchange where
  /-- The bit of the current message, or of the next one. -/
  bit : SeqBit
  /-- The message that waits for its acknowledgement. -/
  current : Option Payload
  expected : SeqBit
  /-- On the way to the receiver, first to arrive first. -/
  data : List (SeqBit × Payload)
  /-- On the way to the sender. -/
  acks : List SeqBit
  accepted : List Payload
  delivered : List Payload
  /-- How many messages the sender knows to be delivered. -/
  confirmed : Nat

namespace Exchange

/-- Before the first message. -/
def start : Exchange := ⟨.zero, none, .zero, [], [], [], [], 0⟩

inductive Move (x : Exchange) : Exchange → Prop where
  | accept {m : Payload} (h : x.current = none) :
      Move x { x with current := some m, accepted := x.accepted ++ [m] }
  | send {m : Payload} (h : x.current = some m) : Move x { x with data := x.data ++ [(x.bit, m)] }
  | ignoreData {d : SeqBit × Payload} {data : List (SeqBit × Payload)} (h : x.data = d :: data) :
      Move x { x with data }
  | deliver {m : Payload} {data : List (SeqBit × Payload)}
      (h : x.data = (x.expected, m) :: data) :
      Move x { x with
        data, delivered := x.delivered ++ [m], expected := x.expected.flip }
  | answer : Move x { x with acks := x.acks ++ [x.expected.flip] }
  | ignoreAck {b : SeqBit} {acks : List SeqBit} (h : x.acks = b :: acks) : Move x { x with acks }
  | confirm {m : Payload} {acks : List SeqBit} (h : x.acks = x.bit :: acks)
      (hc : x.current = some m) :
      Move x { x with
        acks, current := none, bit := x.bit.flip, confirmed := x.confirmed + 1 }

abbrev Moves : Exchange → Exchange → Prop := Relation.ReflTransGen Move

/-- The receiver has not seen the current message, if there is one. -/
structure Open (x : Exchange) : Prop where
  expected : x.expected = x.bit
  accepted : x.accepted = x.delivered ++ x.current.toList
  confirmed : x.delivered.length = x.confirmed
  data : Splits (fun d => d.1 = x.bit.flip) (fun d => d.1 = x.bit ∧ x.current = some d.2) x.data
  acks : ∀ b ∈ x.acks, b = x.bit.flip

/-- The receiver has delivered the current message, and the sender does not know. -/
structure Received (x : Exchange) : Prop where
  expected : x.expected = x.bit.flip
  waiting : x.current.isSome
  accepted : x.accepted = x.delivered
  confirmed : x.delivered.length = x.confirmed + 1
  data : ∀ d ∈ x.data, d.1 = x.bit ∧ x.current = some d.2
  acks : Splits (fun b => b = x.bit.flip) (fun b => b = x.bit) x.acks

/-- Every message passes through these two phases. -/
def InPhase (x : Exchange) : Prop := x.Open ∨ x.Received

variable {x y : Exchange} {m : Payload}

theorem inPhase_start : start.InPhase :=
  .inl ⟨rfl, rfl, rfl, .of_old nofun, nofun⟩

theorem Open.deliver (h : x.Open) {data : List (SeqBit × Payload)}
    (hd : x.data = (x.expected, m) :: data) :
    x.current = some m ∧ ∀ d ∈ data, d.1 = x.bit ∧ x.current = some d.2 := by
  have hsplit := h.data
  rw [hd, h.expected] at hsplit
  have hnew := hsplit.of_head (SeqBit.flip_ne _).symm
  exact ⟨(hnew _ List.mem_cons_self).2, fun d hm => hnew d (List.mem_cons_of_mem _ hm)⟩

theorem Received.confirm (h : x.Received) {acks : List SeqBit} (ha : x.acks = x.bit :: acks) :
    ∀ b ∈ acks, b = x.bit := by
  have hsplit := h.acks
  rw [ha] at hsplit
  have hnew := hsplit.of_head (SeqBit.flip_ne _).symm
  exact fun b hb => hnew b (List.mem_cons_of_mem _ hb)

theorem Open.move (h : x.Open) (hm : Move x y) : y.InPhase := by
  cases hm with
  | accept hc =>
    refine .inl ⟨h.expected, ?_, h.confirmed, ?_, h.acks⟩
    · simp [h.accepted, hc]
    · -- no copy is new while there is no message
      exact h.data.imp (fun _ hd => hd) fun d hd => absurd hd.2 (by simp [hc])
  | send hc => exact .inl ⟨h.expected, h.accepted, h.confirmed, h.data.append ⟨rfl, hc⟩, h.acks⟩
  | ignoreData hd =>
    have hsplit := h.data
    rw [hd] at hsplit
    exact .inl ⟨h.expected, h.accepted, h.confirmed, hsplit.tail, h.acks⟩
  | deliver hd =>
    obtain ⟨hc, hdata⟩ := h.deliver hd
    refine .inr ⟨congrArg SeqBit.flip h.expected, by simp [hc], ?_, ?_, hdata, .of_old h.acks⟩
    · simp [h.accepted, hc]
    · simp [h.confirmed]
  | answer =>
    refine .inl ⟨h.expected, h.accepted, h.confirmed, h.data, fun b hb => ?_⟩
    rcases List.mem_append.mp hb with hb | hb
    · exact h.acks b hb
    · rw [List.mem_singleton.mp hb, h.expected]
  | ignoreAck ha =>
    refine .inl ⟨h.expected, h.accepted, h.confirmed, h.data, fun b hb => ?_⟩
    exact h.acks b (ha ▸ List.mem_cons_of_mem _ hb)
  | confirm ha =>
    exact absurd (h.acks _ (ha ▸ List.mem_cons_self)).symm (SeqBit.flip_ne _)

theorem Received.move (h : x.Received) (hm : Move x y) : y.InPhase := by
  cases hm with
  | accept hc => exact absurd h.waiting (by simp [hc])
  | send hc =>
    refine .inr ⟨h.expected, h.waiting, h.accepted, h.confirmed, fun d hd => ?_, h.acks⟩
    rcases List.mem_append.mp hd with hd | hd
    · exact h.data d hd
    · rw [List.mem_singleton.mp hd]
      exact ⟨rfl, hc⟩
  | ignoreData hd =>
    refine .inr ⟨h.expected, h.waiting, h.accepted, h.confirmed, fun d hm => ?_, h.acks⟩
    exact h.data d (hd ▸ List.mem_cons_of_mem _ hm)
  | deliver hd =>
    have hb := (h.data _ (hd ▸ List.mem_cons_self)).1
    exact absurd (h.expected.symm.trans hb) (SeqBit.flip_ne _)
  | answer =>
    have hbit : x.expected.flip = x.bit := by simp [h.expected]
    exact .inr ⟨h.expected, h.waiting, h.accepted, h.confirmed, h.data, h.acks.append hbit⟩
  | ignoreAck ha =>
    have hsplit := h.acks
    rw [ha] at hsplit
    exact .inr ⟨h.expected, h.waiting, h.accepted, h.confirmed, h.data, hsplit.tail⟩
  | confirm ha =>
    refine .inl ⟨h.expected, by simp [h.accepted], h.confirmed, .of_old fun d hd => ?_,
      fun b hb => ?_⟩
    · simp [(h.data d hd).1]
    · simp [h.confirm ha b hb]

theorem InPhase.move (h : x.InPhase) (hm : Move x y) : y.InPhase :=
  h.elim (fun h => h.move hm) fun h => h.move hm

theorem InPhase.moves (h : x.InPhase) (hm : Moves x y) : y.InPhase := by
  induction hm with
  | refl => exact h
  | tail _ hm ih => exact ih.move hm

theorem InPhase.delivered_prefix (h : x.InPhase) : x.delivered <+: x.accepted := by
  rcases h with h | h
  · exact h.accepted ▸ List.prefix_append _ _
  · exact h.accepted ▸ List.prefix_rfl

/-- The sender is at most one message behind. -/
theorem InPhase.length_delivered (h : x.InPhase) : x.delivered.length = x.confirmed ∨
    x.current.isSome ∧ x.delivered.length = x.confirmed + 1 :=
  h.imp Open.confirmed fun h => ⟨h.waiting, h.confirmed⟩

theorem InPhase.delivered_of_idle (h : x.InPhase) (hc : x.current = none) :
    x.delivered = x.accepted := by
  rcases h with h | h
  · simp [h.accepted, hc]
  · exact h.accepted.symm

end Exchange

end LossyLink
