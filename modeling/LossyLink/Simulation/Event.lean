import LossyLink.Protocol.Endpoint

/-! # Events and their order

Events fall due in the order of their times; among events of one instant the one
scheduled first comes first, which its number tells.
-/

namespace LossyLink

/-- An end of the link. -/
inductive Node | sender | receiver
  deriving DecidableEq, Repr

namespace Node

def peer : Node → Node
  | sender => receiver
  | receiver => sender

def name : Node → String
  | sender => "Sender"
  | receiver => "Receiver"

@[simp] theorem peer_peer (n : Node) : n.peer.peer = n := by cases n <;> rfl

end Node

/-- What falls due at an event. -/
inductive Happening where
  | arrival (node : Node) (p : Packet)
  /-- A timer runs out. It counts only if the timer was not touched since. -/
  | expiry (node : Node) (id : UInt32) (generation : Nat)
  | submission (data : Payload)
  deriving DecidableEq, Repr

namespace Happening

/-- The endpoint concerned; applications submit at the sender only. -/
def node : Happening → Node
  | arrival node _ => node
  | expiry node _ _ => node
  | submission _ => .sender

def stimulus : Happening → Stimulus
  | arrival _ p => .packet p
  | expiry _ id _ => .timer id
  | submission data => .app data

end Happening

structure Event where
  time : Nat
  id : Nat
  what : Happening
  deriving DecidableEq, Repr

namespace Event

/-- Earlier in time, or scheduled earlier for the same time. -/
def Before (a b : Event) : Prop := a.time < b.time ∨ (a.time = b.time ∧ a.id < b.id)

instance (a b : Event) : Decidable (a.Before b) := by unfold Before; infer_instance

theorem Before.trans {a b c : Event} (h₁ : a.Before b) (h₂ : b.Before c) : a.Before c := by
  unfold Before at *
  omega

theorem Before.asymm {a b : Event} (h : a.Before b) : ¬ b.Before a := by
  unfold Before at *
  omega

theorem not_before_trans {a b c : Event} (h₁ : ¬ a.Before b) (h₂ : ¬ b.Before c) :
    ¬ a.Before c := by
  unfold Before at *
  omega

theorem before_or_before {a b : Event} (h : a.id ≠ b.id) : a.Before b ∨ b.Before a := by
  unfold Before
  omega

/-- Insert an event into events in order. -/
def insert (e : Event) : List Event → List Event
  | [] => [e]
  | x :: xs => if e.Before x then e :: x :: xs else x :: insert e xs

theorem insert_perm (e : Event) (xs : List Event) : (e.insert xs).Perm (e :: xs) := by
  induction xs with
  | nil => exact List.Perm.refl _
  | cons x xs ih =>
    simp only [insert]
    split
    · exact List.Perm.refl _
    · exact (ih.cons x).trans (List.Perm.swap e x xs)

@[simp] theorem mem_insert {a e : Event} {xs : List Event} :
    a ∈ e.insert xs ↔ a = e ∨ a ∈ xs := by
  rw [(insert_perm e xs).mem_iff, List.mem_cons]

@[simp] theorem length_insert (e : Event) (xs : List Event) :
    (e.insert xs).length = xs.length + 1 :=
  (insert_perm e xs).length_eq

theorem pairwise_insert {e : Event} {xs : List Event} (h : xs.Pairwise Before)
    (hid : ∀ x ∈ xs, x.id ≠ e.id) : (e.insert xs).Pairwise Before := by
  induction xs with
  | nil => simp [insert]
  | cons x xs ih =>
    have hx := List.pairwise_cons.mp h
    simp only [insert]
    split
    · rename_i hb
      refine List.pairwise_cons.mpr ⟨?_, h⟩
      intro y hy
      rcases List.mem_cons.mp hy with rfl | hy
      · exact hb
      · exact hb.trans (hx.1 y hy)
    · rename_i hb
      refine List.pairwise_cons.mpr ⟨?_, ih hx.2 fun y hy => hid y (List.mem_cons_of_mem _ hy)⟩
      intro y hy
      rcases mem_insert.mp hy with rfl | hy
      · exact (before_or_before (hid x List.mem_cons_self)).resolve_right hb
      · exact hx.1 y hy

/-- Events can be put in order in one way only. -/
theorem eq_of_perm_of_pairwise {xs ys : List Event} (h : xs.Perm ys)
    (hx : xs.Pairwise Before) (hy : ys.Pairwise Before) : xs = ys :=
  h.eq_of_pairwise (fun _ _ _ _ hab hba => absurd hba hab.asymm) hx hy

end Event

end LossyLink
