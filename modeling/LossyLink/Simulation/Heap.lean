import LossyLink.Simulation.Event

/-! # Heaps of events

A heap holds events in a tree where none falls due before one above it. Merging
two heaps follows their right sides only, which are kept short: an event has the
part with the longer right side on its left.
-/

namespace LossyLink

inductive Heap where
  | empty
  /-- The rank is the length of the right side, this event included. -/
  | node (rank : Nat) (top : Event) (left right : Heap)

namespace Heap

def rank : Heap → Nat
  | empty => 0
  | node rank _ _ _ => rank

/-- All events, from the top but not in order. -/
def events : Heap → List Event
  | empty => []
  | node _ top left right => top :: (left.events ++ right.events)

/-- No event falls due before one above it. -/
def Ordered : Heap → Prop
  | empty => True
  | node _ top left right =>
    (∀ e ∈ left.events ++ right.events, ¬ e.Before top) ∧ left.Ordered ∧ right.Ordered

/-- Put two heaps below an event. -/
def join (top : Event) (h₁ h₂ : Heap) : Heap :=
  if h₂.rank ≤ h₁.rank then node (h₂.rank + 1) top h₁ h₂ else node (h₁.rank + 1) top h₂ h₁

/-- Merge a heap with another one, given how the part on its right is merged. -/
def mergeNode (rank : Nat) (top : Event) (left right : Heap) (mergeRight : Heap → Heap) :
    Heap → Heap
  | empty => node rank top left right
  | node rank' top' left' right' =>
    if top'.Before top then
      join top' left' (mergeNode rank top left right mergeRight right')
    else join top left (mergeRight (node rank' top' left' right'))

def merge : Heap → Heap → Heap
  | empty, h => h
  | node rank top left right, h => mergeNode rank top left right (merge right) h

def insert (e : Event) (h : Heap) : Heap := merge (node 1 e empty empty) h

theorem join_perm (top : Event) (h₁ h₂ : Heap) :
    (join top h₁ h₂).events.Perm (top :: (h₁.events ++ h₂.events)) := by
  unfold join
  split
  · exact List.Perm.refl _
  · exact List.perm_append_comm.cons top

theorem mergeNode_perm {rank : Nat} {top : Event} {left right : Heap} {mergeRight : Heap → Heap}
    (hm : ∀ h, (mergeRight h).events.Perm (right.events ++ h.events)) (h : Heap) :
    (mergeNode rank top left right mergeRight h).events.Perm
      ((node rank top left right).events ++ h.events) := by
  induction h with
  | empty => simp [mergeNode, events]
  | node rank' top' left' right' _ ih =>
    unfold mergeNode
    split
    · refine (join_perm _ _ _).trans ?_
      refine (((ih.append_left left'.events).trans ?_).cons top').trans
        List.perm_middle.symm
      simp only [← List.append_assoc]
      exact List.perm_append_comm.append_right right'.events
    · refine (join_perm _ _ _).trans ?_
      refine ((hm _).append_left left.events |>.cons top).trans ?_
      simp [events]

theorem merge_perm (h₁ h₂ : Heap) : (merge h₁ h₂).events.Perm (h₁.events ++ h₂.events) := by
  induction h₁ generalizing h₂ with
  | empty => exact List.Perm.refl _
  | node _ _ _ _ _ ih => exact mergeNode_perm ih h₂

theorem insert_perm (e : Event) (h : Heap) : (h.insert e).events.Perm (e :: h.events) :=
  merge_perm _ _

theorem join_ordered {top : Event} {h₁ h₂ : Heap}
    (ht : ∀ e ∈ h₁.events ++ h₂.events, ¬ e.Before top) (o₁ : h₁.Ordered) (o₂ : h₂.Ordered) :
    (join top h₁ h₂).Ordered := by
  unfold join
  split
  · exact ⟨ht, o₁, o₂⟩
  · exact ⟨fun e he => ht e (List.perm_append_comm.mem_iff.mp he), o₂, o₁⟩

theorem Ordered.not_before_top {rank : Nat} {top : Event} {left right : Heap}
    (h : (node rank top left right).Ordered) {e : Event}
    (he : e ∈ (node rank top left right).events) : ¬ e.Before top := by
  rcases List.mem_cons.mp he with rfl | he
  · exact fun hb => hb.asymm hb
  · exact h.1 e he

theorem mergeNode_ordered {rank : Nat} {top : Event} {left right : Heap}
    {mergeRight : Heap → Heap} (ho : (node rank top left right).Ordered)
    (hp : ∀ h, (mergeRight h).events.Perm (right.events ++ h.events))
    (hm : ∀ h, h.Ordered → (mergeRight h).Ordered) {h : Heap} (hh : h.Ordered) :
    (mergeNode rank top left right mergeRight h).Ordered := by
  induction h with
  | empty => exact ho
  | node rank' top' left' right' _ ih =>
    unfold mergeNode
    split
    · rename_i hb
      refine join_ordered ?_ hh.2.1 (ih hh.2.2)
      intro e he
      rcases List.mem_append.mp he with he | he
      · exact hh.1 e (List.mem_append_left _ he)
      · rcases List.mem_append.mp ((mergeNode_perm hp right').mem_iff.mp he) with he | he
        · exact fun hc => ho.not_before_top he (hc.trans hb)
        · exact hh.1 e (List.mem_append_right _ he)
    · rename_i hb
      refine join_ordered ?_ ho.2.1 (hm _ hh)
      intro e he
      rcases List.mem_append.mp he with he | he
      · exact ho.1 e (List.mem_append_left _ he)
      · rcases List.mem_append.mp ((hp _).mem_iff.mp he) with he | he
        · exact ho.1 e (List.mem_append_right _ he)
        · exact Event.not_before_trans (hh.not_before_top he) hb

theorem merge_ordered {h₁ h₂ : Heap} (o₁ : h₁.Ordered) (o₂ : h₂.Ordered) :
    (merge h₁ h₂).Ordered := by
  induction h₁ generalizing h₂ with
  | empty => exact o₂
  | node _ _ _ right _ ih =>
    exact mergeNode_ordered o₁ (merge_perm right) (fun _ h => ih o₁.2.2 h) o₂

theorem insert_ordered {h : Heap} (o : h.Ordered) (e : Event) : (h.insert e).Ordered :=
  merge_ordered ⟨by simp [events], trivial, trivial⟩ o

end Heap

end LossyLink
