import LossyLink.Simulation.Heap

/-! # The queue of events

A queue numbers its events as they are scheduled. Read as a list, it has them in
the order in which they fall due: scheduling inserts an event, and the head is
what is taken first.
-/

namespace LossyLink

/-- Events that wait, each with a number of its own. -/
structure Queue where
  heap : Heap
  size : Nat
  /-- The number of the next event. -/
  nextId : Nat
  ordered : heap.Ordered
  length_events : heap.events.length = size
  id_lt : ∀ e ∈ heap.events, e.id < nextId
  id_ne : heap.events.Pairwise fun a b => a.id ≠ b.id

namespace Queue

def empty : Queue := ⟨.empty, 0, 0, trivial, rfl, nofun, .nil⟩

def isEmpty (q : Queue) : Bool := q.size == 0

/-- Something will happen at a time. -/
def schedule (q : Queue) (time : Nat) (what : Happening) : Queue :=
  let e : Event := ⟨time, q.nextId, what⟩
  have hp := q.heap.insert_perm e
  { heap := q.heap.insert e
    size := q.size + 1
    nextId := q.nextId + 1
    ordered := Heap.insert_ordered q.ordered e
    length_events := by rw [hp.length_eq, List.length_cons, q.length_events]
    id_lt := by
      intro x hx
      rcases List.mem_cons.mp (hp.mem_iff.mp hx) with rfl | hx
      · exact Nat.lt_succ_self _
      · exact Nat.lt_succ_of_lt (q.id_lt x hx)
    id_ne := by
      refine hp.symm.pairwise ?_ Ne.symm
      exact List.pairwise_cons.mpr ⟨fun x hx => (Nat.ne_of_lt (q.id_lt x hx)).symm, q.id_ne⟩ }

/-- Take the first event. -/
def pop? (q : Queue) : Option (Event × Queue) :=
  match h : q.heap with
  | .empty => none
  | .node _ top left right =>
    have hp := left.merge_perm right
    have ho : left.Ordered ∧ right.Ordered := (h ▸ q.ordered).2
    have hl : (top :: (left.events ++ right.events)).length = q.size := by
      rw [← q.length_events, h]; rfl
    have hlt : ∀ e ∈ top :: (left.events ++ right.events), e.id < q.nextId := by
      have := q.id_lt; rwa [h] at this
    have hne : (top :: (left.events ++ right.events)).Pairwise fun a b => a.id ≠ b.id := by
      have := q.id_ne; rwa [h] at this
    some (top,
      { heap := left.merge right
        size := q.size - 1
        nextId := q.nextId
        ordered := Heap.merge_ordered ho.1 ho.2
        length_events := by rw [hp.length_eq, ← hl]; rfl
        id_lt := fun e he => hlt e (List.mem_cons_of_mem _ (hp.mem_iff.mp he))
        id_ne := hp.symm.pairwise (List.pairwise_cons.mp hne).2 Ne.symm })

/-- The events in the order in which they fall due. -/
def toList (q : Queue) : List Event := q.heap.events.foldr Event.insert []

theorem foldr_insert_perm (xs : List Event) : (xs.foldr Event.insert []).Perm xs := by
  induction xs with
  | nil => exact List.Perm.refl _
  | cons x xs ih => exact (Event.insert_perm x _).trans (ih.cons x)

theorem foldr_insert_pairwise {xs : List Event} (h : xs.Pairwise fun a b => a.id ≠ b.id) :
    (xs.foldr Event.insert []).Pairwise Event.Before := by
  induction h with
  | nil => exact List.Pairwise.nil
  | cons hx _ ih =>
    exact Event.pairwise_insert ih fun y hy =>
      (hx y ((foldr_insert_perm _).mem_iff.mp hy)).symm

theorem toList_perm (q : Queue) : q.toList.Perm q.heap.events := foldr_insert_perm _

theorem pairwise_toList (q : Queue) : q.toList.Pairwise Event.Before :=
  foldr_insert_pairwise q.id_ne

@[simp] theorem length_toList (q : Queue) : q.toList.length = q.size := by
  rw [q.toList_perm.length_eq, q.length_events]

theorem id_lt_nextId {q : Queue} {e : Event} (h : e ∈ q.toList) : e.id < q.nextId :=
  q.id_lt e (q.toList_perm.mem_iff.mp h)

theorem isEmpty_iff {q : Queue} : q.isEmpty ↔ q.toList = [] := by
  rw [← List.length_eq_zero_iff, length_toList, isEmpty, beq_iff_eq]

@[simp] theorem toList_empty : empty.toList = [] := rfl

@[simp] theorem nextId_schedule (q : Queue) (time : Nat) (what : Happening) :
    (q.schedule time what).nextId = q.nextId + 1 := rfl

@[simp] theorem toList_schedule (q : Queue) (time : Nat) (what : Happening) :
    (q.schedule time what).toList = Event.insert ⟨time, q.nextId, what⟩ q.toList := by
  refine Event.eq_of_perm_of_pairwise ?_ (pairwise_toList _)
    (Event.pairwise_insert q.pairwise_toList fun x hx => Nat.ne_of_lt (id_lt_nextId hx))
  refine (toList_perm _).trans (((q.heap.insert_perm _).trans ?_).trans
    (Event.insert_perm _ _).symm)
  exact q.toList_perm.symm.cons _

theorem toList_of_pop?_eq_some {q q' : Queue} {e : Event} (h : q.pop? = some (e, q')) :
    q.toList = e :: q'.toList := by
  unfold pop? at h
  split at h
  · cases h
  · rename_i rank top left right heq
    cases h
    have hperm : q.toList.Perm (e :: (left.events ++ right.events)) := by
      have := q.toList_perm; rwa [heq] at this
    have hq := (foldr_insert_perm (left.merge right).events).trans (left.merge_perm right)
    refine Event.eq_of_perm_of_pairwise (hperm.trans (hq.symm.cons e)) q.pairwise_toList
      (List.pairwise_cons.mpr ⟨fun x hx => ?_, pairwise_toList _⟩)
    have hx := hq.mem_iff.mp hx
    have hne : (e :: (left.events ++ right.events)).Pairwise fun a b => a.id ≠ b.id := by
      have := q.id_ne; rwa [heq] at this
    have ho : (Heap.node rank e left right).Ordered := heq ▸ q.ordered
    exact (Event.before_or_before ((List.pairwise_cons.mp hne).1 x hx)).resolve_right (ho.1 x hx)

theorem nextId_of_pop?_eq_some {q q' : Queue} {e : Event} (h : q.pop? = some (e, q')) :
    q'.nextId = q.nextId := by
  unfold pop? at h
  split at h <;> cases h
  rfl

theorem pop?_eq_none_iff {q : Queue} : q.pop? = none ↔ q.toList = [] := by
  unfold pop?
  split
  · rename_i heq
    simp [toList, heq, Heap.events]
  · rename_i heq
    simp only [reduceCtorEq, false_iff]
    intro h
    have := q.toList_perm
    rw [h, heq] at this
    exact absurd this.length_eq (by simp [Heap.events])

end Queue

end LossyLink
