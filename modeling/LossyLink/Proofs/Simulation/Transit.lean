import LossyLink.Simulation.Queue

/-! # What waits in the queue

The packets on their way to a node and the submissions still to come, each in the
order in which they fall due. A new event goes behind those of its kind that are
not due later, and leaves the events of every other kind as they were.
-/

namespace LossyLink

namespace Event

def isArrival (e : Event) : Bool :=
  match e.what with
  | .arrival .. => true
  | .expiry .. => false
  | .submission _ => false

def packetTo? (node : Node) (e : Event) : Option Packet :=
  match e.what with
  | .arrival node' p => if node' = node then some p else none
  | .expiry .. => none
  | .submission _ => none

def submission? (e : Event) : Option Payload :=
  match e.what with
  | .arrival .. => none
  | .expiry .. => none
  | .submission data => some data

variable {α : Type} {f : Event → Option α} {e : Event} {xs : List Event}

theorem isArrival_iff : e.isArrival = true ↔ ∃ node p, e.what = .arrival node p := by
  unfold isArrival
  split <;> simp_all

theorem packetTo?_eq_some_iff {node : Node} {p : Packet} :
    packetTo? node e = some p ↔ e.what = .arrival node p := by
  unfold packetTo?
  split <;> simp_all

theorem submission?_eq_some_iff {data : Payload} :
    e.submission? = some data ↔ e.what = .submission data := by
  unfold submission?
  split <;> simp_all

theorem isArrival_of_packetTo? {node : Node} (h : (packetTo? node e).isSome) :
    e.isArrival = true := by
  obtain ⟨p, hp⟩ := Option.isSome_iff_exists.mp h
  exact isArrival_iff.mpr ⟨node, p, packetTo?_eq_some_iff.mp hp⟩

theorem filterMap_insert_of_none (h : f e = none) :
    (e.insert xs).filterMap f = xs.filterMap f := by
  induction xs with
  | nil => simp [insert, h]
  | cons x xs ih =>
    simp only [insert]
    split
    · simp [h]
    · rw [List.filterMap_cons, List.filterMap_cons, ih]

theorem filterMap_insert_of_before (ho : xs.Pairwise Before)
    (h : ∀ x ∈ xs, (f x).isSome → x.Before e) :
    (e.insert xs).filterMap f = xs.filterMap f ++ (f e).toList := by
  induction xs with
  | nil => cases he : f e <;> simp [insert, he]
  | cons x xs ih =>
    obtain ⟨hx, ho⟩ := List.pairwise_cons.mp ho
    simp only [insert]
    split
    · rename_i hb
      -- nothing of this kind stands behind `x`, since it would stand behind `e`
      have hnone : ∀ y ∈ x :: xs, f y = none := by
        intro y hy
        refine Option.not_isSome_iff_eq_none.mp fun hs => ?_
        have hye := h y hy hs
        rcases List.mem_cons.mp hy with rfl | hy
        · exact hye.asymm hb
        · exact (hb.trans (hx y hy)).asymm hye
      have hnil : (x :: xs).filterMap f = [] := List.filterMap_eq_nil_iff.mpr hnone
      cases he : f e <;> simp [he, hnil]
    · rw [List.filterMap_cons, List.filterMap_cons,
        ih ho fun y hy => h y (List.mem_cons_of_mem _ hy)]
      cases f x <;> rfl

end Event

namespace Queue

variable {α : Type} {f : Event → Option α} {q q' : Queue} {e : Event} {time : Nat}
  {what : Happening} {node : Node} {p : Packet}

/-- The packets on their way to a node, first to arrive first. -/
def inTransit (q : Queue) (node : Node) : List Packet := q.toList.filterMap (Event.packetTo? node)

def arrivals (q : Queue) : List Event := q.toList.filter Event.isArrival

theorem mem_arrivals (he : e ∈ q.toList) (hw : e.what = .arrival node p) : e ∈ q.arrivals :=
  List.mem_filter.mpr ⟨he, Event.isArrival_iff.mpr ⟨node, p, hw⟩⟩

/-- What the application is still going to submit. -/
def submissions (q : Queue) : List Payload := q.toList.filterMap Event.submission?

theorem mem_schedule : e ∈ (q.schedule time what).toList ↔
    e = ⟨time, q.nextId, what⟩ ∨ e ∈ q.toList := by
  rw [toList_schedule, Event.mem_insert]

theorem filterMap_schedule_of_none (h : f ⟨time, q.nextId, what⟩ = none) :
    (q.schedule time what).toList.filterMap f = q.toList.filterMap f := by
  rw [toList_schedule, Event.filterMap_insert_of_none h]

theorem filterMap_schedule_of_le (h : ∀ e ∈ q.toList, (f e).isSome → e.time ≤ time) :
    (q.schedule time what).toList.filterMap f =
      q.toList.filterMap f ++ (f ⟨time, q.nextId, what⟩).toList := by
  rw [toList_schedule]
  refine Event.filterMap_insert_of_before q.pairwise_toList fun e he hs => ?_
  have ht := h e he hs
  have hid := id_lt_nextId he
  unfold Event.Before
  simp only
  omega

theorem inTransit_eq_nil (h : ∀ e ∈ q.toList, ∃ data, e.what = .submission data) :
    q.inTransit node = [] := by
  refine List.filterMap_eq_nil_iff.mpr fun e he => ?_
  obtain ⟨data, hw⟩ := h e he
  simp [Event.packetTo?, hw]

theorem inTransit_schedule_of_ne (h : ∀ p, what ≠ .arrival node p) :
    (q.schedule time what).inTransit node = q.inTransit node := by
  refine filterMap_schedule_of_none (Option.eq_none_iff_forall_ne_some.mpr fun p hp => ?_)
  exact h p (Event.packetTo?_eq_some_iff.mp hp)

theorem inTransit_schedule_arrival (h : ∀ e ∈ q.arrivals, e.time ≤ time) :
    (q.schedule time (.arrival node p)).inTransit node = q.inTransit node ++ [p] := by
  unfold inTransit
  rw [filterMap_schedule_of_le]
  · simp [Event.packetTo?]
  · exact fun e he hs => h e (List.mem_filter.mpr ⟨he, Event.isArrival_of_packetTo? hs⟩)

theorem inTransit_schedule_perm :
    ((q.schedule time (.arrival node p)).inTransit node).Perm (p :: q.inTransit node) := by
  unfold inTransit
  rw [toList_schedule]
  have hp := (Event.insert_perm ⟨time, q.nextId, .arrival node p⟩ q.toList).filterMap
    (Event.packetTo? node)
  simpa [Event.packetTo?] using hp

theorem arrivals_schedule_of_not (h : Event.isArrival ⟨time, q.nextId, what⟩ = false) :
    (q.schedule time what).arrivals = q.arrivals := by
  simp only [arrivals, ← List.filterMap_eq_filter]
  exact filterMap_schedule_of_none (by simp [Option.guard, h])

theorem arrivals_schedule_of_nil (h : q.arrivals = []) :
    (q.schedule time (.arrival node p)).arrivals = [⟨time, q.nextId, .arrival node p⟩] := by
  have hn : ∀ e ∈ q.toList, ¬ e.isArrival = true := List.filter_eq_nil_iff.mp h
  simp only [arrivals, ← List.filterMap_eq_filter] at h ⊢
  rw [filterMap_schedule_of_le, h]
  · simp [Option.guard, Event.isArrival]
  · intro e he hs
    exact absurd (by simpa [Option.guard] using hs) (hn e he)

theorem mem_of_pop?_eq_some (h : q.pop? = some (e, q')) {x : Event} :
    x ∈ q.toList ↔ x = e ∨ x ∈ q'.toList := by
  rw [toList_of_pop?_eq_some h, List.mem_cons]

theorem first_mem_of_pop?_eq_some (h : q.pop? = some (e, q')) : e ∈ q.toList :=
  (mem_of_pop?_eq_some h).mpr (.inl rfl)

theorem exists_pop?_of_toList_eq_cons {es : List Event} (h : q.toList = e :: es) :
    ∃ q', q.pop? = some (e, q') ∧ q'.toList = es := by
  cases hp : q.pop? with
  | none =>
    rw [pop?_eq_none_iff.mp hp] at h
    cases h
  | some x =>
    obtain ⟨e', q'⟩ := x
    rw [toList_of_pop?_eq_some hp] at h
    obtain ⟨rfl, hq⟩ := List.cons.inj h
    exact ⟨q', rfl, hq⟩

theorem mem_of_mem_rest (h : q.pop? = some (e, q')) {x : Event} (hx : x ∈ q'.toList) :
    x ∈ q.toList := (mem_of_pop?_eq_some h).mpr (.inr hx)

theorem before_of_pop?_eq_some (h : q.pop? = some (e, q')) :
    ∀ x ∈ q'.toList, e.Before x := by
  have ho := q.pairwise_toList
  rw [toList_of_pop?_eq_some h] at ho
  exact (List.pairwise_cons.mp ho).1

theorem before_of_mem_of_ne (h : q.pop? = some (e, q')) {x : Event} (hx : x ∈ q.toList)
    (hne : x ≠ e) : e.Before x :=
  before_of_pop?_eq_some h x (((mem_of_pop?_eq_some h).mp hx).resolve_left hne)

theorem time_le_of_pop?_eq_some (h : q.pop? = some (e, q')) :
    ∀ x ∈ q'.toList, e.time ≤ x.time := by
  intro x hx
  have hb := before_of_pop?_eq_some h x hx
  unfold Event.Before at hb
  omega

theorem inTransit_of_pop?_eq_some (h : q.pop? = some (e, q')) :
    q.inTransit node = (e.packetTo? node).toList ++ q'.inTransit node := by
  rw [inTransit, toList_of_pop?_eq_some h, List.filterMap_cons]
  cases e.packetTo? node <;> rfl

theorem arrivals_of_pop?_eq_some (h : q.pop? = some (e, q')) :
    q.arrivals = if e.isArrival then e :: q'.arrivals else q'.arrivals := by
  rw [arrivals, toList_of_pop?_eq_some h, List.filter_cons]
  rfl

theorem submissions_of_pop?_eq_some (h : q.pop? = some (e, q')) :
    q.submissions = e.submission?.toList ++ q'.submissions := by
  rw [submissions, toList_of_pop?_eq_some h, List.filterMap_cons]
  cases e.submission? <;> rfl

end Queue

end LossyLink
