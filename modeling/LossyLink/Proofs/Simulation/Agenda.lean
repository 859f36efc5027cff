import LossyLink.Proofs.Simulation.Bisimulation
import LossyLink.Proofs.Simulation.Channel
import LossyLink.Report

/-! # What the queue is good for

The numbers of events matter only where they decide between events of one instant, and a new
event comes after all of its instant whatever its number. So of the queue nothing counts but
what is to happen and when, in this order, and of the drop rules nothing but how many there
are of each. Simulations that differ in no more run alike.
-/

namespace LossyLink

/-- What happens at a time. -/
abbrev Entry := Nat × Happening

def Event.entry (e : Event) : Entry := (e.time, e.what)

/-- Put an entry behind all that are not later. -/
def Entry.insert (x : Entry) : List Entry → List Entry
  | [] => [x]
  | y :: ys => if x.1 < y.1 then x :: y :: ys else y :: Entry.insert x ys

theorem Event.map_entry_insert {e : Event} {xs : List Event} (h : ∀ x ∈ xs, x.id < e.id) :
    (e.insert xs).map Event.entry = Entry.insert e.entry (xs.map Event.entry) := by
  induction xs with
  | nil => rfl
  | cons x xs ih =>
    have hid : x.id < e.id := h x List.mem_cons_self
    have hbefore : e.Before x ↔ e.time < x.time := by
      simp only [Event.Before]
      omega
    simp only [Event.insert, hbefore, List.map_cons, Entry.insert, Event.entry]
    split
    · rfl
    · exact congrArg _ (ih fun y hy => h y (List.mem_cons_of_mem _ hy))

/-- What keeps the order of times keeps the places of entries. -/
theorem Entry.map_insert {f : Entry → Entry} (hf : ∀ x y, (f x).1 < (f y).1 ↔ x.1 < y.1)
    (x : Entry) (xs : List Entry) :
    (Entry.insert x xs).map f = Entry.insert (f x) (xs.map f) := by
  induction xs with
  | nil => rfl
  | cons y ys ih =>
    simp only [Entry.insert, List.map_cons, hf]
    split
    · rfl
    · rw [List.map_cons, ih]

namespace Queue

variable {q q' r r' : Queue} {e : Event}

/-- What is to happen, in order. -/
def agenda (q : Queue) : List Entry := q.toList.map Event.entry

theorem agenda_schedule (q : Queue) (time : Nat) (what : Happening) :
    (q.schedule time what).agenda = Entry.insert (time, what) q.agenda := by
  rw [agenda, toList_schedule, Event.map_entry_insert fun x hx => id_lt_nextId hx]
  rfl

theorem agenda_of_pop?_eq_some (h : q.pop? = some (e, q')) :
    q.agenda = e.entry :: q'.agenda := by
  rw [agenda, toList_of_pop?_eq_some h]
  rfl

theorem length_agenda (q : Queue) : q.agenda.length = q.size := by simp [agenda]

theorem size_eq_of_agenda_eq (h : r.agenda = q.agenda) : r.size = q.size := by
  rw [← length_agenda, h, length_agenda]

theorem size_eq_of_agenda_eq_map {f : Entry → Entry} (h : r.agenda = q.agenda.map f) :
    r.size = q.size := by
  rw [← length_agenda, h, List.length_map, length_agenda]

theorem exists_pop?_of_agenda_eq_cons {x : Entry} {xs : List Entry} (h : r.agenda = x :: xs) :
    ∃ e' r', r.pop? = some (e', r') ∧ e'.entry = x ∧ r'.agenda = xs := by
  cases hr : r.pop? with
  | none =>
    rw [agenda, pop?_eq_none_iff.mp hr] at h
    cases h
  | some x =>
    obtain ⟨e', r'⟩ := x
    rw [agenda_of_pop?_eq_some hr] at h
    obtain ⟨hentry, hrest⟩ := List.cons.inj h
    exact ⟨e', r', rfl, hentry, hrest⟩

theorem exists_pop?_of_agenda_eq (h : r.agenda = q.agenda) (hq : q.pop? = some (e, q')) :
    ∃ e' r', r.pop? = some (e', r') ∧ e'.entry = e.entry ∧ r'.agenda = q'.agenda := by
  rw [agenda_of_pop?_eq_some hq] at h
  exact exists_pop?_of_agenda_eq_cons h

end Queue

/-- As many rules of each kind, in any order. -/
structure DropRules.Perm (r r' : DropRules) : Prop where
  seqs : r.seqs.Perm r'.seqs
  acks : r.acks.Perm r'.acks

/-- The channel decides the same under the same rules in any order. -/
theorem Config.decision_perm (c : Config) {r r' : DropRules} (h : r.Perm r') (g : Generator)
    (node : Node) (header : Header) :
    (c.decision r' g node header).passage = (c.decision r g node header).passage ∧
      (c.decision r' g node header).generator = (c.decision r g node header).generator ∧
      (c.decision r g node header).drops.Perm (c.decision r' g node header).drops := by
  unfold decision DropRules.take?
  cases node with
  | sender =>
    by_cases hm : header.seq ∈ r.seqs
    · simp only [hm, h.seqs.mem_iff.mp hm, if_true]
      exact ⟨trivial, trivial, h.seqs.erase _, h.acks⟩
    · simp only [hm, mt h.seqs.mem_iff.mpr hm, if_false]
      exact ⟨trivial, trivial, h⟩
  | receiver =>
    by_cases hm : header.isAck ∧ header.ack ∈ r.acks
    · simp only [hm, h.acks.mem_iff.mp hm.2, and_self, if_true]
      exact ⟨trivial, trivial, h.seqs, h.acks.erase _⟩
    · have hm' : ¬ (header.isAck ∧ header.ack ∈ r'.acks) :=
        fun h' => hm ⟨h'.1, h.acks.mem_iff.mpr h'.2⟩
      simp only [hm, hm', if_false]
      exact ⟨trivial, trivial, h⟩

variable {σ ρ : Type}

/-- The simulations differ in the numbers of events and in the order of the rules at most. -/
structure Similar (s t : Simulation σ ρ) : Prop where
  rest : ∃ queue drops, t = { s with queue, drops }
  agenda : t.queue.agenda = s.queue.agenda
  drops : s.drops.Perm t.drops

namespace Similar

open Simulation

variable {s t : Simulation σ ρ} {node : Node}

theorem map {f : Simulation σ ρ → Simulation σ ρ}
    (hf : ∀ s queue drops, f { s with queue, drops } = { f s with queue, drops })
    (h : Similar s t) : Similar (f s) (f t) := by
  obtain ⟨⟨queue, drops, rfl⟩, hagenda, hdrops⟩ := h
  have hself : f s = { f s with queue := s.queue, drops := s.drops } := hf s s.queue s.drops
  have hqueue : (f s).queue = s.queue := by rw [hself]
  have hrules : (f s).drops = s.drops := by rw [hself]
  rw [hf s queue drops]
  exact ⟨⟨queue, drops, rfl⟩, hagenda.trans (congrArg _ hqueue.symm), hrules ▸ hdrops⟩

theorem after (h : Similar s t) (delay : Nat) (what : Happening) :
    Alike Similar (s.after delay what) (t.after delay what) := by
  obtain ⟨⟨queue, drops, rfl⟩, hagenda, hdrops⟩ := h
  unfold Simulation.after
  simp only
  split
  · refine .ok ⟨⟨_, _, rfl⟩, ?_, hdrops⟩
    simp only at hagenda
    simp only [enqueue, Queue.agenda_schedule, hagenda]
  · exact .error _

theorem pass (h : Similar s t) (x : Post) : Alike Similar (s.pass node x) (t.pass node x) := by
  apply alike_pass
  · exact h.map (f := fun s => { s with links := s.links ++ x.events s.clock node })
      fun _ _ _ => rfl
  · exact fun h delay p => h.after delay _

theorem transmit (h : Similar s t) (p : Packet) :
    Alike Similar (s.transmit node p) (t.transmit node p) := by
  obtain ⟨⟨queue, drops, rfl⟩, hagenda, hdrops⟩ := h
  obtain ⟨hpassage, hgenerator, hrules⟩ :=
    s.config.decision_perm hdrops s.generator node p.header
  rw [transmit_eq, transmit_eq]
  simp only [Simulation.decision, hpassage]
  refine Similar.pass ⟨?_, ?_, hrules⟩ _
  · simp only [decided, hgenerator]
    cases node <;> exact ⟨queue, _, rfl⟩
  · cases node <;> exact hagenda

theorem timer (h : Similar s t) (op : TimerOp) :
    Alike Similar (s.timer node op) (t.timer node op) := by
  have hbump : ∀ id, Similar { s with generations := s.generations.bump (node, id) }
      { t with generations := t.generations.bump (node, id) } := fun id =>
    h.map (f := fun s => { s with generations := s.generations.bump (node, id) }) fun _ _ _ => rfl
  cases op with
  | cancel id => exact .ok (hbump id)
  | start delay id =>
    obtain ⟨⟨queue, drops, rfl⟩, -, -⟩ := h
    exact (hbump id).after delay _

theorem keepsActions :
    KeepsActions (Similar : Simulation σ ρ → Simulation σ ρ → Prop) where
  sample name value h := h.map (f := fun s => s.sample name value) fun _ _ _ => rfl
  notify n h := h.map (f := fun s => s.notify n) fun _ _ _ => rfl
  deliver node data h := h.map (f := fun s => s.deliver node data) fun _ _ _ => rfl
  timer _ op h := h.timer op
  transmit _ p h := h.transmit p

theorem bisimulation :
    Bisimulation (Similar : Simulation σ ρ → Simulation σ ρ → Prop) where
  toKeepsActions := keepsActions
  clock_eq := by
    rintro s t ⟨⟨queue, drops, rfl⟩, -, -⟩
    rfl
  sender_eq := by
    rintro s t ⟨⟨queue, drops, rfl⟩, -, -⟩
    rfl
  receiver_eq := by
    rintro s t ⟨⟨queue, drops, rfl⟩, -, -⟩
    rfl
  size_eq h := Queue.size_eq_of_agenda_eq h.agenda
  clock clock h := h.map (f := fun s => { s with clock }) fun _ _ _ => rfl
  sender sender h := h.map (f := fun s => { s with sender }) fun _ _ _ => rfl
  receiver receiver h := h.map (f := fun s => { s with receiver }) fun _ _ _ => rfl
  complete completed h := h.map (f := fun s => { s with completed }) fun _ _ _ => rfl
  take := by
    rintro s t e q ⟨⟨queue, drops, rfl⟩, hagenda, hdrops⟩ hq
    obtain ⟨e', r, hr, hentry, hrest⟩ := Queue.exists_pop?_of_agenda_eq hagenda hq
    obtain ⟨htime, hwhat⟩ := Prod.mk.inj hentry
    refine ⟨e', r, hr, ⟨htime, by rw [hwhat], by rw [hwhat]⟩, ?_, ⟨r, drops, rfl⟩, hrest, hdrops⟩
    simp only [Simulation.isStale, hwhat]

theorem report_eq (h : Similar s t) : t.report = s.report ∧ t.notices = s.notices := by
  obtain ⟨⟨queue, drops, rfl⟩, -, -⟩ := h
  exact ⟨rfl, rfl⟩

/-- A run fails in both with the same error, or it ends with the same result, report and log. -/
theorem map_run_eq (h : Similar s t) (ends : Ends σ ρ) (limit : Nat) :
    (t.run ends limit).map (fun x => (x.1, x.2.report, x.2.notices)) =
      (s.run ends limit).map fun x => (x.1, x.2.report, x.2.notices) := by
  apply Eq.symm
  apply Alike.eq
  apply (bisimulation.run h ends limit).map
  rintro ⟨b, s'⟩ ⟨b', t'⟩ ⟨rfl, -, h'⟩
  obtain ⟨hreport, hnotices⟩ := h'.report_eq
  exact Prod.ext rfl (Prod.ext hreport.symm hnotices.symm)

end Similar

end LossyLink
