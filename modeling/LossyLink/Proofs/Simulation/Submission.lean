import LossyLink.Proofs.Simulation.History

/-! # The order of submissions

What the application is to submit reaches the sender in the order of its times, and
in the order in which it was asked for where the times agree. Nothing else in a run
adds to the submissions or takes one away.
-/

namespace LossyLink

variable {σ ρ : Type}

theorem Event.submission?_eq (e : Event) :
    e.submission? = (Outcome.handled e).toSender?.bind Stimulus.submission? := by
  obtain ⟨time, id, what⟩ := e
  cases what with
  | arrival node p => cases node <;> rfl
  | expiry node timer generation => cases node <;> rfl
  | submission data => rfl

/-- What an event submits, and when. -/
def Event.timed? (e : Event) : Option (Nat × Payload) :=
  e.submission?.map fun data => (e.time, data)

def Outcome.timed? : Outcome → Option (Nat × Payload)
  | drained => none
  | stale _ => none
  | handled e => e.timed?

/-- What the application submitted in a number of steps, with the times. -/
def timetabled (turns : List (Turn σ ρ)) : List (Nat × Payload) :=
  turns.filterMap fun t => t.outcome.timed?

@[simp] theorem timetabled_append (turns : List (Turn σ ρ)) (t : Turn σ ρ) :
    timetabled (turns ++ [t]) = timetabled turns ++ t.outcome.timed?.toList := by
  unfold timetabled
  rw [List.filterMap_append]
  cases h : t.outcome.timed? <;> simp [h]

theorem Outcome.timed?_map (o : Outcome) :
    o.timed?.map Prod.snd = o.toSender?.bind Stimulus.submission? := by
  cases o with
  | drained => rfl
  | stale e => rfl
  | handled e =>
    rw [← Event.submission?_eq, timed?, Event.timed?, Option.map_map]
    exact Option.map_id'

theorem submitted_eq (turns : List (Turn σ ρ)) :
    submitted turns = (timetabled turns).map Prod.snd := by
  rw [submitted, heard, timetabled, List.filterMap_filterMap, List.map_filterMap]
  refine congrArg (fun f => turns.filterMap f) (funext fun t => ?_)
  rw [Outcome.timed?_map, Turn.heard?, Option.bind_map]
  rfl

/-- What the application is still going to submit, with the times. -/
def Queue.timetable (q : Queue) : List (Nat × Payload) := q.toList.filterMap Event.timed?

theorem Queue.submissions_eq (q : Queue) : q.submissions = q.timetable.map Prod.snd := by
  rw [submissions, timetable, List.map_filterMap]
  refine congrArg (fun f => q.toList.filterMap f) (funext fun e => ?_)
  rw [Event.timed?, Option.map_map]
  exact Option.map_id'.symm

theorem Queue.timetable_schedule_of_ne {q : Queue} {time : Nat} {what : Happening}
    (h : ∀ data, what ≠ .submission data) : (q.schedule time what).timetable = q.timetable := by
  refine filterMap_schedule_of_none ?_
  cases what <;> simp_all [Event.timed?, Event.submission?]

theorem Queue.timetable_of_pop?_eq_some {q q' : Queue} {e : Event} (h : q.pop? = some (e, q')) :
    q.timetable = e.timed?.toList ++ q'.timetable := by
  rw [timetable, toList_of_pop?_eq_some h, List.filterMap_cons]
  cases e.timed? <;> rfl

namespace Situation

variable {ends : Ends σ ρ} {c c' : Situation σ ρ} {node : Node}

theorem timetable_timer (c : Situation σ ρ) (op : TimerOp) :
    (c.timer node op).queue.timetable = c.queue.timetable := by
  cases op with
  | start delay id => exact Queue.timetable_schedule_of_ne nofun
  | cancel id => rfl

theorem Carried.timetable_eq {p : Packet} (h : Carried node p c c') :
    c'.queue.timetable = c.queue.timetable := by
  cases h with
  | dropped => rfl
  | sent => exact Queue.timetable_schedule_of_ne nofun

theorem Handled.timetable_eq {x : Stimulus} (h : Handled ends x c node c') :
    c'.queue.timetable = c.queue.timetable := by
  refine h.invariant (P := fun d => d.queue.timetable = c.queue.timetable) ?_ ?_ ?_ rfl
  · intro d sender receiver delivered hd
    exact hd
  · intro d op hd
    exact (timetable_timer d op).trans hd
  · intro d d' p hd hp
    exact hp.timetable_eq.trans hd

/-- Only a step that shows a submission to the sender takes it from the queue. -/
theorem Step.timetable_eq {o : Outcome} (h : Step ends c o c') :
    o.timed?.toList ++ c'.queue.timetable = c.queue.timetable := by
  cases h with
  | drained => rfl
  | @stale e queue hq hs =>
    have hnone : e.timed? = none := by
      cases hw : e.what <;> simp_all [isStale, Event.timed?, Event.submission?]
    rw [Queue.timetable_of_pop?_eq_some hq, hnone]
    rfl
  | handled hq _ hc =>
    rw [Queue.timetable_of_pop?_eq_some hq, hc.timetable_eq]
    rfl

theorem Step.submissions_eq {o : Outcome} (h : Step ends c o c') :
    (o.toSender?.bind Stimulus.submission?).toList ++ c'.queue.submissions =
      c.queue.submissions := by
  rw [Queue.submissions_eq, Queue.submissions_eq, ← h.timetable_eq, List.map_append,
    ← Outcome.timed?_map]
  cases o.timed? <;> rfl

end Situation

def Preparation.submission? : Preparation → Option (Nat × Payload)
  | .submit time data => some (time, data)
  | .dropSeq _ => none
  | .dropAck _ => none

/-- The submissions of a plan with their times, as they were asked for. -/
def planned (plan : List Preparation) : List (Nat × Payload) :=
  plan.filterMap Preparation.submission?

def notLater (a b : Nat × Payload) : Bool := a.1 ≤ b.1

theorem notLater_trans (a b c : Nat × Payload) (hab : notLater a b = true)
    (hbc : notLater b c = true) : notLater a c = true := by
  simp only [notLater, decide_eq_true_eq] at *
  exact Nat.le_trans hab hbc

theorem notLater_total (a b : Nat × Payload) : (notLater a b || notLater b a) = true := by
  simpa [notLater] using Nat.le_total a.1 b.1

/-- The submissions of a plan by their times; the sort is stable. -/
def timetable (plan : List Preparation) : List (Nat × Payload) :=
  (planned plan).mergeSort notLater

/-- The messages of a plan in the order in which they will be submitted. -/
def outgoing (plan : List Preparation) : List Payload := (timetable plan).map Prod.snd

/-- The event of a submission that was asked for after so many others. -/
def submissionEvent (x : (Nat × Payload) × Nat) : Event := ⟨x.1.1, x.2, .submission x.1.2⟩

/-- Submissions numbered as they were asked for, in the order of a stable sort. -/
def numbered (xs : List (Nat × Payload)) : List ((Nat × Payload) × Nat) :=
  xs.zipIdx.mergeSort (List.zipIdxLE notLater)

theorem numbered_perm (xs : List (Nat × Payload)) : (numbered xs).Perm xs.zipIdx :=
  List.mergeSort_perm _ _

theorem numbered_pairwise (xs : List (Nat × Payload)) :
    (numbered xs).Pairwise fun a b => List.zipIdxLE notLater a b = true :=
  List.pairwise_mergeSort (List.zipIdxLE_trans notLater_trans)
    (List.zipIdxLE_total notLater_total) _

theorem numbered_pairwise_ne (xs : List (Nat × Payload)) :
    (numbered xs).Pairwise fun a b => a.2 ≠ b.2 := by
  have hids : (xs.zipIdx.map Prod.snd).Pairwise fun i j => i ≠ j := by
    rw [List.zipIdx_map_snd]
    exact List.nodup_range'
  exact (numbered_perm xs).symm.pairwise (List.pairwise_map.mp hids) Ne.symm

theorem numbered_pairwise_before (xs : List (Nat × Payload)) :
    ((numbered xs).map submissionEvent).Pairwise Event.Before := by
  refine List.pairwise_map.mpr
    (((numbered_pairwise xs).and (numbered_pairwise_ne xs)).imp fun {a b} h => ?_)
  obtain ⟨hle, hne⟩ := h
  have hle : a.1.1 ≤ b.1.1 ∧ (a.1.1 < b.1.1 ∨ a.2 ≤ b.2) := by
    simpa [List.zipIdxLE, notLater] using hle
  simp only [Event.Before, submissionEvent]
  omega

/-- A queue keeps submissions with the numbers under which they were asked for. -/
theorem toList_prepare_perm {s : Simulation σ ρ} (xs : List (Nat × Payload))
    (plan : List Preparation) (hid : s.queue.nextId = xs.length)
    (hp : s.queue.toList.Perm (xs.zipIdx.map submissionEvent)) :
    (s.prepare plan).queue.toList.Perm ((xs ++ planned plan).zipIdx.map submissionEvent) := by
  induction plan generalizing s xs with
  | nil => simpa [Simulation.prepare, planned] using hp
  | cons p plan ih =>
    rw [Simulation.prepare_cons]
    cases p with
    | submit time data =>
      have hnext : (s.submitAt time data).queue.nextId = (xs ++ [(time, data)]).length := by
        simp [Simulation.submitAt, Simulation.enqueue, hid]
      have hperm : (s.submitAt time data).queue.toList.Perm
          ((xs ++ [(time, data)]).zipIdx.map submissionEvent) := by
        have hlast : (xs ++ [(time, data)]).zipIdx.map submissionEvent =
            xs.zipIdx.map submissionEvent ++ [⟨time, xs.length, .submission data⟩] := by
          simp [List.zipIdx_append, submissionEvent]
        simp only [Simulation.submitAt, Simulation.enqueue, Queue.toList_schedule, hid, hlast]
        exact (Event.insert_perm _ _).trans
          ((hp.cons _).trans (List.perm_append_singleton _ _).symm)
      have h := ih _ hnext hperm
      rwa [List.append_assoc] at h
    | dropSeq seq => exact ih (s := s.dropSeq seq) _ hid hp
    | dropAck ack => exact ih (s := s.dropAck ack) _ hid hp

theorem toList_prepare_fresh_perm (config : Config) (ends : Ends σ ρ) (plan : List Preparation) :
    ((Simulation.fresh config ends).prepare plan).queue.toList.Perm
      ((planned plan).zipIdx.map submissionEvent) :=
  toList_prepare_perm (s := Simulation.fresh config ends) [] plan rfl (.refl _)

theorem timetable_prepare (config : Config) (ends : Ends σ ρ) (plan : List Preparation) :
    ((Simulation.fresh config ends).prepare plan).queue.timetable = timetable plan := by
  have hperm := toList_prepare_fresh_perm config ends plan
  have hsorted := hperm.trans ((numbered_perm _).symm.map submissionEvent)
  have heq := Event.eq_of_perm_of_pairwise hsorted (Queue.pairwise_toList _)
    (numbered_pairwise_before _)
  rw [Queue.timetable, heq, List.filterMap_map, timetable, ← List.mergeSort_zipIdx]
  exact congrFun (List.filterMap_eq_map (f := Prod.fst)) _

theorem submissions_prepare (config : Config) (ends : Ends σ ρ) (plan : List Preparation) :
    ((Simulation.fresh config ends).prepare plan).queue.submissions = outgoing plan := by
  rw [Queue.submissions_eq, timetable_prepare]
  rfl

section History

variable {config : Config} {ends : Ends σ ρ} {s s' : Simulation σ ρ} {plan : List Preparation}
  {turns : List (Turn σ ρ)} {n : Nat}

/-- What was submitted and what is still to come make up the plan. -/
theorem timetabled_append_timetable (hs : Simulation.create config ends = .ok s)
    (h : (s.prepare plan).history ends n = .ok (turns, s')) :
    timetabled turns ++ s'.queue.timetable = timetable plan := by
  obtain ⟨hvalid, c, s₁, h₁, h₂, hconfig, hwalk⟩ := Simulation.start_of_history hs h
  have hstart : s₁.queue.timetable = timetable plan :=
    (h₂.timetable_eq.trans h₁.timetable_eq).trans (timetable_prepare config ends plan)
  refine (Simulation.walk_induction (P := fun past t => t.config = config ∧
    timetabled past ++ t.queue.timetable = timetable plan) ?_ [] ⟨hconfig, hstart⟩ hwalk).2
  rintro past t o t' ⟨ht, hpast⟩ hstep
  have hc := Simulation.situation_step (ht.symm ▸ hvalid.latency) hstep
  refine ⟨hc.config_eq.trans ht, ?_⟩
  rw [timetabled_append, List.append_assoc]
  exact (congrArg _ hc.timetable_eq).trans hpast

theorem submitted_append_submissions (hs : Simulation.create config ends = .ok s)
    (h : (s.prepare plan).history ends n = .ok (turns, s')) :
    submitted turns ++ s'.queue.submissions = outgoing plan := by
  rw [submitted_eq, Queue.submissions_eq, ← List.map_append, timetabled_append_timetable hs h]
  rfl

theorem submitted_of_drained (hs : Simulation.create config ends = .ok s)
    (h : (s.prepare plan).history ends n = .ok (turns, s')) (hq : s'.queue.isEmpty) :
    submitted turns = outgoing plan := by
  rw [← submitted_append_submissions hs h, Queue.submissions, Queue.isEmpty_iff.mp hq,
    List.filterMap_nil, List.append_nil]

/-- When the last of some submissions came, zero if there was none. -/
def lastTime (xs : List (Nat × Payload)) : Nat := (xs.getLast?.map Prod.fst).getD 0

/-- The same when a step may have brought one more. -/
def Outcome.lastTime (last : Nat) (o : Outcome) : Nat := (o.timed?.map Prod.fst).getD last

theorem lastTime_timetabled_append (turns : List (Turn σ ρ)) (t : Turn σ ρ) :
    lastTime (timetabled (turns ++ [t])) = t.outcome.lastTime (lastTime (timetabled turns)) := by
  rw [timetabled_append, Outcome.lastTime]
  cases t.outcome.timed? with
  | none => simp
  | some x => simp [lastTime]

/-- The latest time of a plan, zero if nothing is to be submitted. -/
def latest (plan : List Preparation) : Nat := ((planned plan).map Prod.fst).max?.getD 0

theorem le_latest {x : Nat × Payload} (h : x ∈ planned plan) : x.1 ≤ latest plan := by
  have hmem : x.1 ∈ (planned plan).map Prod.fst := List.mem_map_of_mem h
  obtain ⟨a, ha⟩ := Option.isSome_iff_exists.mp (List.isSome_max?_of_mem hmem)
  rw [latest, ha]
  exact (List.max?_le_iff ha).mp (Nat.le_refl a) _ hmem

theorem lastTime_le_latest (hs : Simulation.create config ends = .ok s)
    (h : (s.prepare plan).history ends n = .ok (turns, s')) :
    lastTime (timetabled turns) ≤ latest plan := by
  have hall := timetabled_append_timetable hs h
  cases hlast : (timetabled turns).getLast? with
  | none => simp [lastTime, hlast]
  | some x =>
    have hmem : x ∈ timetable plan := by
      rw [← hall]
      exact List.mem_append_left _ (List.mem_of_getLast? hlast)
    rw [lastTime, hlast]
    exact le_latest ((List.mergeSort_perm _ _).mem_iff.mp hmem)

end History

end LossyLink
