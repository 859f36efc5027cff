import Mathlib.Data.List.Pairwise
import LossyLink.Proofs.AlternatingBit.Delivery
import LossyLink.Proofs.Simulation.Agenda
import LossyLink.Proofs.Simulation.Submission
import LossyLink.Scenario.Run

/-! # The order of a scenario's actions

All actions of a scenario are carried out before its run. What is submitted is sorted by its
time, and texts of one time stay in the order in which they are listed; of the drop rules only
the number of each counts. So the actions may be listed in any order that leaves alone the
order of texts of one time.
-/

namespace LossyLink

/-- What has the same time keeps its order. -/
theorem filter_timetable (time : Nat) (plan : List Preparation) :
    (timetable plan).filter (fun x => x.1 == time) =
      (planned plan).filter fun x => x.1 == time := by
  have hsublist : ((planned plan).filter fun x => x.1 == time).Sublist (timetable plan) := by
    refine List.sublist_mergeSort notLater_trans notLater_total ?_ List.filter_sublist
    refine List.pairwise_of_forall_mem_list fun a ha b hb => ?_
    have ha := beq_iff_eq.mp (List.mem_filter.mp ha).2
    have hb := beq_iff_eq.mp (List.mem_filter.mp hb).2
    simp [notLater, ha, hb]
  have hfilter := hsublist.filter fun x => x.1 == time
  rw [List.filter_filter] at hfilter
  simp only [Bool.and_self] at hfilter
  exact (hfilter.eq_of_length ((List.mergeSort_perm _ _).filter _).length_eq.symm).symm

theorem le_of_filter_eq {x y : Nat × Payload} {xs ys : List (Nat × Payload)}
    (hx : (x :: xs).Pairwise fun a b => notLater a b = true)
    (h : ∀ time, (x :: xs).filter (fun a => a.1 == time) = (y :: ys).filter fun a => a.1 == time) :
    x.1 ≤ y.1 := by
  have hy : y ∈ (y :: ys).filter fun a => a.1 == y.1 :=
    List.mem_filter.mpr ⟨List.mem_cons_self, beq_iff_eq.mpr rfl⟩
  rw [← h y.1] at hy
  rcases List.mem_cons.mp (List.mem_filter.mp hy).1 with rfl | hy
  · exact Nat.le_refl _
  · exact of_decide_eq_true ((List.pairwise_cons.mp hx).1 y hy)

/-- A sorted list is determined by what it holds for each time. -/
theorem eq_of_filter_eq {xs ys : List (Nat × Payload)}
    (hx : xs.Pairwise fun a b => notLater a b = true)
    (hy : ys.Pairwise fun a b => notLater a b = true)
    (h : ∀ time, xs.filter (fun x => x.1 == time) = ys.filter fun x => x.1 == time) :
    xs = ys := by
  induction xs generalizing ys with
  | nil =>
    cases ys with
    | nil => rfl
    | cons y ys => simpa using h y.1
  | cons x xs ih =>
    cases ys with
    | nil => simpa using h x.1
    | cons y ys =>
      have htime : x.1 = y.1 :=
        Nat.le_antisymm (le_of_filter_eq hx h) (le_of_filter_eq hy fun time => (h time).symm)
      have hhead := h x.1
      simp only [List.filter_cons, htime, BEq.rfl, if_true] at hhead
      obtain rfl : x = y := (List.cons.inj hhead).1
      refine congrArg (x :: ·) (ih hx.of_cons hy.of_cons fun time => ?_)
      have htail := h time
      simp only [List.filter_cons] at htail
      split at htail
      · exact (List.cons.inj htail).2
      · exact htail

theorem timetable_eq {plan plan' : List Preparation}
    (h : ∀ time, (planned plan).filter (fun x => x.1 == time) =
      (planned plan').filter fun x => x.1 == time) : timetable plan = timetable plan' := by
  have hsorted : ∀ plan, (timetable plan).Pairwise fun a b => notLater a b = true :=
    fun _ => List.pairwise_mergeSort notLater_trans notLater_total _
  refine eq_of_filter_eq (hsorted _) (hsorted _) fun time => ?_
  rw [filter_timetable, filter_timetable, h]

def Preparation.seqRule? : Preparation → Option UInt32
  | .dropSeq seq => some seq
  | .dropAck _ => none
  | .submit _ _ => none

def Preparation.ackRule? : Preparation → Option UInt32
  | .dropAck ack => some ack
  | .dropSeq _ => none
  | .submit _ _ => none

namespace Simulation

variable {σ ρ : Type} {ends : Ends σ ρ}

theorem prepare_frame (s : Simulation σ ρ) (plan : List Preparation) :
    ∃ queue drops, s.prepare plan = { s with queue, drops } := by
  induction plan generalizing s with
  | nil => exact ⟨s.queue, s.drops, rfl⟩
  | cons p plan ih =>
    obtain ⟨queue, drops, h⟩ := ih (s.arrange p)
    exact ⟨queue, drops, by rw [prepare_cons, h]; cases p <;> rfl⟩

theorem drops_prepare (s : Simulation σ ρ) (plan : List Preparation) :
    (s.prepare plan).drops.seqs = (plan.filterMap Preparation.seqRule?).reverse ++ s.drops.seqs ∧
      (s.prepare plan).drops.acks =
        (plan.filterMap Preparation.ackRule?).reverse ++ s.drops.acks := by
  induction plan generalizing s with
  | nil => exact ⟨rfl, rfl⟩
  | cons p plan ih =>
    obtain ⟨hseqs, hacks⟩ := ih (s.arrange p)
    rw [prepare_cons, hseqs, hacks]
    cases p with
    | submit time data => exact ⟨rfl, rfl⟩
    | dropSeq seq =>
      rw [List.filterMap_cons_some (f := Preparation.seqRule?) rfl, List.reverse_cons,
        List.append_assoc]
      exact ⟨rfl, rfl⟩
    | dropAck ack =>
      rw [List.filterMap_cons_some (f := Preparation.ackRule?) rfl, List.reverse_cons,
        List.append_assoc]
      exact ⟨rfl, rfl⟩

theorem agenda_prepare_fresh (config : Config) (ends : Ends σ ρ) (plan : List Preparation) :
    ((fresh config ends).prepare plan).queue.agenda =
      (timetable plan).map fun x => (x.1, .submission x.2) := by
  have hentries : ∀ es : List Event, (∀ e ∈ es, ∃ data, e.what = .submission data) →
      es.map Event.entry = (es.filterMap Event.timed?).map fun x => (x.1, .submission x.2) := by
    intro es
    induction es with
    | nil => exact fun _ => rfl
    | cons e es ih =>
      intro h
      obtain ⟨data, hd⟩ := h e List.mem_cons_self
      have htimed : e.timed? = some (e.time, data) := by
        simp [Event.timed?, Event.submission?, hd]
      rw [List.map_cons, ih fun x hx => h x (List.mem_cons_of_mem _ hx),
        List.filterMap_cons_some htimed, List.map_cons, Event.entry, hd]
  rw [← timetable_prepare config ends plan]
  exact hentries _ (submission_of_mem_prepare_fresh plan)

theorem similar_prepare_fresh {config : Config} {plan plan' : List Preparation}
    (hperm : plan.Perm plan')
    (h : ∀ time, (planned plan).filter (fun x => x.1 == time) =
      (planned plan').filter fun x => x.1 == time) :
    Similar ((fresh config ends).prepare plan) ((fresh config ends).prepare plan') := by
  obtain ⟨queue, drops, hframe⟩ := prepare_frame (fresh config ends) plan
  obtain ⟨queue', drops', hframe'⟩ := prepare_frame (fresh config ends) plan'
  obtain ⟨hseqs, hacks⟩ := drops_prepare (fresh config ends) plan
  obtain ⟨hseqs', hacks'⟩ := drops_prepare (fresh config ends) plan'
  refine ⟨⟨queue', drops', by rw [hframe, hframe']⟩, ?_, ?_, ?_⟩
  · rw [agenda_prepare_fresh, agenda_prepare_fresh, timetable_eq h]
  · rw [hseqs, hseqs']
    refine List.Perm.append_right _ ?_
    exact ((List.reverse_perm _).trans (hperm.filterMap _)).trans (List.reverse_perm _).symm
  · rw [hacks, hacks']
    refine List.Perm.append_right _ ?_
    exact ((List.reverse_perm _).trans (hperm.filterMap _)).trans (List.reverse_perm _).symm

end Simulation

namespace Scenario

open Simulation

variable {σ ρ : Type}

def Action.submitsAt (time : Nat) : Action → Bool
  | .submit t _ => t == time
  | .dropSeq _ => false
  | .dropAck _ => false

/-- The same actions in another order, but for the texts of one time. -/
structure Reordered (actions actions' : List Action) : Prop where
  perm : actions.Perm actions'
  submissions : ∀ time,
    actions.filter (Action.submitsAt time) = actions'.filter (Action.submitsAt time)

theorem filter_planned (time : Nat) (actions : List Action) :
    (planned (actions.map Action.preparation)).filter (fun x => x.1 == time) =
      planned ((actions.filter (Action.submitsAt time)).map Action.preparation) := by
  induction actions with
  | nil => rfl
  | cons a actions ih =>
    simp only [planned, List.filterMap_map] at ih ⊢
    cases a with
    | submit t data =>
      rw [List.filterMap_cons_some (f := Preparation.submission? ∘ Action.preparation) rfl]
      by_cases ht : (t == time) = true
      · rw [List.filter_cons_of_pos (by exact ht), List.filter_cons_of_pos (by exact ht), ih]
        rfl
      · rw [List.filter_cons_of_neg (by exact ht), List.filter_cons_of_neg (by exact ht), ih]
    | dropSeq seq => exact ih
    | dropAck ack => exact ih

theorem Reordered.similar {actions actions' : List Action} (h : Reordered actions actions')
    (config : Config) (ends : Ends σ ρ) :
    Similar ((fresh config ends).prepare (actions.map Action.preparation))
      ((fresh config ends).prepare (actions'.map Action.preparation)) := by
  refine similar_prepare_fresh (h.perm.map _) fun time => ?_
  rw [filter_planned, filter_planned, h.submissions]

/-- What a run of a scenario shows: whether it emptied the queue, its report and its log. -/
def observe (c : Scenario) (ends : Ends σ ρ) (limit : Nat) :
    Except ConfigError (Except ClockOverflow (Bool × Report × Array Notice)) :=
  (c.build ends).map fun s => (s.run ends limit).map fun x => (x.1, x.2.report, x.2.notices)

/-- A scenario and the same one with its actions in another order run alike, whatever the ends
and the limit are: they end with the same result, report and log, or in the same error. -/
theorem observe_independent_of_order (c : Scenario) {actions : List Action}
    (h : Reordered c.actions actions) (ends : Ends σ ρ) (limit : Nat) :
    { c with actions }.observe ends limit = c.observe ends limit := by
  have hsimilar := h.similar (Config.override {} c.config) ends
  simp only [observe, build, create]
  cases (Config.override {} c.config).validate with
  | error e => rfl
  | ok u => exact congrArg Except.ok (hsimilar.map_run_eq ends limit)

/-- Three texts, two of them at one time, and rules of both kinds. -/
def errands : Scenario where
  name := "errands"
  config := { corruptRate := some 0.25, seed := some 2 }
  actions := [.submit 20000 "c", .dropSeq 0, .submit 0 "a", .dropAck 1, .dropSeq 1, .submit 0 "b"]

def errandsByTime : List Action :=
  [.dropSeq 1, .submit 0 "a", .submit 0 "b", .dropAck 1, .dropSeq 0, .submit 20000 "c"]

theorem observe_independent_of_order_of_errands :
    Reordered errands.actions errandsByTime ∧
      { errands with actions := errandsByTime }.observe AlternatingBit.ends 100 =
        errands.observe AlternatingBit.ends 100 ∧
      (errands.observe AlternatingBit.ends 100).map (fun r =>
        r.map fun x => (x.1, x.2.1.delivered, x.2.1.senderPackets)) =
          .ok (.ok (true, [[0x61], [0x63]], 7)) := by
  have hsubmissions : ∀ time, errands.actions.filter (Action.submitsAt time) =
      errandsByTime.filter (Action.submitsAt time) := by
    intro time
    by_cases hfirst : time = 0
    · subst hfirst
      decide
    · by_cases hlast : time = 20000
      · subst hlast
        decide
      · have hne : (0 == time) = false := by simp [Ne.symm hfirst]
        have hne' : (20000 == time) = false := by simp [Ne.symm hlast]
        simp [errands, errandsByTime, Action.submitsAt, hne, hne']
  have h : Reordered errands.actions errandsByTime := ⟨by decide, hsubmissions⟩
  refine ⟨h, observe_independent_of_order errands h AlternatingBit.ends 100, ?_⟩
  decide +kernel

end Scenario

end LossyLink
