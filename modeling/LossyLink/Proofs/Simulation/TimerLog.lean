import LossyLink.Proofs.Simulation.History
import LossyLink.Proofs.Simulation.Pending
import Mathlib.Data.List.Chain

/-! # The log of the timers

Every start, cancellation and firing of a timer in the order in which they happen. In the
log of one timer a firing follows the start that asked for it, after exactly the delay; and
what follows a start otherwise comes before the moment for which the firing was scheduled.
The timer is pending just when its log ends with a start.
-/

namespace LossyLink

variable {σ ρ : Type}

inductive TimerChange where
  /-- Its expiry is scheduled under the number. -/
  | started (delay id : Nat)
  | cancelled
  | fired
  deriving DecidableEq, Repr

structure TimerEntry where
  time : Nat
  /-- The number of the event that an end is answering, if it is not being initialised. -/
  cause : Option Nat
  key : TimerKey
  change : TimerChange
  deriving DecidableEq, Repr

namespace TimerEntry

/-- It happens before an event of that time and number falls due. -/
def Before (d : TimerEntry) (due id : Nat) : Prop :=
  d.time < due ∨ d.time = due ∧ ∀ i ∈ d.cause, i < id

/-- The second entry may come next after the first one in the log of a timer. -/
structure Follows (d d' : TimerEntry) : Prop where
  fired : d'.change = .fired → ∃ delay id, d.change = .started delay id ∧
    d'.time = d.time + delay ∧ d'.cause = some id
  started : ∀ delay id, d.change = .started delay id → d'.change ≠ .fired →
    d'.Before (d.time + delay) id

/-- What timer operations add to the log, the next event having this number. -/
def ofOps (time : Nat) (cause : Option Nat) (node : Node) : Nat → List TimerOp → List TimerEntry
  | _, [] => []
  | next, .start delay id :: ops =>
    ⟨time, cause, (node, id), .started delay next⟩ :: ofOps time cause node (next + 1) ops
  | next, .cancel id :: ops =>
    ⟨time, cause, (node, id), .cancelled⟩ :: ofOps time cause node next ops

end TimerEntry

/-- The entries of one timer. -/
def ofTimer (k : TimerKey) (log : List TimerEntry) : List TimerEntry :=
  log.filter fun d => d.key = k

@[simp] theorem ofTimer_append (k : TimerKey) (log rest : List TimerEntry) :
    ofTimer k (log ++ rest) = ofTimer k log ++ ofTimer k rest := List.filter_append ..

theorem ofTimer_cons (k : TimerKey) (d : TimerEntry) (log : List TimerEntry) :
    ofTimer k (d :: log) = if d.key = k then d :: ofTimer k log else ofTimer k log := by
  simp [ofTimer, List.filter_cons]

def Event.firing? (e : Event) : Option TimerEntry :=
  match e.what with
  | .expiry node id _ => some ⟨e.time, some e.id, (node, id), .fired⟩
  | .arrival .. => none
  | .submission _ => none

namespace Situation

/-- What the answer of an end adds to the log. -/
def answerLog (ends : Ends σ ρ) (c : Situation σ ρ) (cause : Option Nat) (node : Node)
    (x : Stimulus) : List TimerEntry :=
  TimerEntry.ofOps c.clock cause node c.queue.nextId (c.asked ends node x)

end Situation

/-- What a step adds to the log. -/
def Turn.timerLog (ends : Ends σ ρ) (t : Turn σ ρ) : List TimerEntry :=
  match t.outcome with
  | .drained => []
  | .stale _ => []
  | .handled e =>
    e.firing?.toList ++ { t.before with clock := e.time }.situation.answerLog ends (some e.id)
      e.what.node e.what.stimulus

namespace Simulation

/-- What starting both ends adds to the log. -/
def startLog (ends : Ends σ ρ) (s : Simulation σ ρ) : List TimerEntry :=
  s.situation.answerLog ends none .sender .init ++
    match s.handle ends .sender .init with
    | .error _ => []
    | .ok s => s.situation.answerLog ends none .receiver .init

def timerLog (ends : Ends σ ρ) (s : Simulation σ ρ) (turns : List (Turn σ ρ)) :
    List TimerEntry :=
  s.startLog ends ++ turns.flatMap (Turn.timerLog ends)

end Simulation

namespace Situation

variable {ends : Ends σ ρ} {c c' : Situation σ ρ} {node : Node} {k : TimerKey} {e : Event}
  {x : Stimulus} {cause : Option Nat} {log : List TimerEntry} {d : TimerEntry}

/-- The log of a timer up to a situation. -/
structure Logged (c : Situation σ ρ) (k : TimerKey) (log : List TimerEntry) : Prop where
  follows : log.IsChain TimerEntry.Follows
  first : ∀ d ∈ log.head?, d.change ≠ .fired
  pending : ∀ e, c.Pending k e → ∃ d ∈ log.getLast?, ∃ delay,
    d.change = .started delay e.id ∧ e.time = d.time + delay
  started : ∀ d ∈ log.getLast?, ∀ delay id, d.change = .started delay id →
    ∃ e, c.Pending k e ∧ e.id = id ∧ e.time = d.time + delay

theorem logged_nil (h : ∀ e, ¬ c.Pending k e) : c.Logged k [] :=
  ⟨.nil, nofun, fun e hp => absurd hp (h e), nofun⟩

theorem Logged.congr (h : c.Logged k log) (hp : ∀ e, c'.Pending k e ↔ c.Pending k e) :
    c'.Logged k log where
  follows := h.follows
  first := h.first
  pending e he := h.pending e ((hp e).mp he)
  started := by simpa only [hp] using h.started

theorem Logged.snoc (h : c.Logged k log) (hd : ∀ d₀ ∈ log.getLast?, d₀.Follows d)
    (hfirst : log = [] → d.change ≠ .fired)
    (hpending : ∀ e, c'.Pending k e → ∃ delay, d.change = .started delay e.id ∧
      e.time = d.time + delay)
    (hstarted : ∀ delay id, d.change = .started delay id →
      ∃ e, c'.Pending k e ∧ e.id = id ∧ e.time = d.time + delay) : c'.Logged k (log ++ [d]) where
  follows := h.follows.append (.singleton d) (by simpa using hd)
  first := by
    cases log with
    | nil => simpa using hfirst rfl
    | cons d₀ log => simpa using h.first
  pending e he := ⟨d, by simp, hpending e he⟩
  started := by simpa using hstarted

/-- Whatever waits comes after the event that is being answered. -/
structure Answering (c : Situation σ ρ) (cause : Option Nat) : Prop where
  clock_le : ∀ e ∈ c.queue.toList, c.clock ≤ e.time
  id_lt : ∀ e ∈ c.queue.toList, e.time = c.clock → ∀ i ∈ cause, i < e.id
  lt_nextId : ∀ i ∈ cause, i < c.queue.nextId

theorem Coherent.answering_none (h : c.Coherent) : c.Answering none := ⟨h.clock_le, nofun, nofun⟩

theorem answering_reach {queue : Queue} (hq : c.queue.pop? = some (e, queue)) :
    (c.reach e queue).Answering (some e.id) := by
  refine ⟨Queue.time_le_of_pop?_eq_some hq, ?_, ?_⟩
  · rintro x hx htime i ⟨⟩
    have hb := Queue.before_of_pop?_eq_some hq x hx
    unfold Event.Before at hb
    rw [clock_reach] at htime
    omega
  · rintro i ⟨⟩
    rw [queue_reach, Queue.nextId_of_pop?_eq_some hq]
    exact Queue.id_lt_nextId (Queue.first_mem_of_pop?_eq_some hq)

theorem Answering.timer (h : c.Answering cause) (op : TimerOp) :
    (c.timer node op).Answering cause := by
  cases op with
  | cancel id => exact ⟨h.clock_le, h.id_lt, h.lt_nextId⟩
  | start delay id =>
    refine ⟨?_, ?_, fun i hi => Nat.lt_succ_of_lt (h.lt_nextId i hi)⟩
    · intro e he
      rcases Queue.mem_schedule.mp he with rfl | he
      · exact Nat.le_add_right _ _
      · exact h.clock_le e he
    · intro e he
      rcases Queue.mem_schedule.mp he with rfl | he
      · exact fun _ => h.lt_nextId
      · exact h.id_lt e he

/-- What is done to a timer in an answer comes before its pending expiry. -/
theorem Logged.follows_of_ne_fired (h : c.Logged k log) (ha : c.Answering cause)
    (htime : d.time = c.clock) (hcause : d.cause = cause) (hd : d.change ≠ .fired) :
    ∀ d₀ ∈ log.getLast?, d₀.Follows d := by
  refine fun d₀ hd₀ => ⟨fun hf => absurd hf hd, fun delay id hs _ => ?_⟩
  obtain ⟨e, hp, rfl, he⟩ := h.started d₀ hd₀ delay id hs
  rw [TimerEntry.Before, ← he, htime, hcause]
  rcases (ha.clock_le e hp.1).lt_or_eq with hlt | heq
  · exact .inl hlt
  · exact .inr ⟨heq, ha.id_lt e hp.1 heq.symm⟩

theorem Logged.start (h : c.Logged k log) (hcoh : c.Coherent) (ha : c.Answering cause)
    {delay : Nat} {id : UInt32} (hk : k = (node, id)) :
    (c.timer node (.start delay id)).Logged k
      (log ++ [⟨c.clock, cause, k, .started delay c.queue.nextId⟩]) := by
  refine h.snoc (h.follows_of_ne_fired ha rfl rfl nofun) nofun (fun e hp => ?_) ?_
  · obtain ⟨-, rfl⟩ := ((pending_start hcoh).mp hp).resolve_right fun hne => hne.1 hk
    exact ⟨delay, rfl, rfl⟩
  · rintro _ _ ⟨⟩
    exact ⟨_, (pending_start hcoh).mpr (.inl ⟨hk, rfl⟩), rfl, rfl⟩

theorem Logged.cancel (h : c.Logged k log) (hcoh : c.Coherent) (ha : c.Answering cause)
    {id : UInt32} (hk : k = (node, id)) :
    (c.timer node (.cancel id)).Logged k (log ++ [⟨c.clock, cause, k, .cancelled⟩]) := by
  refine h.snoc (h.follows_of_ne_fired ha rfl rfl nofun) nofun (fun e hp => ?_) nofun
  exact absurd hk ((pending_cancel hcoh).mp hp).1

theorem Logged.runTimers (ops : List TimerOp) (h : c.Logged k log) (hcoh : c.Coherent)
    (ha : c.Answering cause) :
    (c.runTimers node ops).Logged k
      (log ++ ofTimer k (TimerEntry.ofOps c.clock cause node c.queue.nextId ops)) := by
  induction ops generalizing c log with
  | nil => simpa [Situation.runTimers, TimerEntry.ofOps, ofTimer] using h
  | cons op ops ih =>
    rw [runTimers_cons]
    cases op with
    | start delay id =>
      rw [TimerEntry.ofOps, ofTimer_cons]
      by_cases hk : k = (node, id)
      · rw [if_pos hk.symm, List.append_cons]
        subst hk
        exact ih (h.start hcoh ha rfl) (hcoh.timer _) (ha.timer _)
      · rw [if_neg (Ne.symm hk)]
        refine ih (h.congr fun e => ?_) (hcoh.timer _) (ha.timer (.start delay id))
        simp [pending_start hcoh, hk]
    | cancel id =>
      rw [TimerEntry.ofOps, ofTimer_cons]
      by_cases hk : k = (node, id)
      · rw [if_pos hk.symm, List.append_cons]
        subst hk
        exact ih (h.cancel hcoh ha rfl) (hcoh.timer _) (ha.timer _)
      · rw [if_neg (Ne.symm hk)]
        refine ih (h.congr fun e => ?_) (hcoh.timer _) (ha.timer (.cancel id))
        simp [pending_cancel hcoh, hk]

theorem Logged.handled (h : c.Logged k log) (hcoh : c.Coherent) (ha : c.Answering cause)
    (hh : Handled ends x c node c') :
    c'.Logged k (log ++ ofTimer k (c.answerLog ends cause node x)) :=
  (h.runTimers (c.asked ends node x) hcoh ha).congr fun _ => hh.pending_iff

theorem Logged.fired {queue : Queue} (h : c.Logged k log) (hq : c.queue.pop? = some (e, queue))
    (hp : c.Pending k e) :
    (c.reach e queue).Logged k (log ++ [⟨e.time, some e.id, k, .fired⟩]) := by
  obtain ⟨d, hd, delay, hchange, htime⟩ := h.pending e hp
  refine h.snoc ?_ (fun hnil => ?_) (fun x hx => ?_) nofun
  · intro d₀ hd₀
    obtain rfl := Option.mem_unique hd₀ hd
    exact ⟨fun _ => ⟨delay, e.id, hchange, htime, rfl⟩, fun _ _ _ hne => absurd rfl hne⟩
  · rw [hnil] at hd
    cases hd
  · -- another pending expiry would have the number of this one
    obtain ⟨hpx, hne⟩ := (pending_reach hq).mp hx
    obtain ⟨d₀, hd₀, delay₀, hchange₀, htime₀⟩ := h.pending x hpx
    obtain rfl := Option.mem_unique hd₀ hd
    obtain ⟨rfl, hid⟩ := TimerChange.started.inj (hchange.symm.trans hchange₀)
    have hb := Queue.before_of_mem_of_ne hq hpx.1 hne
    unfold Event.Before at hb
    omega

theorem Logged.reach {queue : Queue} (h : c.Logged k log)
    (hq : c.queue.pop? = some (e, queue)) (hs : c.isStale e = false) :
    (c.reach e queue).Logged k (log ++ ofTimer k e.firing?.toList) := by
  have hother : ¬ c.Pending k e → (c.reach e queue).Logged k log := fun hp =>
    h.congr fun x => (pending_reach hq).trans
      (and_iff_left_of_imp fun hx hxe => hp (hxe ▸ hx))
  have hnone : ∀ {what}, e.what = what → (∀ node id generation, what ≠ .expiry node id generation) →
      (c.reach e queue).Logged k log :=
    fun hw hne => hother fun hp => hne _ _ _ (hw.symm.trans hp.2)
  cases hw : e.what with
  | expiry node id generation =>
    have hp := pending_of_not_stale (Queue.first_mem_of_pop?_eq_some hq) hw hs
    simp only [Event.firing?, hw, Option.toList_some, ofTimer_cons]
    by_cases hk : (node, id) = k
    · subst hk
      rw [if_pos rfl]
      exact h.fired hq hp
    · rw [if_neg hk]
      simpa [ofTimer] using hother fun hp' => hk (hp.key_inj hp')
  | arrival node p => simpa [Event.firing?, hw, ofTimer] using hnone hw nofun
  | submission data => simpa [Event.firing?, hw, ofTimer] using hnone hw nofun

theorem Logged.step {s : Simulation σ ρ} {o : Outcome} (h : s.situation.Logged k log)
    (hcoh : s.situation.Coherent) (hc : Step ends s.situation o c') :
    c'.Logged k (log ++ ofTimer k (Turn.timerLog ends ⟨s, o⟩)) := by
  cases hc with
  | drained => simpa [Turn.timerLog, ofTimer] using h
  | @stale e queue hq hs =>
    simp only [Turn.timerLog, ofTimer, List.filter_nil, List.append_nil]
    refine h.congr fun x => (pending_reach hq).trans (and_iff_left_of_imp fun hx hxe => ?_)
    rw [← hxe, hx.not_stale] at hs
    cases hs
  | @handled e queue _ hq hs hh =>
    have hnext : queue.nextId = s.queue.nextId := Queue.nextId_of_pop?_eq_some hq
    have hlog := (h.reach hq hs).handled (hcoh.reach hq) (answering_reach hq) hh
    rw [answerLog, queue_reach, hnext, List.append_assoc, ← ofTimer_append] at hlog
    exact hlog

end Situation

namespace Simulation

variable {ends : Ends σ ρ} {config : Config} {s s' : Simulation σ ρ} {plan : List Preparation}
  {turns : List (Turn σ ρ)} {n : Nat} {k : TimerKey}

theorem logged_of_init (hv : s.config.minLatency ≤ s.config.maxLatency)
    (hcoh : s.situation.Coherent) (hnone : ∀ e, ¬ s.situation.Pending k e)
    (h : s.init ends = .ok s') : s'.situation.Logged k (ofTimer k (s.startLog ends)) ∧
      s'.situation.Coherent ∧ s'.config = s.config := by
  obtain ⟨t, hs, ht⟩ := init_eq_ok h
  have h₁ := situation_handle hv hs
  have hconfig : t.config = s.config := h₁.config_eq
  have h₂ := situation_handle (hconfig ▸ hv) ht
  have hcoh' := hcoh.handled h₁
  have hlog := ((Situation.logged_nil hnone).handled hcoh hcoh.answering_none h₁).handled hcoh'
    hcoh'.answering_none h₂
  refine ⟨?_, hcoh'.handled h₂, h₂.config_eq.trans hconfig⟩
  rw [startLog, hs, ofTimer_append]
  simpa only [List.nil_append] using hlog

/-- The log of every timer in every state that a prepared simulation reaches. -/
theorem logged_of_history (hs : create config ends = .ok s)
    (h : (s.prepare plan).history ends n = .ok (turns, s')) (k : TimerKey) :
    s'.situation.Logged k (ofTimer k ((s.prepare plan).timerLog ends turns)) := by
  obtain ⟨hvalid, rfl⟩ := create_eq_ok_iff.mp hs
  obtain ⟨s₁, hinit, hwalk⟩ := history_eq_ok h
  have hconfig : ((fresh config ends).prepare plan).config = config := config_prepare _ plan
  obtain ⟨hlog, hcoh, hconfig₁⟩ := logged_of_init (hconfig.symm ▸ hvalid.latency)
    (coherent_prepare_fresh plan)
    (fun e => Situation.not_pending_of_submissions (k := k) (submission_of_mem_prepare_fresh plan))
    hinit
  have hall := walk_induction (P := fun past t => t.config = config ∧ t.situation.Coherent ∧
    t.situation.Logged k (ofTimer k (((fresh config ends).prepare plan).timerLog ends past)))
    ?_ [] ⟨hconfig₁.trans hconfig, hcoh, by simpa [timerLog] using hlog⟩ hwalk
  · exact hall.2.2
  · rintro past t o t' ⟨ht, hcoh, hlog⟩ hstep
    have hc := situation_step (ht ▸ hvalid.latency) hstep
    refine ⟨hc.config_eq.trans ht, hcoh.step hc, ?_⟩
    have hnext := hlog.step hcoh hc
    rw [← ofTimer_append] at hnext
    simpa [timerLog, List.append_assoc] using hnext

end Simulation

section Log

variable {c : Situation σ ρ} {k : TimerKey} {log : List TimerEntry}

/-- Every firing is that of the start before it, which had not fired yet. -/
def FiresLastStart (log : List TimerEntry) : Prop :=
  ∀ before d after, log = before ++ d :: after → d.change = .fired →
    ∃ earlier d₀ delay id, before = earlier ++ [d₀] ∧ d₀.change = .started delay id ∧
      d.time = d₀.time + delay ∧ d.cause = some id

/-- A start is answered by its firing, once and when the delay has passed, unless the timer is
started again or cancelled before its deadline is reached: earlier, or at the same time in
answer to an event with a lower number. -/
def AnswersStarts (log : List TimerEntry) : Prop :=
  ∀ before d after delay id, log = before ++ d :: after → d.change = .started delay id →
    ∃ d' rest, after = d' :: rest ∧
      if d'.change = .fired then
        d'.time = d.time + delay ∧ d'.cause = some id ∧ ∀ d'' ∈ rest.head?, d''.change ≠ .fired
      else d'.Before (d.time + delay) id

theorem Situation.Logged.firesLastStart (h : c.Logged k log) : FiresLastStart log := by
  rintro before d after rfl hd
  rcases List.eq_nil_or_concat before with rfl | ⟨earlier, d₀, rfl⟩
  · exact absurd hd (h.first d rfl)
  · have hfollows := h.follows
    simp only [List.concat_eq_append, List.append_assoc, List.singleton_append] at hfollows
    obtain ⟨delay, id, hchange, htime, hcause⟩ :=
      (List.isChain_append_cons_cons.mp hfollows).2.1.fired hd
    exact ⟨earlier, d₀, delay, id, List.concat_eq_append, hchange, htime, hcause⟩

theorem Situation.Logged.answersStarts (h : c.Logged k log) (hq : c.queue.isEmpty) :
    AnswersStarts log := by
  rintro before d after delay id rfl hd
  cases after with
  | nil =>
    obtain ⟨e, hp, -⟩ := h.started d (by simp) delay id hd
    exact absurd (Queue.isEmpty_iff.mp hq) (List.ne_nil_of_mem hp.1)
  | cons d' rest =>
    refine ⟨d', rest, rfl, ?_⟩
    obtain ⟨-, hfollows, hrest⟩ := List.isChain_append_cons_cons.mp h.follows
    split
    · rename_i hf
      obtain ⟨delay', id', hd', htime, hcause⟩ := hfollows.fired hf
      obtain ⟨rfl, rfl⟩ := TimerChange.started.inj (hd.symm.trans hd')
      refine ⟨htime, hcause, fun d'' hd'' hf' => ?_⟩
      obtain ⟨_, _, hstarted, -⟩ := (hrest.rel_head? hd'').fired hf'
      rw [hf] at hstarted
      cases hstarted
    · rename_i hf
      exact hfollows.started delay id hd hf

end Log

end LossyLink
