import LossyLink.Proofs.Simulation.Channel
import LossyLink.Proofs.Simulation.Operation
import LossyLink.Proofs.Simulation.Reference
import LossyLink.Protocol.Scripted

/-! # The clock

The ends are shown the clock with every event, and it may be read between operations. Of itself
a simulation never goes back in time: timers and packets fall due no earlier than they are asked
for, and what is due first is taken first. Only the application can ask for something at a time
that has passed, and then the clock goes back to it.
-/

namespace LossyLink

variable {σ ρ : Type}

/-- The clock is shown to an end in a call, or it is read. -/
inductive Sight where
  | call (c : Call)
  | reading (time : Nat)
  deriving DecidableEq, Repr

def Sight.time : Sight → Nat
  | call c => c.time
  | reading time => time

namespace Simulation

/-- Start both ends and keep what they are shown. -/
def watchInit (ends : Ends σ ρ) (s : Simulation σ ρ) :
    Except ClockOverflow (List Call × Simulation σ ρ) := do
  let t ← s.handle ends .sender .init
  let u ← t.handle ends .receiver .init
  return ([⟨s.clock, .sender, .init⟩, ⟨t.clock, .receiver, .init⟩], u)

/-- Carry out an operation and keep what the ends are shown. -/
def watch (ends : Ends σ ρ) (s : Simulation σ ρ) :
    Operation → Except ClockOverflow (List Call × Simulation σ ρ)
  | .arrange p => .ok ([], s.arrange p)
  | .init => s.watchInit ends
  | .step => (s.step ends).map fun x => (x.1.call?.toList, x.2)
  | .run limit => do
    let (started, t) ← s.watchInit ends
    let (turns, u) ← t.walk ends limit
    return (started ++ calls turns, u.close limit u.queue.isEmpty)

/-- Carry out operations one after another, and read the clock after each of them. -/
def watchAll (ends : Ends σ ρ) : List Operation → Simulation σ ρ →
    Except ClockOverflow (List Sight × Simulation σ ρ)
  | [], s => .ok ([], s)
  | op :: ops, s => do
    let (calls, t) ← s.watch ends op
    let (sights, u) ← watchAll ends ops t
    return (calls.map .call ++ .reading t.clock :: sights, u)

variable {ends : Ends σ ρ} {s s' : Simulation σ ρ}

theorem map_watchInit (ends : Ends σ ρ) (s : Simulation σ ρ) :
    (s.watchInit ends).map Prod.snd = s.init ends := by
  unfold watchInit init
  cases s.handle ends .sender .init with
  | error o => rfl
  | ok t =>
    simp only [bind, Except.bind]
    cases t.handle ends .receiver .init <;> rfl

theorem map_watch (ends : Ends σ ρ) (s : Simulation σ ρ) (op : Operation) :
    (s.watch ends op).map Prod.snd = s.operate ends op := by
  cases op with
  | arrange p => rfl
  | init => exact map_watchInit ends s
  | step =>
    simp only [watch, operate]
    cases s.step ends <;> rfl
  | run limit =>
    simp only [watch, operate, run_eq_history, history, ← map_watchInit]
    cases s.watchInit ends with
    | error o => rfl
    | ok x =>
      obtain ⟨started, t⟩ := x
      simp only [bind, Except.bind, Except.map]
      cases t.walk ends limit <;> rfl

theorem map_watchAll (ends : Ends σ ρ) (s : Simulation σ ρ) (ops : List Operation) :
    (s.watchAll ends ops).map Prod.snd = s.operateAll ends ops := by
  unfold operateAll
  induction ops generalizing s with
  | nil => rfl
  | cons op ops ih =>
    rw [List.foldlM_cons, ← map_watch]
    simp only [watchAll]
    cases s.watch ends op with
    | error o => rfl
    | ok x =>
      obtain ⟨calls, t⟩ := x
      simp only [bind, Except.bind, Except.map, ← ih]
      cases t.watchAll ends ops <;> rfl

end Simulation

/-- The sender is shown a submission that is among the late ones. -/
def Sight.IsLate (late : Nat → Payload → Prop) (x : Sight) : Prop :=
  ∃ data, x = .call ⟨x.time, .sender, .app data⟩ ∧ late x.time data

/-- From one time to another the clock is seen like this, and it goes back to late submissions
only. -/
inductive Elapses (late : Nat → Payload → Prop) : Nat → List Sight → Nat → Prop where
  | nil (now : Nat) : Elapses late now [] now
  | cons {now now' : Nat} {x : Sight} {xs : List Sight} (h : x.time < now → x.IsLate late)
      (hs : Elapses late x.time xs now') : Elapses late now (x :: xs) now'

namespace Elapses

variable {late : Nat → Payload → Prop} {now now' now'' : Nat} {xs ys : List Sight}

theorem append (h : Elapses late now xs now') (hs : Elapses late now' ys now'') :
    Elapses late now (xs ++ ys) now'' := by
  induction h with
  | nil => exact hs
  | cons hx _ ih => exact .cons hx (ih hs)

theorem still {x : Sight} (hx : x.time = now) (h : Elapses late now xs now') :
    Elapses late now (x :: xs) now' := by
  subst hx
  exact .cons (fun hlt => absurd hlt (Nat.lt_irrefl _)) h

theorem isChain (h : Elapses late now xs now') :
    xs.IsChain fun a b => b.time < a.time → b.IsLate late := by
  induction h with
  | nil => exact .nil
  | @cons _ _ a xs _ hs ih =>
    cases hs with
    | nil => exact .singleton a
    | cons hb _ => exact .cons_cons hb ih

/-- Without late submissions the clock never goes back. -/
theorem pairwise (h : Elapses late now xs now') (hnone : ∀ time data, ¬ late time data) :
    (xs.map Sight.time).Pairwise (· ≤ ·) ∧ ∀ x ∈ xs, now ≤ x.time := by
  have hforward : ∀ {x : Sight} {t : Nat}, (x.time < t → x.IsLate late) → t ≤ x.time := by
    intro x t hx
    apply Nat.le_of_not_lt
    rintro hlt
    obtain ⟨data, -, hlate⟩ := hx hlt
    exact hnone _ _ hlate
  induction h with
  | nil => exact ⟨.nil, nofun⟩
  | @cons now _ a xs ha _ ih =>
    obtain ⟨hsorted, hle⟩ := ih
    constructor
    · refine List.pairwise_cons.mpr ⟨?_, hsorted⟩
      rintro t ht
      obtain ⟨x, hx, rfl⟩ := List.mem_map.mp ht
      exact hle x hx
    · rintro x (_ | ⟨_, hx⟩)
      · exact hforward ha
      · exact Nat.le_trans (hforward ha) (hle x hx)

end Elapses

/-- Nothing that waits is overdue but late submissions. -/
def Punctual (late : Nat → Payload → Prop) (s : Simulation σ ρ) : Prop :=
  ∀ e ∈ s.queue.toList, e.time < s.clock → ∃ data, e.what = .submission data ∧ late e.time data

namespace Punctual

open Simulation

variable {late : Nat → Payload → Prop} {ends : Ends σ ρ} {s s' : Simulation σ ρ} {node : Node}
  {now : Nat} {e : Event} {queue : Queue}

theorem enqueue (h : Punctual late s) {time : Nat} {what : Happening}
    (ht : time < s.clock → ∃ data, what = .submission data ∧ late time data) :
    Punctual late (s.enqueue time what) := by
  rintro e he hlt
  rcases Queue.mem_schedule.mp he with rfl | he
  · exact ht hlt
  · exact h e he hlt

theorem reach (hq : s.queue.pop? = some (e, queue)) :
    Punctual late { s with queue, clock := e.time } :=
  fun x hx hlt => absurd hlt (Nat.not_lt.mpr (Queue.time_le_of_pop?_eq_some hq x hx))

theorem take (h : Punctual late s) (hq : s.queue.pop? = some (e, queue)) :
    Punctual late { s with queue } :=
  fun x hx => h x (Queue.mem_of_mem_rest hq hx)

theorem invariant (late : Nat → Payload → Prop) (now : Nat) :
    Invariant fun s : Simulation σ ρ => Punctual late s ∧ s.clock = now := by
  have hafter : ∀ {s s' : Simulation σ ρ} {delay : Nat} {what : Happening},
      Punctual late s ∧ s.clock = now → s.after delay what = .ok s' →
        Punctual late s' ∧ s'.clock = now := by
    rintro s s' delay what ⟨h, hnow⟩ hs
    rw [after_eq_ok hs]
    refine ⟨h.enqueue fun hlt => ?_, hnow⟩
    exact absurd hlt (Nat.not_lt.mpr (Nat.le_add_right _ _))
  constructor
  · exact fun _ _ h => h
  · exact fun _ h => h
  · exact fun _ _ h => h
  · exact fun _ _ h hs => timer_keeps (fun _ h => h) hafter h hs
  · rintro s s' node p ⟨h, hnow⟩ hs
    rw [transmit_eq] at hs
    unfold Simulation.pass at hs
    simp only [links_eq] at hs
    have hdecided : Punctual late (s.decided node (s.decision node p)) ∧
        (s.decided node (s.decision node p)).clock = now := by
      cases node <;> exact ⟨h, hnow⟩
    split at hs
    · cases hs
      exact hdecided
    · apply hafter _ hs
      exact hdecided

theorem handle {x : Stimulus} (h : Punctual late s) (hs : s.handle ends node x = .ok s') :
    Punctual late s' ∧ s'.clock = s.clock :=
  (invariant late s.clock).handle (fun _ _ h => h) ⟨h, rfl⟩ hs

theorem step {o : Outcome} (h : Punctual late s) (hs : s.step ends = .ok (o, s')) :
    Elapses late s.clock (o.call?.toList.map .call) s'.clock ∧ Punctual late s' := by
  rcases step_eq_ok hs with ⟨-, rfl, rfl⟩ | ⟨e, queue, hq, -, rfl, rfl⟩ |
    ⟨e, queue, hq, -, rfl, hh⟩
  · exact ⟨.nil _, h⟩
  · exact ⟨.nil _, h.take hq⟩
  · obtain ⟨h', hclock⟩ := handle (reach hq) hh
    refine ⟨?_, h'⟩
    rw [hclock]
    refine .cons (fun hlt => ?_) (.nil _)
    obtain ⟨data, hwhat, hlate⟩ := h e (Queue.first_mem_of_pop?_eq_some hq) hlt
    exact ⟨data, by simp only [Sight.time, hwhat]; rfl, hlate⟩

theorem walk {n : Nat} {turns : List (Turn σ ρ)} (h : Punctual late s)
    (hs : s.walk ends n = .ok (turns, s')) :
    Elapses late s.clock ((calls turns).map .call) s'.clock ∧ Punctual late s' := by
  refine walk_induction (P := fun past t =>
    Elapses late s.clock ((calls past).map .call) t.clock ∧ Punctual late t) ?_ [] ⟨.nil _, h⟩ hs
  rintro past t o t' ⟨hpast, ht⟩ hstep
  obtain ⟨hnext, ht'⟩ := ht.step hstep
  refine ⟨?_, ht'⟩
  rw [calls_append, List.map_append]
  apply hpast.append
  rw [calls_cons, show calls ([] : List (Turn σ ρ)) = [] from rfl, List.append_nil]
  exact hnext

theorem watchInit {cs : List Call} (h : Punctual late s)
    (hs : s.watchInit ends = .ok (cs, s')) :
    Elapses late s.clock (cs.map .call) s'.clock ∧ Punctual late s' := by
  obtain ⟨t, ht, hs⟩ := exists_of_bind_eq_ok hs
  obtain ⟨u, hu, hs⟩ := exists_of_bind_eq_ok hs
  cases hs
  obtain ⟨ht', hclock⟩ := h.handle ht
  obtain ⟨hu', hclock'⟩ := ht'.handle hu
  refine ⟨?_, hu'⟩
  rw [hclock', hclock]
  exact .still rfl (.still rfl (.nil _))

/-- An operation keeps time, if the submissions that it asks for too late count as late. -/
theorem watch {op : Operation} {cs : List Call} (h : Punctual late s)
    (hop : ∀ time data, op = .arrange (.submit time data) → time < s.clock → late time data)
    (hs : s.watch ends op = .ok (cs, s')) :
    Elapses late s.clock (cs.map .call) s'.clock ∧ Punctual late s' := by
  cases op with
  | arrange p =>
    cases hs
    cases p with
    | submit time data =>
      exact ⟨.nil _, h.enqueue fun hlt => ⟨data, rfl, hop time data rfl hlt⟩⟩
    | dropSeq seq => exact ⟨.nil _, h⟩
    | dropAck ack => exact ⟨.nil _, h⟩
  | init => exact h.watchInit hs
  | step =>
    obtain ⟨⟨o, t⟩, ht, hs⟩ := exists_of_map_eq_ok hs
    cases hs
    exact h.step ht
  | run limit =>
    obtain ⟨⟨started, t⟩, ht, hs⟩ := exists_of_bind_eq_ok hs
    obtain ⟨⟨turns, u⟩, hu, hs⟩ := exists_of_bind_eq_ok hs
    cases hs
    obtain ⟨hstarted, ht'⟩ := h.watchInit ht
    obtain ⟨hturns, hu'⟩ := ht'.walk hu
    rw [List.map_append]
    have hclose : (u.close limit u.queue.isEmpty).clock = u.clock ∧
        (u.close limit u.queue.isEmpty).queue = u.queue := by
      cases u.queue.isEmpty <;> exact ⟨rfl, rfl⟩
    rw [hclose.1]
    refine ⟨hstarted.append hturns, ?_⟩
    unfold Punctual
    rw [hclose.1, hclose.2]
    exact hu'

end Punctual

namespace Simulation

variable {ends : Ends σ ρ} {s s' : Simulation σ ρ}

/-- Among the operations a submission is asked for when the clock is past its time. -/
def AskedLate (ends : Ends σ ρ) (s : Simulation σ ρ) (ops : List Operation) (time : Nat)
    (data : Payload) : Prop :=
  ∃ past rest t, ops = past ++ .arrange (.submit time data) :: rest ∧
    s.operateAll ends past = .ok t ∧ time < t.clock

theorem AskedLate.cons {op : Operation} {ops : List Operation} {t : Simulation σ ρ} {time : Nat}
    {data : Payload} (h : t.AskedLate ends ops time data) (ht : s.operate ends op = .ok t) :
    s.AskedLate ends (op :: ops) time data := by
  obtain ⟨past, rest, u, rfl, hu, hlt⟩ := h
  refine ⟨op :: past, rest, u, rfl, ?_, hlt⟩
  unfold operateAll
  rw [List.foldlM_cons, ht]
  exact hu

theorem elapses_of_watchAll {late : Nat → Payload → Prop} {ops : List Operation}
    {sights : List Sight} (h : Punctual late s)
    (hops : ∀ time data, s.AskedLate ends ops time data → late time data)
    (hs : s.watchAll ends ops = .ok (sights, s')) : Elapses late s.clock sights s'.clock := by
  induction ops generalizing s sights with
  | nil =>
    cases hs
    exact .nil _
  | cons op ops ih =>
    obtain ⟨⟨cs, t⟩, ht, hs⟩ := exists_of_bind_eq_ok hs
    obtain ⟨⟨rest, u⟩, hu, hs⟩ := exists_of_bind_eq_ok hs
    cases hs
    have hop : s.operate ends op = .ok t := by
      rw [← map_watch, ht]
      rfl
    obtain ⟨hcalls, ht'⟩ := h.watch (fun time data hsubmit hlt =>
      hops time data ⟨[], ops, s, congrArg (· :: ops) hsubmit, rfl, hlt⟩) ht
    exact hcalls.append
      (.still rfl (ih ht' (fun time data hlate => hops time data (hlate.cons hop)) hu))

/-- Whatever the ends are and whatever is asked of a simulation, in any order: from each time
that is seen of the clock to the next it goes back only if the next is that of a submission
which was asked for too late. Without such submissions it never goes back. -/
theorem clock_goes_back_to_late_submissions_only {config : Config}
    (hs : create config ends = .ok s) {ops : List Operation} {sights : List Sight}
    (h : s.watchAll ends ops = .ok (sights, s')) :
    s.operateAll ends ops = .ok s' ∧
    (sights.IsChain fun a b => b.time < a.time → ∃ data,
      b = .call ⟨b.time, .sender, .app data⟩ ∧ s.AskedLate ends ops b.time data) ∧
    ((∀ time data, ¬ s.AskedLate ends ops time data) →
      (sights.map Sight.time).Pairwise (· ≤ ·)) := by
  obtain ⟨-, rfl⟩ := create_eq_ok_iff.mp hs
  have hstart : Punctual ((fresh config ends).AskedLate ends ops) (fresh config ends) := nofun
  have helapses := elapses_of_watchAll hstart (fun _ _ h => h) h
  refine ⟨?_, helapses.isChain, fun hnone => (helapses.pairwise hnone).1⟩
  rw [← map_watchAll, h]
  rfl

/-- A sender that logs the clock and sets a timer for every message. -/
def timekeeper : Ends Unit Unit where
  sender := Script.endpoint { app := [.logNow, .act (.start 50 0)], timer := [("*", [.logNow])] }
  receiver := Script.endpoint {}

/-- A message for a time that has passed when it is submitted. -/
def belated : List Operation :=
  [.arrange (.submit 100 [0x41]), .init, .step, .arrange (.submit 5 [0x42]), .step, .step, .step]

theorem create_default (ends : Ends σ ρ) : create {} ends = .ok (fresh {} ends) := by
  have hp : isProbability 0.0 = true := by decide +kernel
  exact create_eq_ok_iff.mpr ⟨⟨hp, hp, by decide⟩, rfl⟩

theorem exists_watchAll_belated : ∃ sights s',
    (fresh {} timekeeper).watchAll timekeeper belated = .ok (sights, s') ∧
      sights =
        [.reading 0, .call ⟨0, .sender, .init⟩, .call ⟨0, .receiver, .init⟩, .reading 0,
          .call ⟨100, .sender, .app [0x41]⟩, .reading 100, .reading 100,
          .call ⟨5, .sender, .app [0x42]⟩, .reading 5, .call ⟨55, .sender, .timer 0⟩,
          .reading 55, .reading 55] := by
  have hrun : ((fresh {} timekeeper).watchAll timekeeper belated).map Prod.fst = .ok
      [.reading 0, .call ⟨0, .sender, .init⟩, .call ⟨0, .receiver, .init⟩, .reading 0,
        .call ⟨100, .sender, .app [0x41]⟩, .reading 100, .reading 100,
        .call ⟨5, .sender, .app [0x42]⟩, .reading 5, .call ⟨55, .sender, .timer 0⟩,
        .reading 55, .reading 55] := by
    decide +kernel
  obtain ⟨⟨sights, s'⟩, hrun, hsights⟩ := exists_of_map_eq_ok hrun
  exact ⟨sights, s', hrun, hsights⟩

/-- After the belated message the clock never goes back: the timer set for the message before
it has been set anew, and its first expiry does not move the clock. -/
theorem clock_goes_back_to_belated_message : ∃ sights s',
    (fresh {} timekeeper).watchAll timekeeper belated = .ok (sights, s') ∧
      sights.map Sight.time = [0, 0, 0, 0, 100, 100, 100, 5, 5, 55, 55, 55] ∧
      sights.IsChain (fun a b => b.time < a.time → ∃ data,
        b = .call ⟨b.time, .sender, .app data⟩ ∧
          (fresh {} timekeeper).AskedLate timekeeper belated b.time data) := by
  obtain ⟨sights, s', hrun, hsights⟩ := exists_watchAll_belated
  obtain ⟨-, hchain, -⟩ :=
    clock_goes_back_to_late_submissions_only (create_default timekeeper) hrun
  refine ⟨sights, s', hrun, ?_, hchain⟩
  rw [hsights]
  rfl

/-- It is not true that the clock never goes back. -/
theorem clock_goes_back :
    ¬ ∀ (config : Config) (s s' : Simulation Unit Unit) (ops : List Operation)
      (sights : List Sight), create config timekeeper = .ok s →
      s.watchAll timekeeper ops = .ok (sights, s') →
      (sights.map Sight.time).Pairwise (· ≤ ·) := by
  intro h
  obtain ⟨sights, s', hrun, hsights⟩ := exists_watchAll_belated
  have hsorted := h {} _ s' belated sights (create_default timekeeper) hrun
  rw [hsights] at hsorted
  revert hsorted
  decide

end Simulation

end LossyLink
