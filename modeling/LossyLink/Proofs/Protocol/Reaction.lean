import LossyLink.Protocol.Endpoint
import Mathlib.Data.List.Basic

/-! # Calls of an endpoint

Whatever surrounds an endpoint calls it with one event after another. Each call is kept with
the states around it, so that laws can speak of any call after any others.
-/

namespace LossyLink

variable {σ : Type}

/-- One call of an endpoint: what reached it, what it answered, and its states around. -/
structure Reaction (σ : Type) where
  before : σ
  stimulus : Stimulus
  actions : List Action
  after : σ

namespace Reaction

variable (r : Reaction σ)

def sent : List Packet := r.actions.filterMap Action.sent?

def timers : List TimerOp := r.actions.filterMap Action.timer?

def samples : List (String × Float) := r.actions.filterMap Action.metric?

/-- What is sent and timed, in the order asked for. -/
def effects : List Action := r.actions.filter fun a => a.sent?.isSome || a.timer?.isSome

theorem sent_eq_effects : r.sent = r.effects.filterMap Action.sent? := by
  rw [sent, effects, List.filterMap_filter]
  apply List.filterMap_congr
  intro a _
  cases a <;> rfl

theorem timers_eq_effects : r.timers = r.effects.filterMap Action.timer? := by
  rw [timers, effects, List.filterMap_filter]
  apply List.filterMap_congr
  intro a _
  cases a <;> rfl

end Reaction

/-- Packets reach an endpoint, each at its time. -/
def arriving (xs : List (Nat × Packet)) : List (Nat × Stimulus) :=
  xs.map fun x => (x.1, .packet x.2)

namespace Endpoint

def reaction (e : Endpoint σ) (now : Nat) (x : Stimulus) (s : σ) : Reaction σ :=
  ⟨s, x, (e.react now x s).2, (e.react now x s).1⟩

/-- Handle events one after another and keep every call. -/
def reactions (e : Endpoint σ) : List (Nat × Stimulus) → σ → List (Reaction σ)
  | [], _ => []
  | (now, x) :: xs, s => e.reaction now x s :: e.reactions xs (e.react now x s).1

variable (e : Endpoint σ)

theorem run_append (xs ys : List (Nat × Stimulus)) (s : σ) :
    e.run (xs ++ ys) s =
      ((e.run ys (e.run xs s).1).1, (e.run xs s).2 ++ (e.run ys (e.run xs s).1).2) := by
  induction xs generalizing s with
  | nil => rfl
  | cons x xs ih => simp [run, ih]

theorem length_run (xs : List (Nat × Stimulus)) (s : σ) : (e.run xs s).2.length = xs.length := by
  induction xs generalizing s with
  | nil => rfl
  | cons x xs ih => exact congrArg (· + 1) (ih _)

theorem reaction_eq {now : Nat} {x : Stimulus} {s s' : σ} {actions : List Action}
    (h : e.react now x s = (s', actions)) : e.reaction now x s = ⟨s, x, actions, s'⟩ := by
  rw [reaction, h]

theorem actions_reactions (xs : List (Nat × Stimulus)) (s : σ) :
    (e.reactions xs s).map Reaction.actions = (e.run xs s).2 := by
  induction xs generalizing s with
  | nil => rfl
  | cons x xs ih => exact congrArg (List.cons (e.react x.1 x.2 s).2) (ih _)

/-- What each call passes on to the next one holds before each call and at the end. -/
theorem holds_throughout {I : List (Reaction σ) → σ → Prop} {A : Stimulus → Prop}
    (hstep : ∀ {past s x} now, A x → I past s →
      I (past ++ [e.reaction now x s]) (e.react now x s).1)
    {past : List (Reaction σ)} {s : σ} (hs : I past s) {xs : List (Nat × Stimulus)}
    (hxs : ∀ x ∈ xs, A x.2) :
    I (past ++ e.reactions xs s) (e.run xs s).1 ∧
      ∀ earlier r later, e.reactions xs s = earlier ++ r :: later →
        I (past ++ earlier) r.before ∧ ∃ now x, A x ∧ r = e.reaction now x r.before := by
  induction xs generalizing past s with
  | nil =>
    constructor
    · simpa [reactions, run] using hs
    · intro earlier r later h
      simp [reactions] at h
  | cons x xs ih =>
    have hx : A x.2 := hxs x List.mem_cons_self
    obtain ⟨hend, hrest⟩ := ih (hstep x.1 hx hs) fun y hy => hxs y (List.mem_cons_of_mem x hy)
    rw [List.append_assoc] at hend
    constructor
    · exact hend
    · intro earlier r later h
      cases earlier with
      | nil =>
        obtain ⟨rfl, -⟩ := List.cons.inj h
        rw [List.append_nil]
        exact ⟨hs, x.1, x.2, hx, rfl⟩
      | cons first earlier =>
        obtain ⟨rfl, htail⟩ := List.cons.inj h
        have hr := hrest earlier r later htail
        rwa [List.append_assoc] at hr

end Endpoint

end LossyLink
