import LossyLink.Proofs.Simulation.History
import Mathlib.Data.List.AList
import Mathlib.Data.List.MinMax
import Mathlib.Data.Prod.Lex

/-! # Simulations with alarms

The policy of timers said plainly. Every timer has one alarm at most: a start sets it in
place of an earlier one, a cancellation clears it, and it is cleared when it goes off.
There are no generations and nothing in the queue is ever stale, since only packets and
submissions wait there. What is due first, an alarm or an event, is what happens next.
-/

namespace LossyLink

variable {σ ρ : Type}

/-- An end is shown something at a time. -/
structure Call where
  time : Nat
  node : Node
  stimulus : Stimulus
  deriving DecidableEq, Repr

def Outcome.call? : Outcome → Option Call
  | drained => none
  | stale _ => none
  | handled e => some ⟨e.time, e.what.node, e.what.stimulus⟩

/-- What the ends were shown in a number of steps. -/
def calls (turns : List (Turn σ ρ)) : List Call := turns.filterMap fun t => t.outcome.call?

@[simp] theorem calls_cons (t : Turn σ ρ) (turns : List (Turn σ ρ)) :
    calls (t :: turns) = t.outcome.call?.toList ++ calls turns := by
  unfold calls
  rw [List.filterMap_cons]
  cases t.outcome.call? <;> rfl

@[simp] theorem calls_append (turns rest : List (Turn σ ρ)) :
    calls (turns ++ rest) = calls turns ++ calls rest := List.filterMap_append

structure Alarm where
  due : Nat
  /-- Among alarms and events of one time the lowest number is first. -/
  id : Nat
  deriving DecidableEq, Repr

/-- The alarm is due before the event. -/
def Alarm.Precedes (a : Alarm) (e : Event) : Prop :=
  a.due < e.time ∨ a.due = e.time ∧ a.id < e.id

instance (a : Alarm) (e : Event) : Decidable (a.Precedes e) := by
  unfold Alarm.Precedes; infer_instance

/-- The alarms that are set, one for a timer. -/
abbrev Alarms := AList fun _ : TimerKey => Alarm

/-- The alarm that is due first. -/
def Alarms.first? (alarms : Alarms) : Option (Sigma fun _ : TimerKey => Alarm) :=
  alarms.entries.argmin fun x => toLex (x.2.due, x.2.id)

/-- Leave out a number. -/
def Queue.skip (q : Queue) : Queue :=
  { q with
    nextId := q.nextId + 1
    id_lt := fun e he => Nat.lt_succ_of_lt (q.id_lt e he) }

@[simp] theorem Queue.toList_skip (q : Queue) : q.skip.toList = q.toList := rfl

@[simp] theorem Queue.nextId_skip (q : Queue) : q.skip.nextId = q.nextId + 1 := rfl

/-- A simulation that keeps its timers apart. -/
structure Reference (σ ρ : Type) where
  /-- All but the timers. -/
  base : Simulation σ ρ
  alarms : Alarms := ∅

namespace Reference

/-- Alarms and events are numbered together. -/
def timer (r : Reference σ ρ) (node : Node) : TimerOp → Except ClockOverflow (Reference σ ρ)
  | .cancel id => .ok { r with alarms := r.alarms.erase (node, id) }
  | .start delay id =>
    let due := r.base.clock + delay
    if due < clockLimit then
      .ok {
        base := { r.base with queue := r.base.queue.skip }
        alarms := r.alarms.insert (node, id) ⟨due, r.base.queue.nextId⟩ }
    else .error ⟨due, r.base.notices.toList⟩

def transmit (r : Reference σ ρ) (node : Node) (p : Packet) :
    Except ClockOverflow (Reference σ ρ) :=
  (r.base.transmit node p).map fun base => { r with base }

def perform (r : Reference σ ρ) (node : Node) (actions : List Action) :
    Except ClockOverflow (Reference σ ρ) := do
  let r := { r with base := r.base.record node actions }
  let r ← (actions.filterMap Action.timer?).foldlM (fun r op => r.timer node op) r
  (actions.filterMap Action.sent?).foldlM (fun r p => r.transmit node p) r

def handle (ends : Ends σ ρ) (r : Reference σ ρ) (node : Node) (x : Stimulus) :
    Except ClockOverflow (Reference σ ρ) :=
  match node with
  | .sender =>
    let (sender, actions) := ends.sender.react r.base.clock x r.base.sender
    { r with base := { r.base with sender } }.perform .sender actions
  | .receiver =>
    let (receiver, actions) := ends.receiver.react r.base.clock x r.base.receiver
    { r with base := { r.base with receiver } }.perform .receiver actions

def init (ends : Ends σ ρ) (r : Reference σ ρ) : Except ClockOverflow (Reference σ ρ) := do
  let r ← r.handle ends .sender .init
  r.handle ends .receiver .init

/-- An alarm goes off. -/
def ring (r : Reference σ ρ) (k : TimerKey) (a : Alarm) : Call × Reference σ ρ :=
  (⟨a.due, k.1, .timer k.2⟩, { r with alarms := r.alarms.erase k })

/-- An event is taken from the queue. -/
def take (r : Reference σ ρ) (e : Event) (queue : Queue) : Call × Reference σ ρ :=
  (⟨e.time, e.what.node, e.what.stimulus⟩, { r with base := { r.base with queue } })

/-- What is due first, and what remains. -/
def next? (r : Reference σ ρ) : Option (Call × Reference σ ρ) :=
  match r.alarms.first?, r.base.queue.pop? with
  | none, none => none
  | some ⟨k, a⟩, none => some (r.ring k a)
  | none, some (e, queue) => some (r.take e queue)
  | some ⟨k, a⟩, some (e, queue) =>
    if a.Precedes e then some (r.ring k a) else some (r.take e queue)

def step (ends : Ends σ ρ) (r : Reference σ ρ) :
    Except ClockOverflow (Option Call × Reference σ ρ) :=
  match r.next? with
  | none => .ok (none, r)
  | some (call, r) =>
    ({ r with base := { r.base with clock := call.time } }.handle ends call.node
      call.stimulus).map fun r => (some call, r)

/-- Take a number of steps and collect what the ends were shown. -/
def walk (ends : Ends σ ρ) : Nat → Reference σ ρ →
    Except ClockOverflow (List Call × Reference σ ρ)
  | 0, r => .ok ([], r)
  | n + 1, r =>
    match r.step ends with
    | .error o => .error o
    | .ok (call, r₁) =>
      match walk ends n r₁ with
      | .error o => .error o
      | .ok (calls, r₂) => .ok (call.toList ++ calls, r₂)

/-- Start both endpoints and take a number of steps. -/
def history (ends : Ends σ ρ) (n : Nat) (r : Reference σ ρ) :
    Except ClockOverflow (List Call × Reference σ ρ) :=
  match r.init ends with
  | .error o => .error o
  | .ok r => r.walk ends n

end Reference

theorem Alarms.first?_eq_some {alarms : Alarms} {k : TimerKey} {a : Alarm}
    (ha : alarms.lookup k = some a) (hlt : ∀ k' a', k' ≠ k → alarms.lookup k' = some a' →
      a.due < a'.due ∨ a.due = a'.due ∧ a.id < a'.id) : alarms.first? = some ⟨k, a⟩ := by
  have hmem : (⟨k, a⟩ : Sigma fun _ : TimerKey => Alarm) ∈ alarms.entries :=
    AList.mem_lookup_iff.mp ha
  cases hf : alarms.first? with
  | none =>
    rw [List.argmin_eq_none.mp hf] at hmem
    cases hmem
  | some x =>
    obtain ⟨k', a'⟩ := x
    have hx : alarms.lookup k' = some a' := AList.mem_lookup_iff.mpr (List.argmin_mem hf)
    by_cases hk : k' = k
    · subst hk
      rw [ha] at hx
      cases hx
      rfl
    · have hle := List.le_of_mem_argmin hmem hf
      rw [Prod.Lex.toLex_le_toLex] at hle
      have := hlt k' a' hk hx
      simp only at hle
      omega

namespace Reference

variable {ends : Ends σ ρ} {r r' : Reference σ ρ}

theorem walk_succ_eq_ok {n : Nat} {cs : List Call} (h : r.walk ends (n + 1) = .ok (cs, r')) :
    ∃ call r₁ rest, r.step ends = .ok (call, r₁) ∧ r₁.walk ends n = .ok (rest, r') ∧
      cs = call.toList ++ rest := by
  simp only [walk] at h
  split at h
  · cases h
  · rename_i call r₁ hr
    split at h
    · cases h
    · rename_i rest r₂ hw
      cases h
      exact ⟨call, r₁, rest, hr, hw, rfl⟩

theorem history_eq_ok {n : Nat} {cs : List Call} (h : r.history ends n = .ok (cs, r')) :
    ∃ r₁, r.init ends = .ok r₁ ∧ r₁.walk ends n = .ok (cs, r') := by
  unfold history at h
  split at h
  · cases h
  · rename_i r₁ hi
    exact ⟨r₁, hi, h⟩

theorem next?_eq_none (ha : ∀ k, r.alarms.lookup k = none) (hq : r.base.queue.toList = []) :
    r.next? = none := by
  have hp := Queue.pop?_eq_none_iff.mpr hq
  cases hf : r.alarms.first? with
  | none => simp only [next?, hf, hp]
  | some x =>
    have hx := AList.mem_lookup_iff.mpr (List.argmin_mem hf)
    rw [ha x.1] at hx
    cases hx

theorem next?_eq_ring {k : TimerKey} {a : Alarm} (ha : r.alarms.first? = some ⟨k, a⟩)
    (hq : ∀ e ∈ r.base.queue.toList, a.Precedes e) : r.next? = some (r.ring k a) := by
  cases hp : r.base.queue.pop? with
  | none => simp only [next?, ha, hp]
  | some x =>
    obtain ⟨e, queue⟩ := x
    have he := hq e (Queue.first_mem_of_pop?_eq_some hp)
    simp only [next?, ha, hp, he, if_true]

theorem next?_eq_take {e : Event} {queue : Queue} (hq : r.base.queue.pop? = some (e, queue))
    (ha : ∀ k a, r.alarms.lookup k = some a → ¬ a.Precedes e) :
    r.next? = some (r.take e queue) := by
  cases hf : r.alarms.first? with
  | none => simp only [next?, hf, hq]
  | some x =>
    obtain ⟨k, a⟩ := x
    have hx := ha k a (AList.mem_lookup_iff.mpr (List.argmin_mem hf))
    simp only [next?, hf, hq, hx, if_false]

end Reference

end LossyLink
