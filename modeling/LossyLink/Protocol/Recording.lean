import LossyLink.Protocol.Endpoint

/-! # Recordings

The actions of an endpoint, kept in the order in which it asked for them, with
one view for each kind of action.
-/

namespace LossyLink

structure Recording where
  now : Nat := 0
  actions : List Action := []
  deriving DecidableEq, Repr

namespace Recording

def record (r : Recording) (a : Action) : Recording := { r with actions := r.actions ++ [a] }

def sent (r : Recording) : List Packet := r.actions.filterMap Action.sent?

def timers (r : Recording) : List TimerOp := r.actions.filterMap Action.timer?

def delivered (r : Recording) : List Payload := r.actions.filterMap Action.delivered?

def logs (r : Recording) : List String := r.actions.filterMap Action.log?

def metrics (r : Recording) : List (String × Float) := r.actions.filterMap Action.metric?

/-- The timers started, in order. -/
def started (r : Recording) : List UInt32 := r.timers.filterMap fun
  | .start _ id => some id
  | .cancel _ => none

/-- The timers cancelled, in order. -/
def cancelled (r : Recording) : List UInt32 := r.timers.filterMap fun
  | .start _ _ => none
  | .cancel id => some id

/-- Forget the actions and keep the clock. -/
def clear (r : Recording) : Recording := { r with actions := [] }

/-- Nothing was sent, timed or delivered; logs and samples do not count. -/
def isQuiet (r : Recording) : Bool := r.sent.isEmpty && r.timers.isEmpty && r.delivered.isEmpty

/-- Leave out the samples, as a driver does that keeps none. -/
def withoutMetrics (r : Recording) : Recording :=
  { r with actions := r.actions.filter fun a => a.metric?.isNone }

@[simp] theorem actions_record (r : Recording) (a : Action) :
    (r.record a).actions = r.actions ++ [a] := rfl

@[simp] theorem actions_clear (r : Recording) : r.clear.actions = [] := rfl

@[simp] theorem now_clear (r : Recording) : r.clear.now = r.now := rfl

@[simp] theorem metrics_withoutMetrics (r : Recording) : r.withoutMetrics.metrics = [] := by
  simp only [metrics, withoutMetrics, List.filterMap_eq_nil_iff, List.mem_filter]
  rintro a ⟨-, h⟩
  simpa using h

end Recording

end LossyLink
