import LossyLink.Simulation.Step

/-! # Runs

A run starts both endpoints and takes steps until the queue is empty or a limit
is reached. It is complete if the queue is empty at its end, also when the last
step allowed emptied it.
-/

namespace LossyLink.Simulation

variable {σ ρ : Type}

/-- The number of events after which a run is given up. -/
def defaultLimit : Nat := 100000

/-- Take steps until the queue is empty, at most `limit` of them. -/
def steps (ends : Ends σ ρ) : Nat → Simulation σ ρ →
    Except ClockOverflow (Bool × Simulation σ ρ)
  | 0, s => .ok (s.queue.isEmpty, s)
  | limit + 1, s =>
    match s.step ends with
    | .error o => .error o
    | .ok (.drained, s) => .ok (true, s)
    | .ok (_, s) => steps ends limit s

/-- Record how a run ended; one that was given up leaves a warning. -/
def close (limit : Nat) (completed : Bool) (s : Simulation σ ρ) : Simulation σ ρ :=
  let s := { s with completed }
  if completed then s else s.notify (.stopped limit s.queue.size)

/-- Start both endpoints and run; true if the queue was emptied. -/
def run (ends : Ends σ ρ) (limit : Nat) (s : Simulation σ ρ) :
    Except ClockOverflow (Bool × Simulation σ ρ) :=
  match s.init ends with
  | .error o => .error o
  | .ok s =>
    match s.steps ends limit with
    | .error o => .error o
    | .ok (completed, s) => .ok (completed, s.close limit completed)

end LossyLink.Simulation
