import LossyLink.Packet

/-! # Endpoints

A protocol runs at both ends of a link as a state machine. One event at a time
reaches it, and it answers with a new state and a list of actions. Actions take
effect after the answer, so an endpoint never sees their outcome in the same
call.
-/

namespace LossyLink

/-- What reaches an endpoint. -/
inductive Stimulus where
  /-- Forget everything and start over. -/
  | init
  | packet (p : Packet)
  | timer (id : UInt32)
  /-- The application wants `data` at the other end. -/
  | app (data : Payload)
  deriving DecidableEq, Repr

inductive TimerOp where
  | start (delay : Nat) (id : UInt32)
  | cancel (id : UInt32)
  deriving DecidableEq, Repr

/-- What an endpoint may ask for. -/
inductive Action where
  /-- Hand a packet to the channel, with no promise that it arrives. -/
  | send (p : Packet)
  | timer (op : TimerOp)
  /-- Pass data up to the application. -/
  | deliver (data : Payload)
  | log (text : String)
  /-- Record a sample of a named quantity. -/
  | metric (name : String) (value : Float)
  deriving DecidableEq, Repr

namespace Action

abbrev start (delay : Nat) (id : UInt32) : Action := timer (.start delay id)

abbrev cancel (id : UInt32) : Action := timer (.cancel id)

def sent? : Action → Option Packet
  | send p => some p
  | _ => none

def timer? : Action → Option TimerOp
  | timer op => some op
  | _ => none

def delivered? : Action → Option Payload
  | deliver data => some data
  | _ => none

def log? : Action → Option String
  | log text => some text
  | _ => none

def metric? : Action → Option (String × Float)
  | metric name value => some (name, value)
  | _ => none

end Action

/-- A state machine at one end of a link. The clock is shown to it with every event. -/
structure Endpoint (σ : Type) where
  start : σ
  react : (now : Nat) → Stimulus → σ → σ × List Action

namespace Endpoint

/-- Handle events one after another, each at its own time, and collect the answers. -/
def run {σ : Type} (e : Endpoint σ) : List (Nat × Stimulus) → σ → σ × List (List Action)
  | [], s => (s, [])
  | (now, x) :: xs, s =>
    let (s, actions) := e.react now x s
    let (s, rest) := e.run xs s
    (s, actions :: rest)

/-- Ignore every event. -/
def silent : Endpoint Unit := { start := (), react := fun _ _ _ => ((), []) }

end Endpoint

/-- An endpoint with its type of states packed away. -/
structure Agent : Type 1 where
  State : Type
  endpoint : Endpoint State

end LossyLink
