import LossyLink.Simulation.Event

/-! # What a run leaves behind

Link events tell what the channel did with every packet and what was delivered.
Notices are the lines of the log, samples the values of metrics over time.
-/

namespace LossyLink

/-- Why a packet is dropped. -/
inductive DropReason | scriptedSeq | scriptedAck | random
  deriving DecidableEq, Repr

def DropReason.name : DropReason → String
  | scriptedSeq => "deterministic seq"
  | scriptedAck => "deterministic ack"
  | random => "random loss"

/-- What happens on the link, at the node that causes it. -/
inductive LinkChange where
  | delivered (size : Nat)
  | dropped (reason : DropReason) (seq ack : UInt32)
  | corrupted (seq ack : UInt32)
  | sent (seq ack : UInt32) (latency : Nat)
  deriving DecidableEq, Repr

structure LinkEvent where
  time : Nat
  node : Node
  change : LinkChange
  deriving DecidableEq, Repr

def LinkEvent.description (e : LinkEvent) : String :=
  let direction := s!"[{e.node.name}->{e.node.peer.name}]"
  match e.change with
  | .delivered size => s!"[{e.node.name}] DELIVERED {size} bytes to application"
  | .dropped reason seq ack => s!"{direction} DROP ({reason.name}) seq={seq} ack={ack}"
  | .corrupted seq ack => s!"{direction} CORRUPT seq={seq} ack={ack}"
  | .sent seq ack latency => s!"{direction} SEND seq={seq} ack={ack} (latency={latency}ms)"

inductive Level | info | warn
  deriving DecidableEq, Repr

structure Notice where
  level : Level
  text : String
  deriving DecidableEq, Repr

namespace Notice

def info (text : String) : Notice := ⟨.info, text⟩

/-- An endpoint's own message. -/
def ofNode (node : Node) (text : String) : Notice := info s!"[{node.name}] {text}"

def delivered (node : Node) (size : Nat) : Notice :=
  info s!"[{node.name}] DELIVERED DATA: {size} bytes"

def stopped (limit queued : Nat) : Notice :=
  ⟨.warn, s!"Stopping after {limit} events with {queued} still queued"⟩

end Notice

/-- The value of a metric at some time. -/
structure Sample where
  name : String
  time : Nat
  value : Float
  deriving DecidableEq, Repr

end LossyLink
