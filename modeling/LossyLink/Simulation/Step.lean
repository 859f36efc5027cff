import LossyLink.Simulation.State

/-! # Steps of a simulation

A step takes the first event from the queue, moves the clock to it, shows it to
the endpoint concerned and carries out the endpoint's actions. A stale expiry is
thrown away without moving the clock.
-/

namespace LossyLink

/-- Damage a packet on its way: every bit of its checksum is inverted. -/
def Packet.damaged (p : Packet) : Packet := p.withChecksum (~~~p.header.checksum)

/-- What a step did. -/
inductive Outcome where
  /-- There was no event. -/
  | drained
  | stale (e : Event)
  | handled (e : Event)
  deriving DecidableEq, Repr

/-- An event was taken from the queue. -/
def Outcome.took : Outcome → Bool
  | drained => false
  | stale _ => true
  | handled _ => true

namespace Simulation

variable {σ ρ : Type}

/-- Packets of the sender are counted, whatever becomes of them. -/
def countSent (s : Simulation σ ρ) : Node → Simulation σ ρ
  | .sender => { s with senderPackets := s.senderPackets + 1 }
  | .receiver => s

/-- What the channel does with a packet. A scripted drop costs it no random choice. -/
def carry (s : Simulation σ ρ) (origin : Node) (p : Packet) :
    Except ClockOverflow (Simulation σ ρ) :=
  let seq := p.header.seq
  let ack := p.header.ack
  match s.drops.take? origin p.header with
  | some (reason, drops) => .ok ({ s with drops }.link origin (.dropped reason seq ack))
  | none =>
    let (fate, generator) := s.config.drawFate s.generator
    let s := { s with generator }
    match fate with
    | .lost => .ok (s.link origin (.dropped .random seq ack))
    | .arrives true latency =>
      ((s.link origin (.corrupted seq ack)).link origin (.sent seq ack latency)).after latency
        (.arrival origin.peer p.damaged)
    | .arrives false latency =>
      (s.link origin (.sent seq ack latency)).after latency (.arrival origin.peer p)

/-- Hand a packet to the channel. -/
def transmit (s : Simulation σ ρ) (origin : Node) (p : Packet) :
    Except ClockOverflow (Simulation σ ρ) :=
  (s.countSent origin).carry origin p

def timer (s : Simulation σ ρ) (node : Node) : TimerOp → Except ClockOverflow (Simulation σ ρ)
  | .cancel id => .ok { s with generations := s.generations.bump (node, id) }
  | .start delay id =>
    let generations := s.generations.bump (node, id)
    { s with generations }.after delay (.expiry node id (generations.get (node, id)))

/-- Carry out the actions of an endpoint: first what is only recorded, then
deliveries, timers and transmissions, each kind in the order asked for. -/
def perform (s : Simulation σ ρ) (node : Node) (actions : List Action) :
    Except ClockOverflow (Simulation σ ρ) := do
  let s := (actions.filterMap Action.metric?).foldl (fun s m => s.sample m.1 m.2) s
  let s := (actions.filterMap Action.log?).foldl (fun s text => s.notify (.ofNode node text)) s
  let s := (actions.filterMap Action.delivered?).foldl (fun s data => s.deliver node data) s
  let s ← (actions.filterMap Action.timer?).foldlM (fun s op => s.timer node op) s
  (actions.filterMap Action.sent?).foldlM (fun s p => s.transmit node p) s

/-- Show an event to an endpoint and carry out its actions. -/
def handle (ends : Ends σ ρ) (s : Simulation σ ρ) (node : Node) (x : Stimulus) :
    Except ClockOverflow (Simulation σ ρ) :=
  match node with
  | .sender =>
    let (sender, actions) := ends.sender.react s.clock x s.sender
    { s with sender }.perform .sender actions
  | .receiver =>
    let (receiver, actions) := ends.receiver.react s.clock x s.receiver
    { s with receiver }.perform .receiver actions

/-- Start both endpoints, the sender first. -/
def init (ends : Ends σ ρ) (s : Simulation σ ρ) : Except ClockOverflow (Simulation σ ρ) := do
  let s ← s.handle ends .sender .init
  s.handle ends .receiver .init

/-- The expiry of a timer that was started again or cancelled since. -/
def isStale (s : Simulation σ ρ) (e : Event) : Bool :=
  match e.what with
  | .expiry node id generation => s.generations.get (node, id) != generation
  | .arrival .. => false
  | .submission _ => false

def step (ends : Ends σ ρ) (s : Simulation σ ρ) :
    Except ClockOverflow (Outcome × Simulation σ ρ) :=
  match s.queue.pop? with
  | none => .ok (.drained, s)
  | some (e, queue) =>
    let s := { s with queue }
    if s.isStale e then .ok (.stale e, s)
    else
      match { s with clock := e.time }.handle ends e.what.node e.what.stimulus with
      | .ok s => .ok (.handled e, s)
      | .error o => .error o

end Simulation

end LossyLink
