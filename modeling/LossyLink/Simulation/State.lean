import LossyLink.Channel.Fate
import LossyLink.Simulation.Journal
import LossyLink.Simulation.Queue
import LossyLink.Simulation.Timers

/-! # The state of a simulation

Two endpoint states, the clock, the queue of events and the channel, together
with everything recorded so far. The clock is a 64-bit number of milliseconds:
an event that would fall due after its end is an error.
-/

namespace LossyLink

/-- A time beyond the range of the clock, which ends a simulation. -/
structure ClockOverflow where
  time : Nat
  /-- What the simulation had logged. -/
  notices : List Notice
  deriving DecidableEq, Repr

def ClockOverflow.message : ClockOverflow → String
  | _ => "attempt to add with overflow"

/-- The same with an earlier log in front. -/
def ClockOverflow.preceded (earlier : List Notice) (o : ClockOverflow) : ClockOverflow :=
  { o with notices := earlier ++ o.notices }

/-- Times stay below this. -/
def clockLimit : Nat := UInt64.size

/-- Packets to be dropped, each rule once: by sequence number on the way to the
receiver, by acknowledgement number on the way back. -/
structure DropRules where
  seqs : List UInt32 := []
  acks : List UInt32 := []
  deriving DecidableEq, Repr

/-- Use up a rule for a packet. On the way back only acknowledgements match. -/
def DropRules.take? (r : DropRules) (origin : Node) (h : Header) :
    Option (DropReason × DropRules) :=
  match origin with
  | .sender =>
    if h.seq ∈ r.seqs then some (.scriptedSeq, { r with seqs := r.seqs.erase h.seq }) else none
  | .receiver =>
    if h.isAck ∧ h.ack ∈ r.acks then some (.scriptedAck, { r with acks := r.acks.erase h.ack })
    else none

/-- The endpoints of a link. -/
structure Ends (σ ρ : Type) where
  sender : Endpoint σ
  receiver : Endpoint ρ

structure Simulation (σ ρ : Type) where
  config : Config
  sender : σ
  receiver : ρ
  generator : Generator
  clock : Nat := 0
  queue : Queue := .empty
  generations : Generations := {}
  drops : DropRules := {}
  /-- Packets that the sender has handed to the channel; a counter of 32 bits shows this
  number as long as it is less than `2 ^ 32`. -/
  senderPackets : Nat := 0
  delivered : Array Payload := #[]
  links : Array LinkEvent := #[]
  samples : Array Sample := #[]
  notices : Array Notice := #[]
  /-- The last run ended with an empty queue. -/
  completed : Bool := false

/-- What can be asked of a simulation apart from running it. -/
inductive Preparation where
  | submit (time : Nat) (data : Payload)
  | dropSeq (seq : UInt32)
  | dropAck (ack : UInt32)
  deriving DecidableEq, Repr

namespace Simulation

variable {σ ρ : Type}

/-- A simulation at time zero. -/
def fresh (config : Config) (ends : Ends σ ρ) : Simulation σ ρ where
  config
  sender := ends.sender.start
  receiver := ends.receiver.start
  generator := Generator.ofSeed config.seed

/-- A simulation at time zero, if the parameters describe a channel. -/
def create (config : Config) (ends : Ends σ ρ) : Except ConfigError (Simulation σ ρ) :=
  config.validate.map fun _ => fresh config ends

/-- Put another endpoint state in the place of the sender's. -/
def replaceSender {σ' : Type} (s : Simulation σ ρ) (sender : σ') : Simulation σ' ρ :=
  { s with sender }

/-- Put another endpoint state in the place of the receiver's. -/
def replaceReceiver {ρ' : Type} (s : Simulation σ ρ) (receiver : ρ') : Simulation σ ρ' :=
  { s with receiver }

def enqueue (s : Simulation σ ρ) (time : Nat) (what : Happening) : Simulation σ ρ :=
  { s with queue := s.queue.schedule time what }

/-- Something will happen after a delay. -/
def after (s : Simulation σ ρ) (delay : Nat) (what : Happening) :
    Except ClockOverflow (Simulation σ ρ) :=
  if s.clock + delay < clockLimit then .ok (s.enqueue (s.clock + delay) what)
  else .error ⟨s.clock + delay, s.notices.toList⟩

/-- The application will submit data at the sender. -/
def submitAt (s : Simulation σ ρ) (time : Nat) (data : Payload) : Simulation σ ρ :=
  s.enqueue time (.submission data)

/-- Drop the next packet of the sender with this sequence number. -/
def dropSeq (s : Simulation σ ρ) (seq : UInt32) : Simulation σ ρ :=
  { s with drops := { s.drops with seqs := seq :: s.drops.seqs } }

/-- Drop the next acknowledgement of the receiver with this number. -/
def dropAck (s : Simulation σ ρ) (ack : UInt32) : Simulation σ ρ :=
  { s with drops := { s.drops with acks := ack :: s.drops.acks } }

def arrange (s : Simulation σ ρ) : Preparation → Simulation σ ρ
  | .submit time data => s.submitAt time data
  | .dropSeq seq => s.dropSeq seq
  | .dropAck ack => s.dropAck ack

def prepare (s : Simulation σ ρ) (plan : List Preparation) : Simulation σ ρ :=
  plan.foldl arrange s

def notify (s : Simulation σ ρ) (n : Notice) : Simulation σ ρ :=
  { s with notices := s.notices.push n }

/-- Record a change of the link at the present time. -/
def link (s : Simulation σ ρ) (node : Node) (change : LinkChange) : Simulation σ ρ :=
  { s with links := s.links.push ⟨s.clock, node, change⟩ }

def sample (s : Simulation σ ρ) (name : String) (value : Float) : Simulation σ ρ :=
  { s with samples := s.samples.push ⟨name, s.clock, value⟩ }

def deliver (s : Simulation σ ρ) (node : Node) (data : Payload) : Simulation σ ρ :=
  let s := (s.notify (.delivered node data.length)).link node (.delivered data.length)
  { s with delivered := s.delivered.push data }

/-- The values of a metric over time, if it was ever recorded. -/
def metric? (s : Simulation σ ρ) (name : String) : Option (List (Nat × Float)) :=
  match s.samples.toList.filter fun x => x.name == name with
  | [] => none
  | samples => some (samples.map fun x => (x.time, x.value))

end Simulation

end LossyLink
