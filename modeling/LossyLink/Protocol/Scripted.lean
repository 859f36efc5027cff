import LossyLink.Protocol.Endpoint

/-! # Scripted endpoints

An endpoint without a state that answers every kind of event by a fixed list of
directives: a peer that does whatever one writes down.
-/

namespace LossyLink

inductive Directive where
  | act (a : Action)
  /-- Send back the data of the event in a bare packet. -/
  | echo
  /-- Deliver the data of the event. -/
  | deliverInput
  /-- Log the clock. -/
  | logNow
  /-- Log the event. -/
  | logEvent
  deriving DecidableEq, Repr

/-- The payload of a packet or the data of the application; other events carry none. -/
def Stimulus.data? : Stimulus → Option Payload
  | packet p => some p.payload
  | app data => some data
  | init => none
  | timer _ => none

def Stimulus.describe : Stimulus → String
  | init => "init"
  | timer id => s!"timer id={id}"
  | app data => s!"app len={data.length}"
  | packet p =>
    let h := p.header
    s!"packet seq={h.seq} ack={h.ack} flags={h.flags} window={h.window} " ++
      s!"checksum={h.checksum} urgent={h.urgent} len={p.payload.length}"

def Directive.action? (now : Nat) (x : Stimulus) : Directive → Option Action
  | act a => some a
  | echo => x.data?.map fun data => .send { payload := data }
  | deliverInput => x.data?.map .deliver
  | logNow => some (.log s!"now={now}")
  | logEvent => some (.log x.describe)

structure Script where
  init : List Directive := []
  packet : List Directive := []
  /-- Directives by the decimal name of the timer; the name `*` stands for all others. -/
  timer : List (String × List Directive) := []
  app : List Directive := []

namespace Script

def directives (s : Script) : Stimulus → List Directive
  | .init => s.init
  | .packet _ => s.packet
  | .timer id => ((s.timer.lookup (toString id)).orElse fun _ => s.timer.lookup "*").getD []
  | .app _ => s.app

def endpoint (s : Script) : Endpoint Unit where
  start := ()
  react now x _ := ((), (s.directives x).filterMap (Directive.action? now x))

end Script

end LossyLink
