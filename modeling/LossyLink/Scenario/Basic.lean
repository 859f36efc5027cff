import LossyLink.Channel.Config

/-! # Scenarios

A scenario describes a run: what to change about the channel, what to do while
it lasts, and what has to be true of its report.
-/

namespace LossyLink

namespace Scenario

inductive Action where
  /-- The application submits a text at a time. -/
  | submit (time : Nat) (data : String)
  /-- The next packet of the sender with this number is dropped. -/
  | dropSeq (seq : UInt32)
  /-- The next acknowledgement of the receiver with this number is dropped. -/
  | dropAck (ack : UInt32)
  deriving DecidableEq, Repr

inductive Assertion where
  /-- A text was delivered. -/
  | dataDelivered (data : String)
  /-- The sender sent at least `min` packets and, if `max` is given, at most that many. -/
  | senderPackets (min : Nat) (max : Option Nat)
  /-- The run completed within a time. -/
  | maxDuration (limit : Nat)
  deriving DecidableEq, Repr

end Scenario

structure Scenario where
  name : String
  description : String := ""
  config : Config.Override := {}
  actions : List Scenario.Action := []
  assertions : List Scenario.Assertion := []
  deriving DecidableEq, Repr

end LossyLink
