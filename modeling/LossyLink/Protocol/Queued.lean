import LossyLink.Protocol.Endpoint
import LossyLink.SeqBit
import LossyLink.Checksum

/-! # Stop-and-wait with a queue

The sender keeps messages in a queue and has at most one packet in flight. The
receiver checks the Internet checksum of every packet and answers each one, a
damaged or unexpected one with the acknowledgement it gave last. Damaged
acknowledgements are dropped, and a timer makes up for what is missing.
-/

namespace LossyLink.Queued

/-- The only timer of the sender. -/
def timerId : UInt32 := 1

def timeout : Nat := 1000

structure Sender where
  nextSeq : SeqBit := .zero
  pending : List Payload := []
  inFlight : Option Packet := none
  deriving DecidableEq, Repr

namespace Sender

/-- The packet that carries a message under the sender's current bit. -/
def packetFor (s : Sender) (data : Payload) : Packet :=
  (Packet.simple s.nextSeq.toUInt32 0 0 data).sealed

/-- Send the first message waiting, unless a packet is in flight. -/
def trySend (s : Sender) : Sender × List Action :=
  match s.inFlight, s.pending with
  | none, data :: pending =>
    let p := s.packetFor data
    ({ s with pending, inFlight := some p },
      [.log s!"RDT2 send seq={p.header.seq} ({p.payload.length} bytes)", .send p,
        .start timeout timerId, .metric "queued" (Float.ofNat pending.length)])
  | _, _ => (s, [])

def onAck (s : Sender) (ack : UInt32) : Sender × List Action :=
  if s.inFlight.isSome && s.nextSeq.carriedBy ack then
    let (s, actions) := trySend { s with inFlight := none, nextSeq := s.nextSeq.flip }
    (s, .log s!"RDT2 received ACK for seq {ack}" :: .cancel timerId :: actions)
  else (s, [])

def react (s : Sender) : Stimulus → Sender × List Action
  | .init => ({}, [.log "RDT2 sender ready"])
  | .packet p =>
    if !p.isIntact then (s, [.log "RDT2 sender dropping corrupted ACK"])
    else if p.header.isAck then s.onAck p.header.ack
    else (s, [])
  | .timer id =>
    match s.inFlight with
    | some p =>
      if id = timerId then
        (s, [.log s!"RDT2 timeout, retransmitting seq {p.header.seq}", .send p,
          .start timeout timerId])
      else (s, [])
    | none => (s, [])
  | .app data => trySend { s with pending := s.pending ++ [data] }

end Sender

structure Receiver where
  expected : SeqBit := .zero
  lastAcked : SeqBit := .one
  deriving DecidableEq, Repr

/-- Four hexadecimal digits, in upper case. -/
def hexWord (w : UInt16) : String :=
  String.ofList <| [12, 8, 4, 0].map fun shift =>
    (Nat.digitChar (w.toNat >>> shift % 16)).toUpper

namespace Receiver

def ackFor (bit : SeqBit) : Packet :=
  (Packet.acknowledgement bit.toUInt32 bit.toUInt32 0).sealed

/-- Acknowledge a bit and remember it. -/
def sendAck (r : Receiver) (bit : SeqBit) : Receiver × List Action :=
  ({ r with lastAcked := bit },
    [.log s!"RDT2 send ACK for seq {bit.toUInt32}", .send (ackFor bit)])

def onPacket (r : Receiver) (p : Packet) : Receiver × List Action :=
  if !p.isIntact then
    let (r, actions) := r.sendAck r.lastAcked
    (r, .log (s!"RDT2 checksum mismatch for seq {p.header.seq} (expected " ++
      s!"{hexWord p.internetChecksum}, got {hexWord p.header.checksum})") :: actions)
  else if r.expected.carriedBy p.header.seq then
    let (next, actions) := r.sendAck r.expected
    ({ next with expected := r.expected.flip },
      .log s!"RDT2 received seq {p.header.seq} ({p.payload.length} bytes)" ::
        .deliver p.payload :: actions)
  else
    let (next, actions) := r.sendAck r.lastAcked
    (next, .log (s!"RDT2 unexpected seq {p.header.seq} (expect {r.expected.toUInt32}), " ++
      s!"re-ACK {r.lastAcked.toUInt32}") :: actions)

def react (r : Receiver) : Stimulus → Receiver × List Action
  | .init => ({}, [.log "RDT2 receiver ready"])
  | .packet p => r.onPacket p
  | .timer _ => (r, [])
  | .app _ => (r, [])

end Receiver

def sender : Endpoint Sender := { start := {}, react := fun _ x s => s.react x }

def receiver : Endpoint Receiver := { start := {}, react := fun _ x r => r.react x }

end LossyLink.Queued
