import LossyLink.Protocol.Endpoint
import LossyLink.SeqBit
import LossyLink.Checksum

/-! # The alternating-bit protocol

The sender has no queue: a message that comes while a packet is outstanding is
turned away. Packets carry the additive checksum, which the sender verifies on
acknowledgements and the receiver does not verify at all; a bad or outdated
acknowledgement makes the sender retransmit at once.
-/

namespace LossyLink.AlternatingBit

def timeout : Nat := 3000

structure Sender where
  nextSeq : SeqBit := .zero
  /-- The packet awaiting its acknowledgement. -/
  outstanding : Option Packet := none
  retransmissions : Nat := 0
  deriving DecidableEq, Repr

namespace Sender

def isWaiting (s : Sender) : Bool := s.outstanding.isSome

/-- The timer of the outstanding packet is named by its bit. -/
def timerId (s : Sender) : UInt32 := s.nextSeq.toUInt32

/-- The packet that carries a message under the sender's current bit. -/
def packetFor (s : Sender) (data : Payload) : Packet :=
  let seq := s.nextSeq.toUInt32
  { header := { seq, checksum := Checksum.additive seq data }, payload := data }

/-- Send a packet again, restart its timer and count the retransmission. -/
def retransmit (s : Sender) (p : Packet) : Sender × List Action :=
  let count := s.retransmissions + 1
  ({ s with retransmissions := count },
    [.send p, .start timeout s.timerId, .metric "retransmissions" (Float.ofNat count)])

def acknowledges (s : Sender) (p : Packet) : Bool :=
  p.header.isAck && s.nextSeq.carriedBy p.header.ack

def onPacket (s : Sender) (outstanding p : Packet) : Sender × List Action :=
  if p.isCorrupted || (p.header.isAck && !s.acknowledges p) then
    let (next, actions) := s.retransmit outstanding
    (next, .log s!"Corrupted or Duplicate ACK. Retransmitting {s.timerId}" ::
      .cancel s.timerId :: actions)
  else if s.acknowledges p then
    ({ s with outstanding := none, nextSeq := s.nextSeq.flip },
      [.log s!"Received ACK {s.timerId}", .cancel s.timerId])
  else (s, [])

def react (s : Sender) : Stimulus → Sender × List Action
  | .init => ({}, [])
  | .packet p =>
    match s.outstanding with
    | some outstanding => s.onPacket outstanding p
    | none => (s, [])
  | .timer id =>
    match s.outstanding with
    | some outstanding =>
      if id = s.timerId then
        let (next, actions) := s.retransmit outstanding
        (next, .log s!"Timeout! Retransmitting seq {id}" :: actions)
      else (s, [])
    | none => (s, [])
  | .app data =>
    if s.isWaiting then (s, [.log "RDT3 Sender Busy: Dropping application data"])
    else
      let p := s.packetFor data
      ({ s with outstanding := some p }, [.send p, .start timeout s.timerId])

end Sender

structure Receiver where
  expected : SeqBit := .zero
  deriving DecidableEq, Repr

namespace Receiver

def ackFor (bit : SeqBit) : Packet :=
  { header := { ack := bit.toUInt32, flags := Flags.ack, checksum := Checksum.additive 0 [] } }

/-- Whatever arrives is answered with the bit delivered last. -/
def onPacket (r : Receiver) (p : Packet) : Receiver × List Action :=
  let seq := p.header.seq
  match SeqBit.ofRaw seq with
  | .ok bit =>
    if bit = r.expected then
      ({ expected := bit.flip },
        [.log s!"Received correct packet {seq}", .deliver p.payload, .send (ackFor bit)])
    else
      (r, [.log s!"Duplicate/Out-of-order packet {seq}, expected {r.expected.toUInt32}",
        .send (ackFor r.expected.flip)])
  | .error e =>
    (r, [.log s!"Ignoring packet: {e.message}", .send (ackFor r.expected.flip)])

def react (r : Receiver) : Stimulus → Receiver × List Action
  | .init => ({}, [])
  | .packet p => r.onPacket p
  | .timer _ => (r, [])
  | .app _ => (r, [])

end Receiver

def sender : Endpoint Sender := { start := {}, react := fun _ x s => s.react x }

def receiver : Endpoint Receiver := { start := {}, react := fun _ x r => r.react x }

end LossyLink.AlternatingBit
