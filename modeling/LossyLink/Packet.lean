/-! # Packets

A packet is a header of fixed-width words and a payload of bytes. Nothing is
checked when one is built: it may carry any checksum, and the receiving side
decides what to make of it.
-/

namespace LossyLink

/-- What the application hands over and gets back. -/
abbrev Payload := List UInt8

namespace Flags

def fin : UInt8 := 0x01

def syn : UInt8 := 0x02

def rst : UInt8 := 0x04

def ack : UInt8 := 0x10

end Flags

structure Header where
  seq : UInt32 := 0
  ack : UInt32 := 0
  flags : UInt8 := 0
  window : UInt16 := 0
  checksum : UInt16 := 0
  urgent : UInt16 := 0
  deriving DecidableEq, Repr, Inhabited

namespace Header

/-- Some bit of `mask` is set. -/
def has (h : Header) (mask : UInt8) : Bool := h.flags &&& mask != 0

def isFin (h : Header) : Bool := h.has Flags.fin

def isSyn (h : Header) : Bool := h.has Flags.syn

def isRst (h : Header) : Bool := h.has Flags.rst

def isAck (h : Header) : Bool := h.has Flags.ack

end Header

structure Packet where
  header : Header := {}
  payload : Payload := []
  deriving DecidableEq, Repr, Inhabited

namespace Packet

/-- A packet with every other field zero. -/
def simple (seq ack : UInt32) (flags : UInt8) (payload : Payload) : Packet :=
  { header := { seq, ack, flags }, payload }

/-- A pure acknowledgement: the flag is set and the payload is empty. -/
def acknowledgement (seq ack : UInt32) (window : UInt16) : Packet :=
  { header := { seq, ack, flags := Flags.ack, window } }

def withChecksum (p : Packet) (checksum : UInt16) : Packet :=
  { p with header := { p.header with checksum } }

@[simp] theorem payload_withChecksum (p : Packet) (c : UInt16) :
    (p.withChecksum c).payload = p.payload := rfl

@[simp] theorem checksum_withChecksum (p : Packet) (c : UInt16) :
    (p.withChecksum c).header.checksum = c := rfl

@[simp] theorem withChecksum_withChecksum (p : Packet) (c d : UInt16) :
    (p.withChecksum c).withChecksum d = p.withChecksum d := rfl

@[simp] theorem withChecksum_self (p : Packet) : p.withChecksum p.header.checksum = p := rfl

@[simp] theorem isAck_acknowledgement (s a : UInt32) (w : UInt16) :
    (acknowledgement s a w).header.isAck = true := by
  show (Flags.ack &&& Flags.ack != 0) = true
  decide

end Packet

end LossyLink
