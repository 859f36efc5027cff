import LossyLink.Packet

/-! # The wire form of a packet

A header takes sixteen bytes, every field with its most significant byte first,
and one reserved byte that has to be zero. The payload is whatever follows.
-/

namespace LossyLink

/-- How many bytes are needed, and how many there are. -/
structure Shortage where
  needed : Nat
  got : Nat
  deriving DecidableEq, Repr

/-- Why bytes are not a header. -/
inductive WireError where
  | truncated (bytes : Shortage)
  | reserved (byte : UInt8)
  deriving DecidableEq, Repr

/-- The number of bytes of a header. -/
def Header.size : Nat := 16

namespace Wire

def bytes16 (w : UInt16) : List UInt8 := [(w >>> 8).toUInt8, w.toUInt8]

def bytes32 (w : UInt32) : List UInt8 :=
  [(w >>> 24).toUInt8, (w >>> 16).toUInt8, (w >>> 8).toUInt8, w.toUInt8]

def word16 (hi lo : UInt8) : UInt16 := hi.toUInt16 <<< 8 ||| lo.toUInt16

def word32 (a b c d : UInt8) : UInt32 :=
  a.toUInt32 <<< 24 ||| b.toUInt32 <<< 16 ||| c.toUInt32 <<< 8 ||| d.toUInt32

end Wire

open Wire

namespace WireError

/-- Two hexadecimal digits, in lower case. -/
def hexOctet (byte : UInt8) : String :=
  String.ofList [Nat.digitChar (byte.toNat / 16), Nat.digitChar (byte.toNat % 16)]

def message : WireError → String
  | truncated bytes =>
    s!"packet truncated: need at least {bytes.needed} bytes, got {bytes.got}"
  | reserved byte =>
    s!"reserved header byte must be zero, got 0x{hexOctet byte}"

end WireError

def Header.encode (h : Header) : List UInt8 :=
  bytes32 h.seq ++ bytes32 h.ack ++ [h.flags, 0] ++ bytes16 h.window ++ bytes16 h.checksum ++
    bytes16 h.urgent

/-- Read a header, and give back the bytes left over as well. Input that is too
short is left alone; a bad reserved byte is found after ten bytes. -/
def Header.read : List UInt8 → Except WireError Header × List UInt8
  | s₃ :: s₂ :: s₁ :: s₀ :: a₃ :: a₂ :: a₁ :: a₀ :: flags :: reserved ::
      w₁ :: w₀ :: c₁ :: c₀ :: u₁ :: u₀ :: rest =>
    if reserved = 0 then
      (.ok {
        seq := word32 s₃ s₂ s₁ s₀
        ack := word32 a₃ a₂ a₁ a₀
        flags
        window := word16 w₁ w₀
        checksum := word16 c₁ c₀
        urgent := word16 u₁ u₀ }, rest)
    else (.error (.reserved reserved), w₁ :: w₀ :: c₁ :: c₀ :: u₁ :: u₀ :: rest)
  | bytes => (.error (.truncated ⟨Header.size, bytes.length⟩), bytes)

namespace Packet

def toBytes (p : Packet) : List UInt8 := p.header.encode ++ p.payload

def ofBytes (bytes : List UInt8) : Except WireError Packet :=
  match Header.read bytes with
  | (.ok header, payload) => .ok { header, payload }
  | (.error e, _) => .error e

end Packet

@[simp] theorem Header.length_encode (h : Header) : h.encode.length = Header.size := rfl

end LossyLink
