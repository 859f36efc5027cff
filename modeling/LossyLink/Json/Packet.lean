import LossyLink.Packet
import LossyLink.SeqBit
import LossyLink.Json.Decode

/-! # Packets in JSON -/

namespace LossyLink

open Json (Value)

def Header.toJson (h : Header) : Value :=
  .ofFields [("seq_num", .ofNat h.seq.toNat), ("ack_num", .ofNat h.ack.toNat),
    ("flags", .ofNat h.flags.toNat), ("window_size", .ofNat h.window.toNat),
    ("checksum", .ofNat h.checksum.toNat), ("urgent_ptr", .ofNat h.urgent.toNat)]

def Header.ofJson? (v : Value) : Option Header := do
  let fields ← v.record?
    ["seq_num", "ack_num", "flags", "window_size", "checksum", "urgent_ptr"]
  match ← fields.mapM id with
  | [seq, ack, flags, window, checksum, urgent] =>
    return {
      seq := .ofNat (← seq.natBelow? UInt32.size)
      ack := .ofNat (← ack.natBelow? UInt32.size)
      flags := .ofNat (← flags.natBelow? UInt8.size)
      window := .ofNat (← window.natBelow? UInt16.size)
      checksum := .ofNat (← checksum.natBelow? UInt16.size)
      urgent := .ofNat (← urgent.natBelow? UInt16.size) }
  | _ => none

def Packet.toJson (p : Packet) : Value :=
  .ofFields [("header", p.header.toJson),
    ("payload", .array (p.payload.map fun b => .ofNat b.toNat))]

def Packet.ofJson? (v : Value) : Option Packet := do
  match ← (← v.record? ["header", "payload"]).mapM id with
  | [header, payload] => return { header := ← Header.ofJson? header, payload := ← payload.bytes? }
  | _ => none

namespace SeqBit

def jsonName : SeqBit → String
  | zero => "Zero"
  | one => "One"

def toJson (b : SeqBit) : Value := .ofText b.jsonName

def ofJsonName? (name : String) : Option SeqBit :=
  if name = zero.jsonName then some zero else if name = one.jsonName then some one else none

/-- A bit is its name, or an object with the name as its only key and null under it. -/
def ofJson? : Value → Option SeqBit
  | .string ps => (Json.text? ps).bind ofJsonName?
  | .object [(key, .null)] => (Json.text? key).bind ofJsonName?
  | _ => none

end SeqBit

end LossyLink
