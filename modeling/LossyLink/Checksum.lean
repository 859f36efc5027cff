import LossyLink.Packet.Wire

/-! # Checksums

Two integrity codes. The Internet checksum adds 16-bit words in an accumulator
of 32 bits, so a carry out of bit 31 is lost, and then adds the high half into
the low until the high half is empty. The additive code is the sequence number
plus every byte, modulo 2¹⁶.
-/

namespace LossyLink

namespace Checksum

/-- Add big-endian words to the accumulator, modulo 2³²; a last odd byte counts
as the high half of a word. -/
def sumWords : UInt32 → List UInt8 → UInt32
  | sum, hi :: lo :: rest => sumWords (sum + (Wire.word16 hi lo).toUInt32) rest
  | sum, [hi] => sum + (Wire.word16 hi 0).toUInt32
  | sum, [] => sum

/-- Add the high half into the low half. -/
def foldHalves (sum : UInt32) : UInt32 := (sum &&& (0xFFFF : UInt32)) + (sum >>> 16)

theorem toNat_foldHalves (s : UInt32) :
    (foldHalves s).toNat = s.toNat % 65536 + s.toNat / 65536 := by
  have h₁ : (s &&& 0xFFFF).toNat = s.toNat % 65536 := by
    rw [UInt32.toNat_and]; exact Nat.and_two_pow_sub_one_eq_mod s.toNat 16
  have h₂ : (s >>> 16).toNat = s.toNat / 65536 := by
    rw [UInt32.toNat_shiftRight]; exact Nat.shiftRight_eq_div_pow s.toNat 16
  have hs := s.toNat_lt
  rw [foldHalves, UInt32.toNat_add, h₁, h₂]
  omega

theorem shiftRight_sixteen_eq_zero_iff (s : UInt32) : s >>> 16 = 0 ↔ s.toNat < 65536 := by
  rw [← UInt32.toNat_inj, UInt32.toNat_shiftRight]
  change s.toNat >>> 16 = 0 ↔ _
  rw [Nat.shiftRight_eq_div_pow]
  omega

/-- Folding makes a sum smaller while its high half is not empty. -/
theorem toNat_foldHalves_lt {s : UInt32} (h : ¬ s >>> 16 = 0) :
    (foldHalves s).toNat < s.toNat := by
  rw [shiftRight_sixteen_eq_zero_iff] at h
  rw [toNat_foldHalves]
  omega

/-- Fold until the high half is empty. -/
def foldCarries (sum : UInt32) : UInt32 :=
  if sum >>> 16 = 0 then sum else foldCarries (foldHalves sum)
termination_by sum.toNat
decreasing_by exact toNat_foldHalves_lt ‹_›

/-- The ones' complement of the ones' complement sum of the words of `data`. -/
def internet (data : List UInt8) : UInt16 := ~~~(foldCarries (sumWords 0 data)).toUInt16

/-- The sequence number plus every byte, modulo 2¹⁶. -/
def additive (seq : UInt32) (data : List UInt8) : UInt16 :=
  (data.foldl (fun sum byte => sum + byte.toUInt32) seq).toUInt16

end Checksum

namespace Packet

/-- The additive code over sequence number and payload is not the one carried. -/
def isCorrupted (p : Packet) : Bool :=
  Checksum.additive p.header.seq p.payload != p.header.checksum

/-- The Internet checksum of the wire form with its checksum field zeroed. -/
def internetChecksum (p : Packet) : UInt16 := Checksum.internet (p.withChecksum 0).toBytes

/-- Carry the packet's own Internet checksum. -/
def sealed (p : Packet) : Packet := p.withChecksum p.internetChecksum

/-- The packet carries its own Internet checksum. -/
def isIntact (p : Packet) : Bool := p.internetChecksum == p.header.checksum

@[simp] theorem internetChecksum_withChecksum (p : Packet) (c : UInt16) :
    (p.withChecksum c).internetChecksum = p.internetChecksum := rfl

@[simp] theorem isIntact_sealed (p : Packet) : p.sealed.isIntact = true := by
  simp [isIntact, sealed]

end Packet

end LossyLink
