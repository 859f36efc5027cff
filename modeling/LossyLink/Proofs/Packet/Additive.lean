import LossyLink.Proofs.Packet.Damage
import Mathlib.Data.Nat.ModEq

/-! # The sum of the bytes

The additive code is the residue modulo 2¹⁶ of the sequence number plus all bytes, however many
there are: a carry that the accumulator loses is a multiple of 2¹⁶. So it shows a change of one
byte, and it is blind to the order of the bytes and to the high half of the sequence number.
-/

namespace LossyLink

namespace Checksum

/-- The sum of the bytes, however large. -/
def byteTotal (data : List UInt8) : Nat := (data.map UInt8.toNat).sum

section Total

variable {d e : List UInt8}

@[simp] theorem byteTotal_nil : byteTotal [] = 0 := rfl

@[simp] theorem byteTotal_cons (byte : UInt8) (data : List UInt8) :
    byteTotal (byte :: data) = byte.toNat + byteTotal data := List.sum_cons

theorem byteTotal_append (d e : List UInt8) : byteTotal (d ++ e) = byteTotal d + byteTotal e := by
  unfold byteTotal
  rw [List.map_append, List.sum_append]

theorem byteTotal_eq_of_perm (h : d.Perm e) : byteTotal d = byteTotal e :=
  (h.map UInt8.toNat).sum_nat

theorem byteTotal_set {i : Nat} (h : i < d.length) (byte : UInt8) :
    byteTotal (d.set i byte) + d[i].toNat = byteTotal d + byte.toNat := by
  induction d generalizing i with
  | nil => exact absurd h (Nat.not_lt_zero i)
  | cons first d ih =>
    cases i with
    | zero =>
      simp only [List.set_cons_zero, List.getElem_cons_zero, byteTotal_cons]
      omega
    | succ i =>
      have hrest := ih (Nat.lt_of_succ_lt_succ h)
      simp only [List.set_cons_succ, List.getElem_cons_succ, byteTotal_cons]
      omega

end Total

/-- The accumulator of 32 bits wraps. -/
theorem toNat_accumulated (seq : UInt32) (data : List UInt8) :
    (data.foldl (fun sum byte => sum + byte.toUInt32) seq).toNat =
      (seq.toNat + byteTotal data) % 2 ^ 32 := by
  induction data generalizing seq with
  | nil =>
    have hseq := seq.toNat_lt
    rw [List.foldl_nil, byteTotal_nil]
    omega
  | cons byte data ih =>
    rw [List.foldl_cons, ih, UInt32.toNat_add, UInt8.toNat_toUInt32, byteTotal_cons]
    omega

theorem toNat_additive (seq : UInt32) (data : List UInt8) :
    (additive seq data).toNat = (seq.toNat + byteTotal data) % 65536 := by
  rw [additive, UInt32.toNat_toUInt16, toNat_accumulated]
  omega

/-- The accumulator goes past its end. -/
example : additive 0xFFFFFFFF [0xFF, 1, 2] = 257 := by decide

/-- Nothing but the residue shows in the code. -/
theorem additive_eq_iff {seq seq' : UInt32} {d e : List UInt8} :
    additive seq d = additive seq' e ↔
      seq.toNat + byteTotal d ≡ seq'.toNat + byteTotal e [MOD 65536] := by
  rw [← UInt16.toNat_inj, toNat_additive, toNat_additive]
  rfl

theorem additive_append (seq : UInt32) (d e : List UInt8) :
    additive seq (d ++ e) = additive (additive seq d).toUInt32 e := by
  rw [additive_eq_iff, byteTotal_append, UInt16.toNat_toUInt32, toNat_additive, ← Nat.add_assoc]
  exact (Nat.mod_modEq _ _).symm.add_right _

theorem additive_eq_of_perm {d e : List UInt8} (h : d.Perm e) (seq : UInt32) :
    additive seq d = additive seq e := by
  rw [additive_eq_iff, byteTotal_eq_of_perm h]

theorem additive_add_multiple (seq : UInt32) (k : Nat) (data : List UInt8) :
    additive (seq + UInt32.ofNat (65536 * k)) data = additive seq data := by
  rw [additive_eq_iff, UInt32.toNat_add, UInt32.toNat_ofNat']
  apply Nat.ModEq.add_right
  unfold Nat.ModEq
  omega

theorem additive_set_ne {data : List UInt8} {i : Nat} (h : i < data.length) {byte : UInt8}
    (hne : byte ≠ data[i]) (seq : UInt32) : additive seq (data.set i byte) ≠ additive seq data := by
  have htotal := byteTotal_set h byte
  have hbyte := byte.toNat_lt
  have hold := data[i].toNat_lt
  have hne : byte.toNat ≠ data[i].toNat := fun heq => hne (UInt8.toNat_inj.mp heq)
  rw [ne_eq, additive_eq_iff]
  intro hsame
  have hmoved : byte.toNat ≡ data[i].toNat [MOD 65536] := by
    apply Nat.ModEq.add_left_cancel' (seq.toNat + byteTotal data)
    rw [Nat.add_assoc, ← htotal, ← Nat.add_assoc]
    exact hsame.add_right _
  apply hne
  exact hmoved.eq_of_lt_of_lt (by omega) (by omega)

end Checksum

namespace Packet

variable {p : Packet}

theorem isCorrupted_set (h : p.isCorrupted = false) {i : Nat} (hi : i < p.payload.length)
    {byte : UInt8} (hne : byte ≠ p.payload[i]) :
    { p with payload := p.payload.set i byte }.isCorrupted = true := by
  simp only [isCorrupted, bne_eq_false_iff_eq, bne_iff_ne, ne_eq] at h ⊢
  rw [← h]
  exact Checksum.additive_set_ne hi hne p.header.seq

end Packet

open Checksum in
/-- The additive code is the residue of the sequence number plus all bytes. It can be taken part by
part, and neither the order of the bytes nor a multiple of 2¹⁶ in the sequence number shows in it.
A packet that carries its code and has one byte of its payload changed, or its checksum inverted,
does not carry its code any more. -/
theorem additive_sees_residue :
    (∀ seq data, (additive seq data).toNat = (seq.toNat + byteTotal data) % 65536) ∧
    (∀ seq d e, additive seq (d ++ e) = additive (additive seq d).toUInt32 e) ∧
    (∀ seq d e, d.Perm e → additive seq d = additive seq e) ∧
    (∀ seq k data, additive (seq + UInt32.ofNat (65536 * k)) data = additive seq data) ∧
    ∀ p : Packet, p.isCorrupted = false →
      (∀ (i : Nat) (hi : i < p.payload.length) (byte : UInt8), byte ≠ p.payload[i] →
        { p with payload := p.payload.set i byte }.isCorrupted = true) ∧
      p.damaged.isCorrupted = true := by
  refine ⟨toNat_additive, additive_append, ?_, additive_add_multiple, ?_⟩
  · exact fun seq d e h => additive_eq_of_perm h seq
  · intro p hp
    constructor
    · exact fun i hi byte hne => Packet.isCorrupted_set hp hi hne
    · exact Packet.isCorrupted_damaged hp

/-- The sequence number is the last one, so that the first byte takes the sum past its end. -/
theorem additive_sees_residue_past_the_end :
    let p : Packet := { header := { seq := 0xFFFFFFFF, checksum := 257 }, payload := [0xFF, 1, 2] }
    p.isCorrupted = false ∧ p.payload.Perm [2, 0xFF, 1] ∧
      Checksum.additive 0xFFFFFFFF p.payload = Checksum.additive 0xFFFFFFFF [2, 0xFF, 1] ∧
      { p with payload := [0xFF, 9, 2] }.isCorrupted = true ∧ p.damaged.isCorrupted = true := by
  intro p
  have hp : p.isCorrupted = false := by decide
  have hperm : p.payload.Perm [2, 0xFF, 1] := by decide
  obtain ⟨-, -, hblind, -, hdetects⟩ := additive_sees_residue
  obtain ⟨hset, hdamaged⟩ := hdetects p hp
  exact ⟨hp, hperm, hblind _ _ _ hperm, hset 1 (by decide) 9 (by decide), hdamaged⟩

end LossyLink
