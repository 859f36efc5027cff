import LossyLink.Proofs.Packet.OnesComplement

/-! # One byte changed

A byte counts once or 256 times in the sum of the words, so a change of it moves the sum by less
than 65535. That shows in what is left of the sum, also if the sum loses or gains a carry by it:
the one case in which the residue stays the same is the step from 2³² - 1 to zero, and these
leave 65535 and zero. A change of the checksum itself or of the reserved byte shows as it is.
-/

namespace LossyLink

namespace Checksum

/-- How often the byte at a place counts in the sum of the words. -/
def weight (i : Nat) : Nat := if i % 2 = 0 then 256 else 1

theorem weight_eq (i : Nat) : weight i = 256 ∨ weight i = 1 := ite_eq_or_eq _ _ _

theorem wordTotal_set {data : List UInt8} {i : Nat} (h : i < data.length) (byte : UInt8) :
    wordTotal (data.set i byte) + weight i * data[i].toNat =
      wordTotal data + weight i * byte.toNat := by
  fun_induction wordTotal data generalizing i with
  | case1 hi lo rest ih =>
    rcases i with _ | _ | i
    · simp +arith [wordTotal, weight]
    · simp +arith [wordTotal, weight]
    · have hrest := ih (i := i) (by simpa using h)
      have hweight : weight (i + 1 + 1) = weight i := by
        unfold weight
        rw [show (i + 1 + 1) % 2 = i % 2 by omega]
      simp only [List.set_cons_succ, wordTotal, List.getElem_cons_succ, hweight]
      omega
  | case2 hi =>
    obtain rfl : i = 0 := by simpa using h
    simp +arith [wordTotal, weight]
  | case3 => exact absurd h (Nat.not_lt_zero i)

/-- A sum that moves by less than 65535 leaves something else, whether it wraps or not. -/
theorem endAround_ne {m n : Nat} (hlt : m < n) (hle : n < m + 65535) :
    endAround (m % 2 ^ 32) ≠ endAround (n % 2 ^ 32) := by
  obtain ⟨d, rfl⟩ := Nat.exists_eq_add_of_lt hlt
  have hx := Nat.mod_lt m (Nat.two_pow_pos 32)
  have hmod : (m + d + 1) % 2 ^ 32 = (m % 2 ^ 32 + d + 1) % 2 ^ 32 := by omega
  rw [hmod]
  generalize m % 2 ^ 32 = x at hx
  by_cases hwrap : x + d + 1 < 2 ^ 32
  · rw [Nat.mod_eq_of_lt hwrap]
    unfold endAround
    split <;> split <;> omega
  · -- The carry lost is worth one more in the residue: only a step of one keeps it, to zero.
    have hlow : (x + d + 1) % 2 ^ 32 = x + d + 1 - 2 ^ 32 := by omega
    rw [hlow]
    unfold endAround
    split <;> split <;> omega

theorem internet_set_ne {data : List UInt8} {i : Nat} (h : i < data.length) {byte : UInt8}
    (hne : byte ≠ data[i]) : internet (data.set i byte) ≠ internet data := by
  have htotal := wordTotal_set h byte
  have hbyte := byte.toNat_lt
  have hold := data[i].toNat_lt
  have hne : byte.toNat ≠ data[i].toNat := fun heq => hne (UInt8.toNat_inj.mp heq)
  have hleft : endAround (wordTotal (data.set i byte) % 2 ^ 32) ≠
      endAround (wordTotal data % 2 ^ 32) := by
    have hmoved : wordTotal (data.set i byte) ≠ wordTotal data ∧
        wordTotal data < wordTotal (data.set i byte) + 65535 ∧
        wordTotal (data.set i byte) < wordTotal data + 65535 := by
      obtain hweight | hweight := weight_eq i
      all_goals
        rw [hweight] at htotal
        omega
    rcases Nat.lt_or_gt_of_ne hmoved.1 with hlt | hgt
    · exact endAround_ne hlt hmoved.2.1
    · exact (endAround_ne hgt hmoved.2.2).symm
  intro heq
  have hsame := congrArg UInt16.toNat heq
  rw [toNat_internet, toNat_internet] at hsame
  have hle := endAround_le (wordTotal (data.set i byte) % 2 ^ 32)
  have hle' := endAround_le (wordTotal data % 2 ^ 32)
  omega

end Checksum

theorem exists_eq_set {α : Type} {xs ys : List α} (hlen : ys.length = xs.length)
    (h : ∃! i : Nat, ys[i]? ≠ xs[i]?) : ∃ (i : Nat) (a : α) (hi : i < xs.length),
      a ≠ xs[i] ∧ ys = xs.set i a := by
  obtain ⟨i, hne, hunique⟩ := h
  have hi : i < xs.length := by
    apply Nat.lt_of_not_ge
    intro hge
    apply hne
    rw [List.getElem?_eq_none hge, List.getElem?_eq_none (hlen ▸ hge)]
  have hi' : i < ys.length := hlen ▸ hi
  refine ⟨i, ys[i], hi, ?_, ?_⟩
  · intro heq
    apply hne
    rw [List.getElem?_eq_getElem hi, List.getElem?_eq_getElem hi', heq]
  · apply List.ext_getElem?
    intro j
    by_cases hj : i = j
    · subst hj
      rw [List.getElem?_set_self hi, List.getElem?_eq_getElem hi']
    · rw [List.getElem?_set_ne hj]
      exact not_not.mp fun hne' => hj (hunique j hne').symm

namespace Packet

variable {p q : Packet} {bytes : List UInt8}

theorem toBytes_withChecksum_zero (p : Packet) :
    (p.withChecksum 0).toBytes = (p.toBytes.set 12 0).set 13 0 := by
  have hzero : Wire.bytes16 0 = [0, 0] := by decide
  simp only [toBytes, Header.encode, withChecksum, hzero]
  rfl

theorem internetChecksum_eq (p : Packet) :
    p.internetChecksum = Checksum.internet ((p.toBytes.set 12 0).set 13 0) :=
  congrArg Checksum.internet p.toBytes_withChecksum_zero

/-- The bytes of the checksum, and only these, do not count in the checksum. -/
theorem internetChecksum_eq_of_set {i : Nat} (hi : i = 12 ∨ i = 13) {byte : UInt8}
    (hset : q.toBytes = p.toBytes.set i byte) : q.internetChecksum = p.internetChecksum := by
  rw [internetChecksum_eq, internetChecksum_eq, hset]
  rcases hi with rfl | rfl
  · rw [List.set_set]
  · rw [List.set_comm _ _ (by decide), List.set_set, List.set_comm _ _ (by decide)]

theorem internetChecksum_ne_of_set {i : Nat} (h12 : i ≠ 12) (h13 : i ≠ 13)
    (hi : i < p.toBytes.length) {byte : UInt8} (hne : byte ≠ p.toBytes[i])
    (hset : q.toBytes = p.toBytes.set i byte) : q.internetChecksum ≠ p.internetChecksum := by
  rw [internetChecksum_eq, internetChecksum_eq, hset, List.set_comm _ _ h12,
    List.set_comm _ _ h13]
  apply Checksum.internet_set_ne (by simpa using hi)
  rwa [List.getElem_set_ne h13.symm, List.getElem_set_ne h12.symm]

theorem checksum_eq_iff : q.header.checksum = p.header.checksum ↔
    q.toBytes[12]? = p.toBytes[12]? ∧ q.toBytes[13]? = p.toBytes[13]? := by
  show _ ↔ some (q.header.checksum >>> 8).toUInt8 = some (p.header.checksum >>> 8).toUInt8 ∧
    some q.header.checksum.toUInt8 = some p.header.checksum.toUInt8
  constructor
  · intro h
    rw [h]
    exact ⟨rfl, rfl⟩
  · rintro ⟨hhigh, hlow⟩
    rw [← Wire.word16_bytes16 q.header.checksum, Option.some.inj hhigh, Option.some.inj hlow,
      Wire.word16_bytes16]

theorem isIntact_iff : p.isIntact = true ↔ p.internetChecksum = p.header.checksum := beq_iff_eq

theorem isIntact_eq_false_of_set (hp : p.isIntact = true) {i : Nat} (hi : i < p.toBytes.length)
    {byte : UInt8} (hne : byte ≠ p.toBytes[i]) (hset : q.toBytes = p.toBytes.set i byte) :
    q.isIntact = false := by
  rw [isIntact_iff] at hp
  rw [Bool.eq_false_iff, ne_eq, isIntact_iff]
  intro hq
  have hchanged : q.toBytes[i]? ≠ p.toBytes[i]? := by
    rw [hset, List.getElem?_set_self hi, List.getElem?_eq_getElem hi]
    exact fun heq => hne (Option.some.inj heq)
  by_cases hfield : i = 12 ∨ i = 13
  · have hsame : q.header.checksum = p.header.checksum := by
      rw [← hq, ← hp, internetChecksum_eq_of_set hfield hset]
    rw [checksum_eq_iff] at hsame
    rcases hfield with rfl | rfl
    · exact hchanged hsame.1
    · exact hchanged hsame.2
  · obtain ⟨h12, h13⟩ := not_or.mp hfield
    apply internetChecksum_ne_of_set h12 h13 hi hne hset
    rw [hq, hp, checksum_eq_iff, hset, List.getElem?_set_ne h12, List.getElem?_set_ne h13]
    exact ⟨rfl, rfl⟩

/-- A packet that carries its checksum and loses one byte to another is refused for its reserved
byte, or read as a packet that does not carry its checksum. -/
theorem detects_changed_byte (hp : p.isIntact = true) (hlen : bytes.length = p.toBytes.length)
    (hone : ∃! i : Nat, bytes[i]? ≠ p.toBytes[i]?) :
    (∃ byte, ofBytes bytes = .error (.reserved byte)) ∨
      ∃ q, ofBytes bytes = .ok q ∧ q.isIntact = false := by
  obtain ⟨i, byte, hi, hne, hset⟩ := exists_eq_set hlen hone
  have hsize : 16 ≤ bytes.length := by
    rw [hlen, toBytes, List.length_append, Header.length_encode]
    exact Nat.le_add_right 16 _
  by_cases hreserved : bytes[9]? = some 0
  · right
    obtain ⟨q, hq⟩ := exists_ofBytes_eq_ok_iff.mpr ⟨hsize, hreserved⟩
    have hbytes := ofBytes_eq_ok_iff.mp hq
    exact ⟨q, hq, isIntact_eq_false_of_set hp hi hne (hbytes.trans hset)⟩
  · left
    have h9 : 9 < bytes.length := by omega
    have hget := List.getElem?_eq_getElem h9
    rw [hget] at hreserved
    exact ⟨bytes[9], ofBytes_eq_reserved_iff.mpr
      ⟨hsize, hget, fun hzero => hreserved (congrArg some hzero)⟩⟩

/-- The change that no residue shows: the sum goes from 2³² - 1 to 2³². -/
theorem detects_changed_byte_at_wrap :
    let p := sealed { payload := List.replicate (2 * 65537) 0xFF }
    let bytes := p.toBytes.set 7 1
    Checksum.wordTotal ((p.toBytes.set 12 0).set 13 0) = 2 ^ 32 - 1 ∧ p.isIntact = true ∧
      bytes.length = p.toBytes.length ∧ (∃! i : Nat, bytes[i]? ≠ p.toBytes[i]?) ∧
      ((∃ byte, ofBytes bytes = .error (.reserved byte)) ∨
        ∃ q, ofBytes bytes = .ok q ∧ q.isIntact = false) := by
  intro p bytes
  have htotal : Checksum.wordTotal ((p.toBytes.set 12 0).set 13 0) = 2 ^ 32 - 1 := by
    have hheader : Header.encode {} = List.replicate 16 0 := by decide
    have hbytes : (p.toBytes.set 12 0).set 13 0 =
        List.replicate 16 0 ++ (List.replicate (2 * 65537) 0xFF ++ []) := by
      rw [← toBytes_withChecksum_zero, ← hheader, List.append_nil]
      rfl
    have hzeros (data : List UInt8) :
        Checksum.wordTotal (List.replicate 16 0 ++ data) = Checksum.wordTotal data := by
      simp [List.replicate_succ, Checksum.wordTotal]
    rw [hbytes, hzeros, Checksum.wordTotal_replicate_append]
    rfl
  have hp : p.isIntact = true := isIntact_sealed _
  have hlen : bytes.length = p.toBytes.length := List.length_set
  have hone : ∃! i : Nat, bytes[i]? ≠ p.toBytes[i]? := by
    refine ⟨7, ?_, ?_⟩
    · show some (1 : UInt8) ≠ some 0
      decide
    · intro i hi
      by_contra hne
      exact hi (List.getElem?_set_ne (Ne.symm hne))
  exact ⟨htotal, hp, hlen, hone, detects_changed_byte hp hlen hone⟩

end Packet

end LossyLink
