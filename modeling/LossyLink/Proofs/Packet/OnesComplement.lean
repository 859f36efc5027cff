import LossyLink.Checksum
import LossyLink.Proofs.Packet.Codec

/-! # The ones' complement sum

Adding the carries of a sum back in at its low end keeps its residue modulo 65535, and tells a
sum of zero from the other multiples. So the Internet checksum is the ones' complement of the
sum of all words as long as that sum fits into 32 bits, which 131074 bytes never exceed. Longer
data loses a carry now and then, and with it one from the residue.
-/

namespace LossyLink.Checksum

/-- The sum of the big-endian words, however large. A last odd byte is followed by a zero. -/
def wordTotal : List UInt8 → Nat
  | hi :: lo :: rest => 256 * hi.toNat + lo.toNat + wordTotal rest
  | [hi] => 256 * hi.toNat
  | [] => 0

/-- What is left of a sum in 16 bits when each carry is added back in. Zero is left of zero
only: what is left of any other multiple of 65535 is 65535. -/
def endAround (n : Nat) : Nat := if n = 0 then 0 else 1 + (n - 1) % 65535

/-- The rounds of folding from a sum until its high half is empty. -/
inductive Folding : UInt32 → Nat → UInt32 → Prop where
  | done {s : UInt32} (h : s >>> 16 = 0) : Folding s 0 s
  | round {s t : UInt32} {n : Nat} (h : s >>> 16 ≠ 0) (hs : Folding (foldHalves s) n t) :
      Folding s (n + 1) t

theorem toNat_sumWords (s : UInt32) (data : List UInt8) :
    (sumWords s data).toNat = (s.toNat + wordTotal data) % 2 ^ 32 := by
  fun_induction sumWords s data with
  | case1 s hi lo rest ih =>
    rw [ih, UInt32.toNat_add, UInt16.toNat_toUInt32, Wire.toNat_word16, wordTotal]
    omega
  | case2 s hi =>
    rw [UInt32.toNat_add, UInt16.toNat_toUInt32, Wire.toNat_word16, wordTotal]
    rfl
  | case3 s =>
    have hs := s.toNat_lt
    rw [wordTotal]
    omega

theorem wordTotal_le (data : List UInt8) : wordTotal data ≤ 65535 * ((data.length + 1) / 2) := by
  fun_induction wordTotal data with
  | case1 hi lo rest ih =>
    have hhi := hi.toNat_lt
    have hlo := lo.toNat_lt
    simp only [List.length_cons]
    omega
  | case2 hi =>
    have hhi := hi.toNat_lt
    simp only [List.length_singleton]
    omega
  | case3 => exact Nat.zero_le _

theorem wordTotal_replicate_append (n : Nat) (data : List UInt8) :
    wordTotal (List.replicate (2 * n) 0xFF ++ data) = 65535 * n + wordTotal data := by
  induction n with
  | zero => simp
  | succ n ih =>
    rw [Nat.mul_succ, List.replicate_succ, List.replicate_succ]
    simp only [List.cons_append, wordTotal, ih]
    show 256 * 255 + 255 + (65535 * n + wordTotal data) = _
    omega

theorem endAround_of_lt {n : Nat} (h : n < 65536) : endAround n = n := by
  unfold endAround
  split <;> omega

theorem endAround_le (n : Nat) : endAround n ≤ 65535 := by
  unfold endAround
  split <;> omega

/-- Adding the carry back in changes nothing of what will be left. -/
theorem endAround_fold (n : Nat) : endAround (n % 65536 + n / 65536) = endAround n := by
  unfold endAround
  split <;> split <;> omega

theorem toNat_foldCarries (s : UInt32) : (foldCarries s).toNat = endAround s.toNat := by
  fun_induction foldCarries s with
  | case1 s h => exact (endAround_of_lt ((shiftRight_sixteen_eq_zero_iff s).mp h)).symm
  | case2 s h ih => rw [ih, toNat_foldHalves, endAround_fold]

theorem exists_folding (s : UInt32) : ∃ n, Folding s n (foldCarries s) := by
  fun_induction foldCarries s with
  | case1 s h => exact ⟨0, .done h⟩
  | case2 s h ih =>
    obtain ⟨n, hn⟩ := ih
    exact ⟨n + 1, .round h hn⟩

/-- The first round leaves a carry of one at most, and the second none. -/
theorem Folding.le_two {s t : UInt32} {n : Nat} (h : Folding s n t) : n ≤ 2 := by
  obtain _ | ⟨-, h⟩ := h
  · exact Nat.zero_le 2
  obtain _ | ⟨-, h⟩ := h
  · exact Nat.le_succ 1
  obtain _ | ⟨hcarry, -⟩ := h
  · exact Nat.le_refl 2
  have hs := s.toNat_lt
  have hfirst := toNat_foldHalves s
  have hsecond := toNat_foldHalves (foldHalves s)
  rw [ne_eq, shiftRight_sixteen_eq_zero_iff] at hcarry
  omega

theorem toNat_internet (data : List UInt8) :
    (internet data).toNat = 65535 - endAround (wordTotal data % 2 ^ 32) := by
  have hsum : (sumWords 0 data).toNat = wordTotal data % 2 ^ 32 := by
    rw [toNat_sumWords]
    exact congrArg (· % 2 ^ 32) (Nat.zero_add _)
  have hle := endAround_le (wordTotal data % 2 ^ 32)
  have hlow : (foldCarries (sumWords 0 data)).toUInt16.toNat =
      endAround (wordTotal data % 2 ^ 32) := by
    rw [UInt32.toNat_toUInt16, toNat_foldCarries, hsum]
    exact Nat.mod_eq_of_lt (Nat.lt_succ_of_le hle)
  rw [internet, UInt16.toNat_not, hlow]
  rfl

/-- The words of RFC 1071. -/
example : internet [0x00, 0x01, 0xf2, 0x03, 0xf4, 0xf5, 0xf6, 0xf7] = ~~~0xddf2 := by
  decide +kernel

/-- The Internet checksum is the ones' complement of what is left of the sum of all words
modulo 2³², and folding takes two rounds at most. For up to 131074 bytes that is the ones'
complement sum of RFC 1071, and for 131075 it need not be. -/
theorem internet_onesComplement :
    (∀ data, (internet data).toNat = 65535 - endAround (wordTotal data % 2 ^ 32)) ∧
    (∀ s, ∃ n ≤ 2, Folding s n (foldCarries s)) ∧
    (∀ data, data.length ≤ 131074 →
      (internet data).toNat = 65535 - endAround (wordTotal data)) ∧
    ∃ data, data.length = 131075 ∧
      (internet data).toNat ≠ 65535 - endAround (wordTotal data) := by
  refine ⟨toNat_internet, ?_, ?_, ?_⟩
  · intro s
    obtain ⟨n, hn⟩ := exists_folding s
    exact ⟨n, hn.le_two, hn⟩
  · intro data hlen
    have hle := wordTotal_le data
    have hlt : wordTotal data < 2 ^ 32 := by omega
    rw [toNat_internet, Nat.mod_eq_of_lt hlt]
  · have htotal : wordTotal (List.replicate (2 * 65537) 0xFF ++ [1]) = 2 ^ 32 + 255 := by
      rw [wordTotal_replicate_append]
      rfl
    refine ⟨List.replicate (2 * 65537) 0xFF ++ [1], ?_, ?_⟩
    · rw [List.length_append, List.length_replicate]
      rfl
    · rw [toNat_internet, htotal]
      decide

/-- The longest data of which no carry can be lost. -/
theorem internet_onesComplement_of_longest :
    (List.replicate (2 * 65537) (0xFF : UInt8)).length ≤ 131074 ∧
      wordTotal (List.replicate (2 * 65537) 0xFF) = 2 ^ 32 - 1 ∧
      (internet (List.replicate (2 * 65537) 0xFF)).toNat = 65535 - 65535 := by
  have hlen : (List.replicate (2 * 65537) (0xFF : UInt8)).length ≤ 131074 :=
    Nat.le_of_eq List.length_replicate
  have htotal : wordTotal (List.replicate (2 * 65537) 0xFF) = 2 ^ 32 - 1 := by
    rw [← List.append_nil (List.replicate (2 * 65537) 0xFF), wordTotal_replicate_append]
    rfl
  refine ⟨hlen, htotal, ?_⟩
  rw [internet_onesComplement.2.2.1 _ hlen, htotal]
  decide

end LossyLink.Checksum
