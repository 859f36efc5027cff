import LossyLink.Binary64
import Mathlib

/-! # Whole numbers as doubles

A whole number below 2⁵³ is the value of its double. Its digits are moved up until they fill
53 places, so neither the conversion nor the multiplication by one that follows it has a digit
to drop.
-/

namespace LossyLink.Binary64

open Float.Model Float.Model.UnpackedFloat

/-- The number that a double stands for, if it is finite. -/
def value : Binary64 → Option ℚ
  | nan => none
  | infinite _ => none
  | finite negative m e => some ((if negative then -1 else 1) * m * 2 ^ e)

variable {m n : Nat} {e : Int}

theorem log2_shiftLeft (hm : m ≠ 0) (k : Nat) : (m <<< k).log2 = m.log2 + k := by
  induction k with
  | zero => rfl
  | succ k ih =>
    have hne : m <<< k ≠ 0 := by
      rw [Nat.shiftLeft_eq]
      exact Nat.mul_ne_zero hm (Nat.two_pow_pos k).ne'
    rw [Nat.shiftLeft_succ, Nat.log2_two_mul hne, ih]
    rfl

theorem shiftRight_shiftLeft (m k : Nat) :
    ExtendedMantissa.ofMantissaAndAccuracy (m <<< k) .exact >>> k =
      ExtendedMantissa.ofMantissaAndAccuracy m .exact := by
  change k.repeat ExtendedMantissa.shiftRightOne _ = _
  induction k generalizing m with
  | zero => rfl
  | succ k ih =>
    have hshift : m <<< (k + 1) = (2 * m) <<< k := by
      rw [Nat.shiftLeft_eq, Nat.shiftLeft_eq]
      ring
    rw [hshift, Nat.repeat, ih]
    simp [ExtendedMantissa.shiftRightOne, ExtendedMantissa.ofMantissaAndAccuracy]

/-- The zeros below 53 digits are shifted out again. -/
theorem shiftToTargetExponent_shiftLeft (hm : m.log2 = 52) (he : -1074 < e) (k : Nat) :
    shiftToTargetExponent Format.binary64 (m <<< k) (e - k) .exact =
      (ExtendedMantissa.ofMantissaAndAccuracy m .exact, e) := by
  have hne : m ≠ 0 := by
    rintro rfl
    cases hm
  have htarget : Format.binary64.targetExponent (totalExponent (m <<< k) (e - k)) = e := by
    simp only [Format.targetExponent, totalExponent, Format.mantissaBits, Format.minExponent,
      log2_shiftLeft hne, hm]
    norm_num
    omega
  simp [shiftToTargetExponent, htarget, shiftToExponent, shiftRight_shiftLeft]

theorem roundWithAccuracy_shiftLeft (hm : m.log2 = 52) (hpos : 0 < m) (he : -1074 < e) (k : Nat) :
    roundWithAccuracy Format.binary64 .positive (m <<< k) (e - k) .exact =
      .finite .positive m e hpos := by
  -- Rounding shifts twice, and the second time there is nothing left to shift.
  have hagain := shiftToTargetExponent_shiftLeft hm he 0
  rw [Nat.shiftLeft_zero, Int.natCast_zero, Int.sub_zero] at hagain
  rw [roundWithAccuracy, shiftToTargetExponent_shiftLeft hm he]
  change (let r := shiftToTargetExponent Format.binary64 m e .exact
    if h : r.1.mantissa = 0 then UnpackedFloat.zero .positive
    else .finite .positive r.1.mantissa r.2 (Nat.pos_of_ne_zero h)) = _
  rw [hagain]
  exact dif_neg hpos.ne'

theorem toNat_packComponents (exponent : BitVec 11) (significand : BitVec 52) :
    (packComponents Format.binary64 .positive exponent significand).toNat =
      exponent.toNat * 2 ^ 52 + significand.toNat := by
  rw [packComponents, BitVec.toNat_append, BitVec.toNat_append,
    ← Nat.shiftLeft_add_eq_or_of_lt significand.isLt,
    ← Nat.shiftLeft_add_eq_or_of_lt exponent.isLt, Nat.shiftLeft_eq, Nat.shiftLeft_eq]
  change (0 * 2 ^ 11 + _) * 2 ^ 52 + _ = _
  rw [Nat.zero_mul, Nat.zero_add]

section Normal

variable (hm : m.log2 = 52) (hpos : 0 < m) (he : -1074 < e) (he' : e ≤ 971)
include hm he he'

theorem pack_finite :
    UnpackedFloat.pack Format.binary64 (.finite .positive m e hpos) =
      packComponents Format.binary64 .positive (BitVec.ofNat 11 (e + 1075).toNat)
        (BitVec.ofNat 52 m) := by
  have hbiased : (e + Format.binary64.exponentBias + (52 : Nat)).toNat = (e + 1075).toNat := by
    change (e + (1023 : Nat) + (52 : Nat)).toNat = _
    omega
  have hfits : ¬ 2 ^ 11 ≤ (e + 1075).toNat + 1 := by omega
  have hnormal : m.log2 + 1 = Format.binary64.mantissaBits := by
    rw [hm]
    rfl
  simp only [UnpackedFloat.pack, hbiased, if_neg hfits, if_pos hnormal]

theorem unpack_pack_finite :
    (Float.Model.pack (.finite .positive m e hpos)).unpack = .finite .positive m e hpos := by
  have hbounds : 2 ^ 52 ≤ m ∧ m < 2 ^ 53 := (Nat.log2_eq_iff hpos.ne').mp hm
  have hexponent : (BitVec.ofNat 11 (e + 1075).toNat).toNat = (e + 1075).toNat :=
    Nat.mod_eq_of_lt (by omega)
  have hzero : BitVec.ofNat 11 (e + 1075).toNat ≠ 0#11 := by
    intro h
    have := congrArg BitVec.toNat h
    rw [hexponent] at this
    change _ = 0 at this
    omega
  have hones : BitVec.ofNat 11 (e + 1075).toNat ≠ -1#11 := by
    intro h
    have := congrArg BitVec.toNat h
    rw [hexponent] at this
    change _ = 2047 at this
    omega
  have hmantissa : (1#1 ++ BitVec.ofNat 52 m).toNat = m := by
    rw [BitVec.toNat_append, ← Nat.shiftLeft_add_eq_or_of_lt (BitVec.isLt _), BitVec.toNat_ofNat]
    change 2 ^ 52 + m % 2 ^ 52 = m
    omega
  change UnpackedFloat.unpack Format.binary64
    (UnpackedFloat.pack Format.binary64 (.finite .positive m e hpos)) = _
  rw [pack_finite hm hpos he he', UnpackedFloat.unpack]
  simp only [unpackMantissa_packComponents, unpackExponent_packComponents,
    unpackSign_packComponents, Sign.ofBitVec_toBitVec, if_neg hzero, if_neg hones, hmantissa,
    hexponent]
  congr 1
  change ((e + 1075).toNat : Int) - ((1023 : Nat) + (52 : Nat)) = e
  omega

theorem ofFloat_pack_finite :
    ofFloat (.ofModel (Float.Model.pack (.finite .positive m e hpos))) = finite false m e := by
  have hbounds : 2 ^ 52 ≤ m ∧ m < 2 ^ 53 := (Nat.log2_eq_iff hpos.ne').mp hm
  have hbits : (Float.ofModel (Float.Model.pack (.finite .positive m e hpos))).toBits.toNat =
      (e + 1075).toNat * 2 ^ 52 + m % 2 ^ 52 := by
    change (UnpackedFloat.pack Format.binary64 (.finite .positive m e hpos)).toNat = _
    rw [pack_finite hm hpos he he', toNat_packComponents, BitVec.toNat_ofNat, BitVec.toNat_ofNat,
      Nat.mod_eq_of_lt (by omega)]
  have hleast : leastNormal = 2 ^ 52 := rfl
  have hbiased : ((e + 1075).toNat * 2 ^ 52 + m % 2 ^ 52) / 2 ^ 52 % 2048 = (e + 1075).toNat := by
    omega
  have hfraction : ((e + 1075).toNat * 2 ^ 52 + m % 2 ^ 52) % 2 ^ 52 = m % 2 ^ 52 := by omega
  have hpositive : decide (1 <<< 63 ≤ (e + 1075).toNat * 2 ^ 52 + m % 2 ^ 52) = false := by
    rw [decide_eq_false_iff_not]
    change ¬ 2 ^ 63 ≤ _
    omega
  simp only [ofFloat, hbits, hleast, hbiased, hfraction, hpositive]
  rw [if_neg (by omega), if_neg (by omega)]
  congr 1
  · omega
  · simp only [leastExponent]
    omega

end Normal

theorem unpack_one : (Float.ofBits 0x3FF0000000000000).toModel.unpack =
    .finite .positive (2 ^ 52) (-52) (by decide) := rfl

/-- The digits of a whole number, moved up until they fill 53 places. -/
def aligned (n : Nat) : Nat := n <<< (52 - n.log2)

theorem aligned_pos (hn : 0 < n) : 0 < aligned n := Nat.shiftLeft_pos_iff.mpr hn

section Whole

variable (hn : 0 < n) (h : n < 2 ^ 53)
include hn h

theorem log2_le_of_lt : n.log2 ≤ 52 := Nat.lt_succ_iff.mp ((Nat.log2_lt hn.ne').mpr h)

theorem log2_aligned : (aligned n).log2 = 52 := by
  have hlog : n.log2 ≤ 52 := log2_le_of_lt hn h
  rw [aligned, log2_shiftLeft hn.ne']
  omega

theorem ofUInt64_toUInt64 : UnpackedFloat.ofUInt64 Format.binary64 n.toUInt64 =
    .finite .positive (aligned n) (n.log2 - 52) (aligned_pos hn) := by
  have hlog : n.log2 ≤ 52 := log2_le_of_lt hn h
  have hnat : n.toUInt64.toNat = n := Nat.mod_eq_of_lt (by omega)
  have hgreater : compare (n : Int) 0 = .gt := Int.compare_eq_gt.mpr (by omega)
  have htarget : Format.binary64.targetExponent (totalExponent n 0) = n.log2 - 52 := by
    simp only [Format.targetExponent, totalExponent, Format.mantissaBits, Format.minExponent]
    norm_num
    omega
  have hshift : (0 - (n.log2 - 52 : Int)).toNat = 52 - n.log2 := by omega
  have hexponent : (0 : Int) - (52 - n.log2 : Nat) = n.log2 - 52 := by omega
  have hexact := roundWithAccuracy_shiftLeft (e := n.log2 - 52) (log2_aligned hn h)
    (aligned_pos hn) (by omega) 0
  rw [Nat.shiftLeft_zero, Int.natCast_zero, Int.sub_zero] at hexact
  simp only [UnpackedFloat.ofUInt64, UnpackedFloat.ofNat, UnpackedFloat.ofInt,
    UnpackedFloat.normalize, hnat, hgreater, Int.toNat_natCast, UnpackedFloat.round,
    decreaseExponent, htarget, hshift, hexponent]
  exact hexact

theorem ofNat_eq_pack : Float.ofNat n = .ofModel (Float.Model.pack
    (.finite .positive (aligned n) (n.log2 - 52) (aligned_pos hn))) := by
  have hm : (aligned n).log2 = 52 := log2_aligned hn h
  have hlog : n.log2 ≤ 52 := log2_le_of_lt hn h
  have hproduct : (Float.ofNat n).toModel = Float.Model.pack (UnpackedFloat.mul Format.binary64
      (Float.Model.pack (UnpackedFloat.ofUInt64 Format.binary64 n.toUInt64)).unpack
      (Float.ofBits 0x3FF0000000000000).toModel.unpack) := by
    have hfast : n < 2 ^ 53 ∧ 0 ≤ 22 := ⟨h, by decide⟩
    change (Float.ofScientific n false 0).toModel = _
    rw [Float.ofScientific, dif_pos hfast]
    rfl
  have hround := roundWithAccuracy_shiftLeft (e := n.log2 - 52) hm (aligned_pos hn) (by omega) 52
  rw [Nat.shiftLeft_eq] at hround
  rw [ofUInt64_toUInt64 hn h, unpack_pack_finite hm (aligned_pos hn) (by omega) (by omega),
    unpack_one] at hproduct
  exact congrArg Float.ofModel (hproduct.trans (congrArg Float.Model.pack hround))

end Whole

theorem value_ofNat (h : n < 2 ^ 53) : (ofFloat (Float.ofNat n)).value = some (n : ℚ) := by
  rcases Nat.eq_zero_or_pos n with rfl | hn
  · change (ofFloat 0.0).value = _
    rw [ofFloat_zero]
    simp [value]
  · have hlog : n.log2 ≤ 52 := log2_le_of_lt hn h
    have hexponent : (n.log2 - 52 : Int) = -((52 - n.log2 : Nat) : Int) := by omega
    rw [ofNat_eq_pack hn h,
      ofFloat_pack_finite (log2_aligned hn h) (aligned_pos hn) (by omega) (by omega), hexponent,
      aligned, Nat.shiftLeft_eq]
    simp [value]

end LossyLink.Binary64
