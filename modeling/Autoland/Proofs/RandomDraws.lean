import Autoland.Number.Binary
import Autoland.Number.Random
import Mathlib

/-! A fraction drawn from random words in double precision lies between 0 and 1. -/

namespace Autoland

open Float.Model UnpackedFloat

theorem toNat_implicit_append (mantissa : BitVec 52) :
    (1#1 ++ mantissa).toNat = 2 ^ 52 + mantissa.toNat := by
  rw [BitVec.toNat_append, ← Nat.shiftLeft_add_eq_or_of_lt mantissa.isLt]
  simp [Nat.shiftLeft_eq]

theorem unpack_pack_normal (sign : Sign) (mantissa : Nat) (exponent : Int)
    (positive : 0 < mantissa) (normal : mantissa.log2 = 52) (low : -1074 ≤ exponent)
    (high : exponent ≤ 971) :
    (pack (.finite sign mantissa exponent positive)).unpack =
      .finite sign mantissa exponent positive := by
  obtain ⟨least, most⟩ := (Nat.log2_eq_iff positive.ne').mp normal
  obtain ⟨biased, place⟩ : ∃ biased : Nat, exponent = biased - 1075 :=
    ⟨(exponent + 1075).toNat, by omega⟩
  subst place
  have packed : UnpackedFloat.pack .binary64 (.finite sign mantissa (biased - 1075) positive) =
      @packComponents .binary64 sign (BitVec.ofNat 11 biased) (BitVec.ofNat 52 mantissa) := by
    have bias : ((biased : Int) - 1075 + (Format.binary64.exponentBias : Nat) +
        (Format.binary64.mantissaBitsWithoutImplicit : Nat)).toNat = biased := by
      change ((biased : Int) - 1075 + 1023 + 52).toNat = biased
      omega
    rw [UnpackedFloat.pack, bias, normal]
    exact (if_neg (by change ¬2048 ≤ biased + 1; omega)).trans (if_pos rfl)
  have exponentBits : (BitVec.ofNat 11 biased).toNat = biased := by
    rw [BitVec.toNat_ofNat, Nat.mod_eq_of_lt (by omega)]
  have notOnes : BitVec.ofNat 11 biased ≠ -1#11 := by
    intro same
    have := congrArg BitVec.toNat same
    rw [exponentBits] at this
    change biased = 2047 at this
    omega
  have notZeros : BitVec.ofNat 11 biased ≠ 0#11 := by
    intro same
    have := congrArg BitVec.toNat same
    rw [exponentBits] at this
    change biased = 0 at this
    omega
  have mantissaBits : (1#1 ++ BitVec.ofNat 52 mantissa).toNat = mantissa := by
    rw [toNat_implicit_append, BitVec.toNat_ofNat]
    omega
  change UnpackedFloat.unpack .binary64 (UnpackedFloat.pack .binary64 _) = _
  rw [packed, UnpackedFloat.unpack]
  simp only [unpackExponent_packComponents, unpackMantissa_packComponents,
    unpackSign_packComponents, Sign.ofBitVec_toBitVec, if_neg notOnes, if_neg notZeros,
    mantissaBits, exponentBits]
  congr 1

theorem shiftRight_scaled (mantissa places : Nat) :
    (⟨mantissa * 2 ^ places, false, false⟩ : ExtendedMantissa) >>> places =
      ⟨mantissa, false, false⟩ := by
  change places.repeat ExtendedMantissa.shiftRightOne _ = _
  induction places generalizing mantissa with
  | zero => simp [Nat.repeat]
  | succ places ih =>
      rw [Nat.repeat, Nat.pow_succ, ← Nat.mul_assoc, Nat.mul_right_comm, ih (mantissa * 2)]
      simp [ExtendedMantissa.shiftRightOne]

theorem log2_mul_pow (mantissa places : Nat) (positive : 0 < mantissa) :
    (mantissa * 2 ^ places).log2 = mantissa.log2 + places := by
  obtain ⟨least, most⟩ := (Nat.log2_eq_iff positive.ne').mp rfl
  refine (Nat.log2_eq_iff (by positivity)).mpr ⟨?_, ?_⟩
  · rw [Nat.pow_add]
    exact Nat.mul_le_mul_right _ least
  · rw [Nat.add_right_comm, Nat.pow_add]
    exact Nat.mul_lt_mul_of_pos_right most (by positivity)

theorem shiftToTarget_scaled (mantissa places : Nat) (exponent : Int)
    (normal : mantissa.log2 = 52) (low : -1074 ≤ exponent) :
    shiftToTargetExponent .binary64 (mantissa * 2 ^ places) (exponent - places) .exact =
      (⟨mantissa, false, false⟩, exponent) := by
  have positive : 0 < mantissa := by
    rw [Nat.pos_iff_ne_zero]
    rintro rfl
    cases normal
  have target : Format.binary64.targetExponent
      (totalExponent (mantissa * 2 ^ places) (exponent - places)) = exponent := by
    rw [totalExponent, log2_mul_pow _ _ positive, normal]
    change max (((52 + places : Nat) : Int) + 1 + (exponent - places) - 53) (-1074) = exponent
    omega
  rw [shiftToTargetExponent, target, shiftToExponent, sub_sub_cancel]
  refine Prod.ext ?_ ?_
  · exact shiftRight_scaled mantissa places
  · change exponent - places + ((places : Int).toNat : Int) = exponent
    omega

theorem roundWithAccuracy_scaled (sign : Sign) (mantissa places : Nat) (exponent : Int)
    (positive : 0 < mantissa) (normal : mantissa.log2 = 52) (low : -1074 ≤ exponent) :
    roundWithAccuracy .binary64 sign (mantissa * 2 ^ places) (exponent - places) .exact =
      .finite sign mantissa exponent positive := by
  have again := shiftToTarget_scaled mantissa 0 exponent normal low
  rw [Nat.pow_zero, Nat.mul_one, Nat.cast_zero, sub_zero] at again
  have rounded : (⟨mantissa, false, false⟩ : ExtendedMantissa).roundedMantissa = mantissa := rfl
  rw [roundWithAccuracy, shiftToTarget_scaled mantissa places exponent normal low]
  simp only [rounded, again, dif_neg positive.ne']

theorem ofUInt64_of_lt (n : UInt64) (positive : 0 < n.toNat) (below : n.toNat < 2 ^ 53)
    (enlarged : 0 < n.toNat * 2 ^ (52 - n.toNat.log2)) :
    UnpackedFloat.ofUInt64 .binary64 n =
      .finite .positive (n.toNat * 2 ^ (52 - n.toNat.log2)) (n.toNat.log2 - 52) enlarged := by
  have length := (Nat.log2_lt positive.ne').mpr below
  have scaled : (n.toNat * 2 ^ (52 - n.toNat.log2)).log2 = 52 := by
    rw [log2_mul_pow _ _ positive]
    omega
  have target : Format.binary64.targetExponent (totalExponent n.toNat 0) =
      (n.toNat.log2 : Int) - 52 := by
    change max ((n.toNat.log2 : Int) + 1 + 0 - 53) (-1074) = _
    omega
  have decreased : decreaseExponent n.toNat 0 ((n.toNat.log2 : Int) - 52) =
      (n.toNat * 2 ^ (52 - n.toNat.log2), (n.toNat.log2 : Int) - 52) := by
    have places : (0 - ((n.toNat.log2 : Int) - 52)).toNat = 52 - n.toNat.log2 := by omega
    rw [decreaseExponent, places, Nat.shiftLeft_eq]
    refine Prod.ext rfl ?_
    change (0 : Int) - ((52 - n.toNat.log2 : Nat) : Int) = _
    omega
  have exact := roundWithAccuracy_scaled .positive _ 0 ((n.toNat.log2 : Int) - 52) enlarged scaled
    (by omega)
  rw [Nat.pow_zero, Nat.mul_one, Nat.cast_zero, sub_zero] at exact
  rw [UnpackedFloat.ofUInt64, UnpackedFloat.ofNat, UnpackedFloat.ofInt, UnpackedFloat.normalize,
    Int.compare_eq_gt.mpr (by omega)]
  simp only [Int.toNat_natCast, UnpackedFloat.round, target, decreased, exact]

theorem divCore_pow (mantissa : Nat) (exponent : Int) (normal : mantissa.log2 = 52)
    (low : -1020 ≤ exponent) :
    divCore .binary64 mantissa exponent (2 ^ 52) 1 =
      (mantissa * 2 ^ 1, exponent - 53 - (1 : Nat), .exact) := by
  have target : min (exponent - 1) (Format.binary64.targetExponent
      (totalExponent mantissa exponent - totalExponent (2 ^ 52) 1)) = exponent - 54 := by
    rw [totalExponent, totalExponent, normal, Nat.log2_two_pow]
    change min (exponent - 1) (max ((52 : Int) + 1 + exponent - (52 + 1 + 1) - 53) (-1074)) = _
    omega
  have shifted : mantissa <<< (exponent - 1 - (exponent - 54)).toNat =
      2 ^ 52 * (mantissa * 2 ^ 1) := by
    have places : (exponent - 1 - (exponent - 54)).toNat = 53 := by omega
    rw [places, Nat.shiftLeft_eq]
    omega
  simp only [divCore, target, shifted, Nat.mul_div_cancel_left _ (by decide : 0 < 2 ^ 52),
    Nat.mul_mod_right]
  refine Prod.ext rfl (Prod.ext ?_ rfl)
  change exponent - 54 = exponent - 53 - 1
  omega

def PositiveWithin (low high : Int) (x : Float) : Prop :=
  ∃ mantissa exponent positive, mantissa.log2 = 52 ∧ low ≤ exponent ∧ exponent ≤ high ∧
    x.toModel.unpack = .finite .positive mantissa exponent positive

theorem positiveWithin_toFloat (n : UInt64) (positive : 0 < n.toNat) (below : n.toNat < 2 ^ 53) :
    PositiveWithin (-52) 0 n.toFloat := by
  have length := (Nat.log2_lt positive.ne').mpr below
  have scaled : (n.toNat * 2 ^ (52 - n.toNat.log2)).log2 = 52 := by
    rw [log2_mul_pow _ _ positive]
    omega
  have enlarged : 0 < n.toNat * 2 ^ (52 - n.toNat.log2) := by positivity
  refine ⟨_, (n.toNat.log2 : Int) - 52, enlarged, scaled, by omega, by omega, ?_⟩
  change (pack (UnpackedFloat.ofUInt64 .binary64 n)).unpack = _
  rw [ofUInt64_of_lt n positive below enlarged]
  exact unpack_pack_normal _ _ _ enlarged scaled (by omega) (by omega)

variable {low high : Int} {x : Float}

theorem PositiveWithin.mul_one (within : PositiveWithin low high x) (least : -1074 ≤ low)
    (most : high ≤ 971) : PositiveWithin low high (x * Float.ofBits 0x3FF0000000000000) := by
  obtain ⟨mantissa, exponent, positive, normal, above, below, unpacked⟩ := within
  refine ⟨mantissa, exponent, positive, normal, above, below, ?_⟩
  have one : (Float.ofBits 0x3FF0000000000000).toModel.unpack =
      .finite .positive (2 ^ 52) (-52) (by decide) := by rfl
  change (pack (UnpackedFloat.mul .binary64 x.toModel.unpack
    (Float.ofBits 0x3FF0000000000000).toModel.unpack)).unpack = _
  rw [unpacked, one]
  change (pack (roundWithAccuracy .binary64 .positive (mantissa * 2 ^ 52)
    (exponent - (52 : Nat)) .exact)).unpack = _
  rw [roundWithAccuracy_scaled _ _ _ _ positive normal (by omega)]
  exact unpack_pack_normal _ _ _ positive normal (by omega) (by omega)

theorem PositiveWithin.div_pow (within : PositiveWithin low high x) (least : -1020 ≤ low)
    (most : high ≤ 971) :
    PositiveWithin (low - 53) (high - 53) (x / (Scalar.ofInt 9007199254740992 : Float)) := by
  obtain ⟨mantissa, exponent, positive, normal, above, below, unpacked⟩ := within
  refine ⟨mantissa, exponent - 53, positive, normal, by omega, by omega, ?_⟩
  have divisor : (Scalar.ofInt 9007199254740992 : Float).toModel.unpack =
      .finite .positive (2 ^ 52) 1 (by decide) := by rfl
  change (pack (UnpackedFloat.div .binary64 x.toModel.unpack
    (Scalar.ofInt 9007199254740992 : Float).toModel.unpack)).unpack = _
  rw [unpacked, divisor]
  change (pack (roundWithAccuracy .binary64 .positive
    (divCore .binary64 mantissa exponent (2 ^ 52) 1).1
    (divCore .binary64 mantissa exponent (2 ^ 52) 1).2.1
    (divCore .binary64 mantissa exponent (2 ^ 52) 1).2.2)).unpack = _
  rw [divCore_pow _ _ normal (by omega),
    roundWithAccuracy_scaled _ _ _ _ positive normal (by omega)]
  exact unpack_pack_normal _ _ _ positive normal (by omega) (by omega)

theorem PositiveWithin.not_lt_zero (within : PositiveWithin low high x) : ¬x < 0.0 := by
  obtain ⟨mantissa, exponent, positive, _, _, _, unpacked⟩ := within
  change ¬decide (x.toModel < (0.0 : Float).toModel) = true
  rw [decide_eq_true_iff]
  change ¬(x.toModel.unpack.compare (.zero .positive) == some .lt) = true
  rw [unpacked]
  exact Bool.false_ne_true

theorem PositiveWithin.lt_one (within : PositiveWithin low high x) (small : high < -52) :
    x < 1.0 := by
  obtain ⟨mantissa, exponent, positive, _, _, below, unpacked⟩ := within
  have one : (1.0 : Float).toModel.unpack = .finite .positive (2 ^ 52) (-52) (by decide) := by rfl
  change decide (x.toModel < (1.0 : Float).toModel) = true
  rw [decide_eq_true_iff]
  change (x.toModel.unpack.compare (1.0 : Float).toModel.unpack == some .lt) = true
  rw [unpacked, one]
  change (some ((compare exponent (-52)).then (compare mantissa (2 ^ 52))) == some .lt) = true
  rw [Int.compare_eq_lt.mpr (by omega)]
  rfl

namespace Source

theorem fraction_mem (source : Source) :
    ¬(source.fraction : Float × Source).1 < 0.0 ∧ (source.fraction : Float × Source).1 < 1.0 := by
  have small : source.next.1.toNat / 2048 < 2 ^ 53 := by
    have := source.next.1.toNat_lt
    omega
  change ¬Scalar.ofInt (source.next.1.toNat / 2048 : Nat) /
      (Scalar.ofInt 9007199254740992 : Float) < 0.0 ∧
    Scalar.ofInt (source.next.1.toNat / 2048 : Nat) /
      (Scalar.ofInt 9007199254740992 : Float) < 1.0
  generalize source.next.1.toNat / 2048 = upper at small
  rcases Nat.eq_zero_or_pos upper with rfl | positive
  · decide +kernel
  · have converted : (Scalar.ofInt (upper : Int) : Float) =
        upper.toUInt64.toFloat * Float.ofBits 0x3FF0000000000000 := by
      change doubleOfInt upper = _
      rw [doubleOfInt, if_neg (by omega), Int.natAbs_natCast]
      exact dif_pos ⟨small, Nat.zero_le 22⟩
    have word : upper.toUInt64.toNat = upper := by
      rw [Nat.toUInt64, UInt64.toNat_ofNat']
      omega
    have within : PositiveWithin (-52 - 53) (0 - 53)
        (Scalar.ofInt (upper : Int) / (Scalar.ofInt 9007199254740992 : Float)) := by
      rw [converted]
      exact ((positiveWithin_toFloat _ (by omega) (by omega)).mul_one (by omega)
        (by omega)).div_pow (by omega) (by omega)
    exact ⟨within.not_lt_zero, within.lt_one (by omega)⟩

end Source

end Autoland
