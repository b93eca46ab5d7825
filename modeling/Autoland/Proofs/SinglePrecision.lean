import Autoland.Number.Binary
import Mathlib.Tactic

/-! Numbers of single precision by their bits: which are finite and which count as zero. -/

namespace Autoland

open Float.Model

theorem single_eq_of_toBits {x y : Float32} (same : x.toBits = y.toBits) : x = y := by
  rcases x with ⟨⟨first, valid⟩⟩
  rcases y with ⟨⟨second, other⟩⟩
  cases show first = second from same
  rfl

def singleFraction (x : Float32) : Nat := x.toBits.toNat % 2 ^ 23

def singleExponent (x : Float32) : Nat := x.toBits.toNat / 2 ^ 23 % 2 ^ 8

theorem unpackMantissa_eq_zero_iff (x : Float32) :
    @UnpackedFloat.unpackMantissa .binary32 x.toBits.toBitVec = 0 ↔ singleFraction x = 0 := by
  rw [← BitVec.toNat_inj]
  unfold UnpackedFloat.unpackMantissa singleFraction
  simp [BitVec.extractLsb, BitVec.extractLsb']

theorem toNat_unpackExponent (x : Float32) :
    (@UnpackedFloat.unpackExponent .binary32 x.toBits.toBitVec).toNat = singleExponent x := by
  unfold UnpackedFloat.unpackExponent singleExponent
  simp [BitVec.extractLsb, BitVec.extractLsb', Nat.shiftRight_eq_div_pow]

theorem isFinite_iff (x : Float32) : x.isFinite = true ↔ singleExponent x ≠ 255 := by
  have ones : @UnpackedFloat.unpackExponent .binary32 x.toBits.toBitVec = -1#8 ↔
      singleExponent x = 255 := by
    rw [← toNat_unpackExponent, ← BitVec.toNat_inj]
    rfl
  unfold Float32.isFinite Float32.Model.isFinite Float32.Model.unpack UnpackedFloat.unpack
  dsimp only
  iterate 3 rw [apply_ite UnpackedFloat.isFinite]
  rw [apply_dite UnpackedFloat.isFinite]
  dsimp only [UnpackedFloat.isFinite]
  rw [ite_self, dite_eq_ite, ite_self, ite_self]
  split
  · rename_i most
    exact iff_of_false Bool.false_ne_true (not_not.mpr (ones.mp most))
  · rename_i less
    exact iff_of_true rfl (mt ones.mpr less)

theorem bits_of_unpack_zero (x : Float32) (sign : UnpackedFloat.Sign)
    (zero : x.toModel.unpack = .zero sign) : singleFraction x = 0 ∧ singleExponent x = 0 := by
  unfold Float32.Model.unpack UnpackedFloat.unpack at zero
  dsimp only at zero
  rcases ite_eq_iff.mp zero with ⟨_, zero⟩ | ⟨_, zero⟩
  · rcases ite_eq_iff.mp zero with ⟨_, zero⟩ | ⟨_, zero⟩
    · cases zero
    · cases zero
  · rcases ite_eq_iff.mp zero with ⟨exponent, zero⟩ | ⟨_, zero⟩
    · rcases dite_eq_iff.mp zero with ⟨fraction, _⟩ | ⟨_, zero⟩
      · refine ⟨(unpackMantissa_eq_zero_iff x).mp fraction, ?_⟩
        rw [← toNat_unpackExponent]
        exact congrArg BitVec.toNat exponent
      · cases zero
    · cases zero

theorem eq_zero_of_beq_zero (x : Float32) (equal : (x == 0.0) = true) : x = 0.0 ∨ x = -0.0 := by
  have compared : UnpackedFloat.compare x.toModel.unpack (.zero .positive) = some .eq :=
    eq_of_beq equal
  cases unpacked : x.toModel.unpack with
  | infinity sign =>
      rw [unpacked] at compared
      cases sign <;> cases compared
  | notANumber =>
      rw [unpacked] at compared
      cases compared
  | finite sign mantissa exponent positive =>
      rw [unpacked] at compared
      cases sign <;> cases compared
  | zero sign =>
      rcases bits_of_unpack_zero x sign unpacked with ⟨fraction, exponent⟩
      have bound := x.toBits.toNat_lt
      have bits : x.toBits.toNat = 0 ∨ x.toBits.toNat = 2147483648 := by
        unfold singleFraction at fraction
        unfold singleExponent at exponent
        omega
      rcases bits with positive | negative
      · left
        apply single_eq_of_toBits
        apply UInt32.toNat_inj.mp
        rw [positive]
        rfl
      · right
        apply single_eq_of_toBits
        apply UInt32.toNat_inj.mp
        rw [negative]
        rfl

end Autoland
