import Autoland.Proofs.CommandBounds
import Mathlib.Algebra.Quaternion

/-! Turning vectors by quaternions. In exact arithmetic the products are those of the quaternion
ring. So turns compose, and a vector turned by a quaternion of norm 1 keeps its length. -/

section QuaternionRing

open scoped Quaternion

namespace Autoland

/-- Whether quantities stand for members of an ordered ring, and are reckoned and compared as these
are. -/
structure Scalar.IsExact {ν R : Type} [Scalar ν] [CommRing R] [LinearOrder R] (value : ν → R) :
    Prop where
  add : ∀ a b, value (a + b) = value a + value b
  sub : ∀ a b, value (a - b) = value a - value b
  mul : ∀ a b, value (a * b) = value a * value b
  neg : ∀ a, value (-a) = -value a
  zero : value 0.0 = 0
  one : value 1.0 = 1
  lt : ∀ a b, a < b ↔ value a < value b

theorem Scalar.isExact_id : IsExact (id : Rat → Rat) where
  add _ _ := rfl
  sub _ _ := rfl
  mul _ _ := rfl
  neg _ := rfl
  zero := by norm_num
  one := by norm_num
  lt _ _ := Iff.rfl

namespace Flight

namespace Vector

def squaredLength {ν : Type} [Add ν] [Mul ν] (v : Vector ν) : ν := v.x * v.x + v.y * v.y + v.z * v.z

def map {ν R : Type} (value : ν → R) (v : Vector ν) : Vector R := ⟨value v.x, value v.y, value v.z⟩

end Vector

namespace Quaternion

def squaredNorm {ν : Type} [Add ν] [Mul ν] (q : Quaternion ν) : ν :=
  q.w * q.w + q.x * q.x + q.y * q.y + q.z * q.z

def map {ν R : Type} (value : ν → R) (q : Quaternion ν) : Quaternion R :=
  ⟨value q.w, value q.x, value q.y, value q.z⟩

section Ring

variable {R : Type} [CommRing R]

def toRing (q : Quaternion R) : ℍ[R] := ⟨q.w, q.x, q.y, q.z⟩

theorem toRing_injective : Function.Injective (toRing (R := R)) := by
  intro q r same
  cases q
  cases r
  cases same
  rfl

theorem toRing_mul (q r : Quaternion R) : (q * r).toRing = q.toRing * r.toRing := by
  ext
  · rw [Quaternion.re_mul]
    rfl
  · rw [Quaternion.imI_mul]
    rfl
  · rw [Quaternion.imJ_mul]
    rfl
  · rw [Quaternion.imK_mul]
    rfl

theorem toRing_conjugate (q : Quaternion R) : q.conjugate.toRing = star q.toRing := by
  ext
  · rw [Quaternion.re_star]
    rfl
  · rw [Quaternion.imI_star]
    rfl
  · rw [Quaternion.imJ_star]
    rfl
  · rw [Quaternion.imK_star]
    rfl

theorem normSq_toRing (q : Quaternion R) : Quaternion.normSq q.toRing = q.squaredNorm := by
  rw [Quaternion.normSq_def', squaredNorm, toRing]
  ring

theorem conjugate_mul (q r : Quaternion R) : (q * r).conjugate = r.conjugate * q.conjugate := by
  apply toRing_injective
  rw [toRing_conjugate, toRing_mul, star_mul, toRing_mul, toRing_conjugate, toRing_conjugate]

theorem product_assoc (q r s : Quaternion R) : q * r * s = q * (r * s) := by
  apply toRing_injective
  rw [toRing_mul, toRing_mul, toRing_mul, toRing_mul, mul_assoc]

theorem squaredNorm_mul (q r : Quaternion R) :
    (q * r).squaredNorm = q.squaredNorm * r.squaredNorm := by
  rw [← normSq_toRing, toRing_mul, map_mul, normSq_toRing, normSq_toRing]

theorem squaredNorm_conjugate (q : Quaternion R) : q.conjugate.squaredNorm = q.squaredNorm := by
  rw [← normSq_toRing, toRing_conjugate, Quaternion.normSq_star, normSq_toRing]

theorem squaredNorm_ofVector (v : Vector R) : (ofVector 0 v).squaredNorm = v.squaredLength := by
  change 0 * 0 + v.x * v.x + v.y * v.y + v.z * v.z = v.x * v.x + v.y * v.y + v.z * v.z
  ring

variable (q r : Quaternion R) (v : Vector R)

theorem scalar_turned : (q * ofVector 0 v * q.conjugate).w = 0 := by
  change (q.w * 0 - q.x * v.x - q.y * v.y - q.z * v.z) * q.w -
    (q.w * v.x + q.x * 0 + q.y * v.z - q.z * v.y) * -q.x -
    (q.w * v.y - q.x * v.z + q.y * 0 + q.z * v.x) * -q.y -
    (q.w * v.z + q.x * v.y - q.y * v.x + q.z * 0) * -q.z = 0
  ring

theorem ofVector_rotateFrom : ofVector 0 (q.rotateFrom 0 v) = q * ofVector 0 v * q.conjugate := by
  have vanishes := scalar_turned q v
  rw [rotateFrom]
  generalize q * ofVector 0 v * q.conjugate = turned at vanishes
  cases turned
  cases vanishes
  rfl

theorem rotateFrom_mul : (q * r).rotateFrom 0 v = q.rotateFrom 0 (r.rotateFrom 0 v) := by
  have regrouped : q * r * ofVector 0 v * (q * r).conjugate =
      q * (r * ofVector 0 v * r.conjugate) * q.conjugate := by
    simp only [conjugate_mul, product_assoc]
  rw [rotateFrom, regrouped, ← ofVector_rotateFrom r v]
  rfl

theorem squaredLength_rotateFrom :
    (q.rotateFrom 0 v).squaredLength = q.squaredNorm ^ 2 * v.squaredLength := by
  rw [← squaredNorm_ofVector, ofVector_rotateFrom, squaredNorm_mul, squaredNorm_mul,
    squaredNorm_conjugate, squaredNorm_ofVector]
  ring

theorem squaredLength_rotateFrom_up (unit : q.squaredNorm = 1) :
    (q.rotateFrom 0 ⟨0, 0, 1⟩).squaredLength = 1 := by
  rw [squaredLength_rotateFrom, unit, Vector.squaredLength]
  ring

end Ring

end Quaternion

section Exact

variable {ν R : Type} [Scalar ν] [CommRing R] [LinearOrder R] {value : ν → R}
  (exact : Scalar.IsExact value)

include exact

theorem Quaternion.map_mul (q r : Quaternion ν) :
    (q * r).map value = q.map value * r.map value := by
  change Quaternion.mk (value (q.w * r.w - q.x * r.x - q.y * r.y - q.z * r.z))
    (value (q.w * r.x + q.x * r.w + q.y * r.z - q.z * r.y))
    (value (q.w * r.y - q.x * r.z + q.y * r.w + q.z * r.x))
    (value (q.w * r.z + q.x * r.y - q.y * r.x + q.z * r.w)) = _
  simp only [exact.add, exact.sub, exact.mul]
  rfl

theorem Quaternion.map_conjugate (q : Quaternion ν) :
    q.conjugate.map value = (q.map value).conjugate := by
  simp only [Quaternion.map, Quaternion.conjugate, exact.neg]

theorem Quaternion.map_ofVector (v : Vector ν) :
    (ofVector 0.0 v).map value = ofVector 0 (v.map value) := by
  rw [ofVector, Quaternion.map, exact.zero]
  rfl

theorem Quaternion.map_rotate (q : Quaternion ν) (v : Vector ν) :
    (q.rotate v).map value = (q.map value).rotateFrom 0 (v.map value) := by
  have turned : (q * ofVector 0.0 v * q.conjugate).map value =
      q.map value * ofVector 0 (v.map value) * (q.map value).conjugate := by
    rw [map_mul exact, map_mul exact, map_conjugate exact, map_ofVector exact]
  exact congrArg vector turned

theorem Snapshot.map_bodyAxis (snapshot : Snapshot ν) :
    snapshot.bodyAxis.map value = (snapshot.orientation.map value).rotateFrom 0 ⟨0, 0, 1⟩ := by
  rw [bodyAxis, Quaternion.map_rotate exact, Vector.map, exact.zero, exact.one]

theorem Snapshot.clampUnit_of_abs_le [IsStrictOrderedRing R] (x : ν) (small : |value x| ≤ 1) :
    clampUnit x = x := by
  obtain ⟨low, high⟩ := abs_le.mp small
  rw [clampUnit, if_neg, if_neg]
  · rw [exact.lt, exact.one]
    exact high.not_gt
  · rw [exact.lt, exact.neg, exact.one]
    exact low.not_gt

theorem Snapshot.clampUnit_bodyAxis [IsStrictOrderedRing R] (snapshot : Snapshot ν)
    (unit : (snapshot.orientation.map value).squaredNorm = 1) :
    clampUnit snapshot.bodyAxis.z = snapshot.bodyAxis.z := by
  apply clampUnit_of_abs_le exact
  have length := Quaternion.squaredLength_rotateFrom_up _ unit
  rw [← snapshot.map_bodyAxis exact, Vector.squaredLength] at length
  have other : 0 ≤ value snapshot.bodyAxis.x * value snapshot.bodyAxis.x +
      value snapshot.bodyAxis.y * value snapshot.bodyAxis.y :=
    add_nonneg (mul_self_nonneg _) (mul_self_nonneg _)
  rw [abs_le_one_iff_mul_self_le_one, ← length]
  exact le_add_of_nonneg_left other

end Exact

/-- The laws of turning, over every commutative ring. A product is conjugated by multiplying the
conjugates in reverse, a turned vector has no scalar part, a product turns as its factors do one
after the other, and the square of a length is scaled by the square of the squared norm, so that an
orientation turns the upward axis into one of length 1. Wherever the quantities of a snapshot are
reckoned as in an ordered ring, its body axis therefore follows a turn of the orientation, has
length 1 if the orientation has norm 1, and is not moved by the clamp before the tilt is taken. -/
theorem Quaternion.turning_laws {R : Type} [CommRing R] :
    (∀ q r : Quaternion R, (q * r).conjugate = r.conjugate * q.conjugate) ∧
    (∀ (q : Quaternion R) v, (q * ofVector 0 v * q.conjugate).w = 0) ∧
    (∀ (q r : Quaternion R) v, (q * r).rotateFrom 0 v = q.rotateFrom 0 (r.rotateFrom 0 v)) ∧
    (∀ (q : Quaternion R) v,
      (q.rotateFrom 0 v).squaredLength = q.squaredNorm ^ 2 * v.squaredLength) ∧
    (∀ q : Quaternion R, q.squaredNorm = 1 → (q.rotateFrom 0 ⟨0, 0, 1⟩).squaredLength = 1) ∧
    ∀ [LinearOrder R] [IsStrictOrderedRing R] {ν : Type} [Scalar ν] [Elementary ν]
      (value : ν → R), Scalar.IsExact value → ∀ snapshot : Snapshot ν,
        (∀ turn, { snapshot with orientation := turn * snapshot.orientation }.bodyAxis.map value =
          (turn.rotate snapshot.bodyAxis).map value) ∧
        ((snapshot.orientation.map value).squaredNorm = 1 →
          (snapshot.bodyAxis.map value).squaredLength = 1 ∧
          Snapshot.clampUnit snapshot.bodyAxis.z = snapshot.bodyAxis.z ∧
          snapshot.fields "angleZ" = some (Elementary.acos snapshot.bodyAxis.z)) := by
  refine ⟨conjugate_mul, scalar_turned, rotateFrom_mul, squaredLength_rotateFrom,
    squaredLength_rotateFrom_up, ?_⟩
  intro _ _ ν _ _ value exact snapshot
  constructor
  · intro turn
    rw [Snapshot.map_bodyAxis exact, map_rotate exact, snapshot.map_bodyAxis exact,
      map_mul exact, rotateFrom_mul]
  · intro unit
    have kept := snapshot.clampUnit_bodyAxis exact unit
    refine ⟨?_, kept, ?_⟩
    · rw [snapshot.map_bodyAxis exact]
      exact squaredLength_rotateFrom_up _ unit
    · change some (Elementary.acos (Snapshot.clampUnit snapshot.bodyAxis.z)) = _
      rw [kept]

def skew : Quaternion Rat := ⟨1 / 10, 3 / 10, 3 / 10, 9 / 10⟩

/-- Its body axis has height 16/25. After a half turn about the first axis, a quaternion of norm 4,
that is -64/25, and the axis is four times as long. -/
theorem Quaternion.turning_laws_skew :
    letI := Learning.plainElementary
    let turn : Quaternion Rat := ⟨0, 2, 0, 0⟩
    let snapshot : Snapshot Rat := { Snapshot.atRest with orientation := skew }
    (turn * skew).conjugate = skew.conjugate * turn.conjugate ∧
      (turn.rotateFrom 0 ⟨1, 2, 3⟩).squaredLength = 4 ^ 2 * 14 ∧
      snapshot.bodyAxis = ⟨3 / 5, 12 / 25, 16 / 25⟩ ∧ snapshot.bodyAxis.squaredLength = 1 ∧
      snapshot.fields "angleZ" = some (16 / 25) ∧
      { snapshot with orientation := turn * skew }.bodyAxis = ⟨12 / 5, -48 / 25, -64 / 25⟩ := by
  let := Learning.plainElementary
  intro turn snapshot
  obtain ⟨reversed, _, _, lengths, _, exactly⟩ := turning_laws (R := Rat)
  obtain ⟨followed, unit⟩ := exactly id Scalar.isExact_id snapshot
  have axis : snapshot.bodyAxis = ⟨3 / 5, 12 / 25, 16 / 25⟩ := by decide +kernel
  have norm : (skew.map id).squaredNorm = 1 := by decide +kernel
  have doubled : turn.squaredNorm = 4 ∧ (⟨1, 2, 3⟩ : Vector Rat).squaredLength = 14 ∧
      turn.rotate ⟨3 / 5, 12 / 25, 16 / 25⟩ = ⟨12 / 5, -48 / 25, -64 / 25⟩ := by
    decide +kernel
  obtain ⟨length, _, tilt⟩ := unit norm
  refine ⟨reversed turn skew, ?_, axis, length, ?_, ?_⟩
  · rw [lengths, doubled.1, doubled.2.1]
  · rw [tilt, axis]
    rfl
  · refine (followed turn).trans ?_
    rw [axis]
    exact doubled.2.2

end Flight

end Autoland

end QuaternionRing
