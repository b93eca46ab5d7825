import Autoland.Grid.Quantizer
import Autoland.Number.Exact
import Mathlib.Data.Rat.Floor
import Mathlib.Tactic.FieldSimp
import Mathlib.Tactic.Linarith
import Mathlib.Tactic.NormNum

/-! Grids in exact arithmetic. A value is rounded to the nearest point of the grid, the upper of
two, as long as the bucket of the point fits into 64 bits. -/

namespace Autoland.Grid

def hold (n : Int) : Int :=
  if n < -(Word.signedLimit : Int) then -Word.signedLimit
  else if Word.signedLimit ≤ n then Word.signedLimit - 1
  else n

theorem hold_of_isSigned (n : Int) (fits : Word.isSigned n = true) : hold n = n := by
  rw [Word.isSigned, Bool.and_eq_true, decide_eq_true_eq, decide_eq_true_eq] at fits
  rw [hold, if_neg (by omega), if_neg (by omega)]

theorem hold_mono (m n : Int) (below : m ≤ n) : hold m ≤ hold n := by
  have positive : 0 < Word.signedLimit := by decide
  unfold hold
  grind

theorem isSigned_hold (n : Int) : Word.isSigned (hold n) = true := by
  have positive : 0 < Word.signedLimit := by decide
  rw [Word.isSigned, Bool.and_eq_true, decide_eq_true_eq, decide_eq_true_eq]
  unfold hold
  grind

namespace Quantizer

variable (q : Quantizer Rat)

theorem value_eq (bucket : Int) : q.value bucket = bucket * q.precision + q.shift := rfl

/-- The bucket of the grid point nearest to a value, the upper of two, however far it is. -/
def nearest (value : Rat) : Int := ⌊(value - q.shift) / q.precision + 1 / 2⌋

theorem bucket_eq_hold (value : Rat) : q.bucket value = hold (q.nearest value) := by
  have half : (0.5 : Rat) = 1 / 2 := by norm_num
  change floorOfFraction ((value - q.shift) / q.precision + 0.5) = _
  rw [half]
  rfl

variable (positive : 0 < q.precision)

include positive

theorem value_le_value_iff (first second : Int) :
    q.value first ≤ q.value second ↔ first ≤ second := by
  rw [value_eq, value_eq, add_le_add_iff_right, mul_le_mul_iff_left₀ positive, Int.cast_le]

theorem nearest_mono (first second : Rat) (below : first ≤ second) :
    q.nearest first ≤ q.nearest second := by
  apply Int.floor_mono
  have shifted : first - q.shift ≤ second - q.shift := by linarith
  have scaled := div_le_div_of_nonneg_right shifted positive.le
  linarith

theorem value_nearest_bounds (value : Rat) :
    value - q.precision / 2 < q.value (q.nearest value) ∧
      q.value (q.nearest value) ≤ value + q.precision / 2 := by
  have low := Int.lt_floor_add_one ((value - q.shift) / q.precision + 1 / 2)
  have high := Int.floor_le ((value - q.shift) / q.precision + 1 / 2)
  change _ < (q.nearest value : Rat) + 1 at low
  change (q.nearest value : Rat) ≤ _ at high
  have back : (value - q.shift) / q.precision * q.precision = value - q.shift :=
    div_mul_cancel₀ _ positive.ne'
  rw [value_eq]
  constructor
  · nlinarith
  · nlinarith

theorem nearest_value (bucket : Int) : q.nearest (q.value bucket) = bucket := by
  rw [nearest, value_eq, add_sub_cancel_right, mul_div_cancel_right₀ _ positive.ne',
    Int.floor_eq_iff]
  constructor
  · linarith
  · linarith

/-- The value of each bucket that 64 bits hold belongs to that bucket. -/
theorem bucket_value (bucket : Int) (fits : Word.isSigned bucket = true) :
    q.bucket (q.value bucket) = bucket := by
  rw [bucket_eq_hold, nearest_value q positive, hold_of_isSigned bucket fits]

theorem snap_value (bucket : Int) (fits : Word.isSigned bucket = true) :
    q.snap (q.value bucket) = q.value bucket := by
  rw [snap, bucket_value q positive bucket fits]

theorem bucket_snap (value : Rat) : q.bucket (q.snap value) = q.bucket value := by
  have fits : Word.isSigned (q.bucket value) = true := by
    rw [bucket_eq_hold]
    exact isSigned_hold _
  exact bucket_value q positive (q.bucket value) fits

theorem snap_snap (value : Rat) : q.snap (q.snap value) = q.snap value :=
  congrArg q.value (bucket_snap q positive value)

theorem bucket_mono (first second : Rat) (below : first ≤ second) :
    q.bucket first ≤ q.bucket second := by
  rw [bucket_eq_hold, bucket_eq_hold]
  exact hold_mono _ _ (nearest_mono q positive first second below)

theorem lt_snap (value : Rat) (below : q.nearest value < Word.signedLimit) :
    value - q.precision / 2 < q.snap value := by
  refine (value_nearest_bounds q positive value).1.trans_le ?_
  rw [snap, value_le_value_iff q positive, bucket_eq_hold, hold]
  split
  · omega
  · rw [if_neg (by omega)]

theorem snap_le (value : Rat) (above : -(Word.signedLimit : Int) ≤ q.nearest value) :
    q.snap value ≤ value + q.precision / 2 := by
  refine le_trans ?_ (value_nearest_bounds q positive value).2
  rw [snap, value_le_value_iff q positive, bucket_eq_hold, hold, if_neg (by omega)]
  split
  · omega
  · exact le_rfl

/-- A value is at most half a precision away from the value of its bucket, if 64 bits hold that. -/
theorem abs_value_bucket_sub_le (value : Rat) (fits : Word.isSigned (q.nearest value) = true) :
    |q.value (q.bucket value) - value| ≤ q.precision / 2 := by
  obtain ⟨low, high⟩ := value_nearest_bounds q positive value
  rw [bucket_eq_hold, hold_of_isSigned _ fits, abs_le]
  constructor
  · linarith
  · linarith

end Quantizer

theorem walkUp_nonneg (precision : Rat) (steps : Nat) (current : Rat) :
    0 ≤ walkUp precision steps current := by
  have zero : (0.0 : Rat) = 0 := by norm_num
  induction steps generalizing current with
  | zero =>
      simp only [walkUp, zero]
      split
      · split
        · exact le_rfl
        · split
          · exact le_rfl
          · exact not_lt.mp (by assumption)
      · exact not_lt.mp (by assumption)
  | succ steps ih =>
      simp only [walkUp, zero]
      split
      · split
        · exact le_rfl
        · exact ih _
      · exact not_lt.mp (by assumption)

theorem walkUp_of_nonneg (precision : Rat) (steps : Nat) (current : Rat) (ended : 0 ≤ current) :
    walkUp precision steps current = current := by
  have zero : (0.0 : Rat) = 0 := by norm_num
  cases steps <;> simp only [walkUp, zero, if_neg ended.not_gt]

variable (least precision : Rat) (positive : 0 < precision)

include positive

theorem rangeShift_eq : rangeShift least precision = walkUp precision walkLimit least := by
  have zero : (0.0 : Rat) = 0 := by norm_num
  rw [rangeShift, zero, if_pos]
  rw [Bool.and_eq_true, decide_eq_true_eq]
  exact ⟨positive, rfl⟩

theorem le_rangeShift : least ≤ rangeShift least precision := by
  rw [rangeShift_eq least precision positive]
  rcases le_or_gt 0 least with natural | negative
  · rw [walkUp_of_nonneg _ _ _ natural]
  · exact negative.le.trans (walkUp_nonneg _ _ _)

theorem rangeShift_of_nonneg (natural : 0 ≤ least) : rangeShift least precision = least := by
  rw [rangeShift_eq least precision positive, walkUp_of_nonneg _ _ _ natural]

theorem nearest_le_zero : (Quantizer.forRange least precision).nearest least ≤ 0 := by
  have below := le_rangeShift least precision positive
  have quotient : (least - rangeShift least precision) / precision ≤ 0 :=
    div_nonpos_of_nonpos_of_nonneg (by linarith) positive.le
  rw [Quantizer.nearest, ← Int.lt_add_one_iff, Int.floor_lt]
  change (least - rangeShift least precision) / precision + 1 / 2 < _
  push_cast
  linarith

theorem snap_of_nonneg (natural : 0 ≤ least) :
    (Quantizer.forRange least precision).snap least = least := by
  have zeroth : (Quantizer.forRange least precision).value 0 = least := by
    change ((0 : Int) : Rat) * precision + rangeShift least precision = least
    rw [rangeShift_of_nonneg least precision positive natural]
    simp
  have kept := Quantizer.snap_value (Quantizer.forRange least precision) positive 0 (by decide)
  rwa [zeroth] at kept

end Autoland.Grid
