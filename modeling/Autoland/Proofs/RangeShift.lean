import Autoland.Proofs.ExactGrids

/-! The walk that finds the value of bucket 0, in exact arithmetic. The walk ends at zero as soon as
it passes just below an integer, whatever the precision; only then can the lower bound of a field
miss its grid. -/

namespace Autoland.Grid

def BelowInteger (precision value : Rat) : Prop :=
  ∃ integer : Int, value ≤ integer ∧ integer - value < precision / 10

/-- One of the points that a walk of at most `limit` steps passes is negative and next to an
integer. -/
def StopsWithin (precision : Rat) (limit : Nat) (start : Rat) : Prop :=
  ∃ steps ≤ limit, start + steps * precision < 0 ∧
    BelowInteger precision (start + steps * precision)

def Quantizer.Meets (q : Quantizer Rat) (slack value : Rat) : Prop :=
  ∃ bucket : Int, |value - q.value bucket| ≤ slack

theorem trunc_of_negative (value : Rat) (negative : value < 0) :
    Scalar.trunc value = (value.ceil : Rat) :=
  if_pos negative

theorem abs_of_nonpos (value : Rat) (nonpos : value ≤ 0) : Scalar.abs value = -value := by
  change (if value < 0 then -value else value) = -value
  split
  · rfl
  · linarith

theorem nearInteger_iff (value precision : Rat) (negative : value < 0) :
    nearInteger value precision = true ↔ BelowInteger precision value := by
  have tenth : (0.1 : Rat) * precision = precision / 10 := by ring
  have below : value - (value.ceil : Rat) ≤ 0 := sub_nonpos.mpr Rat.le_ceil
  rw [nearInteger, decide_eq_true_eq, trunc_of_negative value negative, abs_of_nonpos _ below,
    neg_sub, tenth]
  constructor
  · intro close
    exact ⟨value.ceil, Rat.le_ceil, close⟩
  · rintro ⟨integer, above, close⟩
    have least : (value.ceil : Rat) ≤ integer := Int.cast_le.mpr (Rat.ceil_le_iff.mpr above)
    linarith

/-- Where a walk of at most `limit` steps ends, by the cases of its first step. -/
inductive Walks (precision : Rat) : Nat → Rat → Rat → Prop where
  | ended {limit current} (natural : 0 ≤ current) : Walks precision limit current current
  | stop {limit current} (negative : current < 0) (near : BelowInteger precision current) :
    Walks precision limit current 0
  | jump {current} (negative : current < 0) (far : ¬BelowInteger precision current) :
    Walks precision 0 current (current + (-current / precision).ceil * precision)
  | step {limit current reached} (negative : current < 0) (far : ¬BelowInteger precision current)
    (onward : Walks precision limit (current + precision) reached) :
    Walks precision (limit + 1) current reached

section Walk

variable {precision : Rat}

/-- The points of a walk after its first step are those of a walk that starts there. -/
theorem add_step (current : Rat) (steps : Nat) :
    current + precision + steps * precision = current + (steps + 1 : Nat) * precision := by
  push_cast
  ring

theorem add_no_step (current : Rat) : current + (0 : Nat) * precision = current := by
  rw [Nat.cast_zero, zero_mul, add_zero]

variable (positive : 0 < precision)

include positive

theorem jump_bounds (current : Rat) :
    0 ≤ current + (-current / precision).ceil * precision ∧
      current + (-current / precision).ceil * precision < precision := by
  have above : -current / precision ≤ (-current / precision).ceil := Rat.le_ceil
  have below : ((-current / precision).ceil : Rat) < -current / precision + 1 := Rat.ceil_lt
  have back : -current / precision * precision = -current := div_mul_cancel₀ _ positive.ne'
  constructor
  · nlinarith
  · nlinarith

theorem walks_walkUp (limit : Nat) (start : Rat) :
    Walks precision limit start (walkUp precision limit start) := by
  have zero : (0.0 : Rat) = 0 := by norm_num
  induction limit generalizing start with
  | zero =>
      rcases le_or_gt 0 start with natural | negative
      · rw [walkUp_of_nonneg _ _ _ natural]
        exact .ended natural
      · have near_iff := nearInteger_iff start precision negative
        have forward := (jump_bounds positive start).1
        simp only [walkUp, zero, if_pos negative]
        split
        · exact .stop negative (near_iff.mp (by assumption))
        · rw [if_neg]
          · exact .jump negative (mt near_iff.mpr (by assumption))
          · exact forward.not_gt
  | succ limit ih =>
      rcases le_or_gt 0 start with natural | negative
      · rw [walkUp_of_nonneg _ _ _ natural]
        exact .ended natural
      · have near_iff := nearInteger_iff start precision negative
        simp only [walkUp, zero, if_pos negative]
        split
        · exact .stop negative (near_iff.mp (by assumption))
        · exact .step negative (mt near_iff.mpr (by assumption)) (ih _)

theorem Walks.of_stopsWithin {limit : Nat} {start reached : Rat}
    (walks : Walks precision limit start reached) (stops : StopsWithin precision limit start) :
    reached = 0 := by
  induction walks with
  | @ended limit current natural =>
      obtain ⟨steps, _, negative, _⟩ := stops
      have travelled : 0 ≤ (steps : Rat) * precision :=
        mul_nonneg (Nat.cast_nonneg steps) positive.le
      linarith
  | stop => rfl
  | @jump current negative far =>
      obtain ⟨steps, within, _, near⟩ := stops
      obtain rfl := Nat.le_zero.mp within
      rw [add_no_step] at near
      exact absurd near far
  | @step limit current reached negative far onward ih =>
      obtain ⟨steps, within, before, near⟩ := stops
      cases steps with
      | zero =>
          rw [add_no_step] at near
          exact absurd near far
      | succ steps =>
          rw [← add_step] at before near
          exact ih ⟨steps, Nat.le_of_succ_le_succ within, before, near⟩

omit positive in
theorem Walks.of_not_stopsWithin {limit : Nat} {start reached : Rat}
    (walks : Walks precision limit start reached) (goes : ¬StopsWithin precision limit start) :
    ∃ count : Int, reached = start + count * precision := by
  induction walks with
  | ended => exact ⟨0, by rw [Int.cast_zero, zero_mul, add_zero]⟩
  | @stop limit current negative near =>
      refine absurd ⟨0, Nat.zero_le limit, ?_⟩ goes
      rw [add_no_step]
      exact ⟨negative, near⟩
  | jump => exact ⟨_, rfl⟩
  | @step limit current reached negative far onward ih =>
      have later : ¬StopsWithin precision limit (current + precision) := by
        rintro ⟨steps, within, before, near⟩
        rw [add_step] at before near
        exact goes ⟨steps + 1, Nat.succ_le_succ within, before, near⟩
      obtain ⟨count, same⟩ := ih later
      refine ⟨count + 1, ?_⟩
      rw [same]
      push_cast
      ring

theorem Walks.lt {limit : Nat} {start reached : Rat} (walks : Walks precision limit start reached)
    (below : start < precision) : reached < precision := by
  induction walks with
  | ended => exact below
  | stop => exact positive
  | @jump current negative far => exact (jump_bounds positive current).2
  | step negative far onward ih => exact ih (by linarith)

end Walk

def Stops (least precision : Rat) : Prop := StopsWithin precision walkLimit least

theorem stops_of_integer (integer : Int) (negative : integer < 0) (precision : Rat)
    (positive : 0 < precision) : Stops integer precision := by
  refine ⟨0, Nat.zero_le walkLimit, ?_⟩
  rw [add_no_step]
  refine ⟨Int.cast_lt_zero.mpr negative, integer, le_rfl, ?_⟩
  rw [sub_self]
  positivity

section Bound

variable (least precision : Rat) (positive : 0 < precision)

include positive

theorem rangeShift_of_stops (stops : Stops least precision) : rangeShift least precision = 0 := by
  rw [rangeShift_eq least precision positive]
  exact (walks_walkUp positive walkLimit least).of_stopsWithin positive stops

theorem exists_value_of_not_stops (goes : ¬Stops least precision) :
    ∃ bucket : Int, least = (Quantizer.forRange least precision).value bucket := by
  obtain ⟨count, reached⟩ := (walks_walkUp positive walkLimit least).of_not_stopsWithin goes
  refine ⟨-count, ?_⟩
  change least = (-count : Int) * precision + rangeShift least precision
  rw [rangeShift_eq least precision positive, reached]
  push_cast
  ring

theorem rangeShift_lt (negative : least < 0) : rangeShift least precision < precision := by
  rw [rangeShift_eq least precision positive]
  exact (walks_walkUp positive walkLimit least).lt positive (negative.trans positive)

theorem rangeShift_nonneg : 0 ≤ rangeShift least precision := by
  rw [rangeShift_eq least precision positive]
  exact walkUp_nonneg precision walkLimit least

theorem forRange_of_stops (stops : Stops least precision) :
    Quantizer.forRange least precision = ⟨precision, 0⟩ := by
  rw [Quantizer.forRange, rangeShift_of_stops least precision positive stops]

/-- Multiples of the precision that pass through the integers also pass by each lower bound the walk
from which stops. -/
theorem meets_of_stops (parts : Nat) (whole : parts * precision = 1)
    (stops : Stops least precision) :
    (Quantizer.forRange least precision).Meets (precision / 10) least := by
  rw [forRange_of_stops least precision positive stops]
  obtain ⟨steps, -, -, integer, above, near⟩ := stops
  have value : (integer * parts - steps : Int) * precision + 0 =
      integer * (parts * precision) - steps * precision := by
    push_cast
    ring
  refine ⟨integer * parts - steps, ?_⟩
  rw [Quantizer.value_eq, value, whole, abs_le]
  constructor
  · linarith
  · linarith

theorem meets_of_not_stops (goes : ¬Stops least precision) :
    (Quantizer.forRange least precision).Meets (precision / 10) least := by
  obtain ⟨bucket, reached⟩ := exists_value_of_not_stops least precision positive goes
  refine ⟨bucket, ?_⟩
  rw [← reached, sub_self, abs_zero]
  positivity

/-- The lower bound of a field lies within a tenth of the precision of its grid, unless the walk
from it stops below an integer. The grid is then that of the multiples of the precision, which may
be far from the bound; it is near if the multiples pass through the integers. -/
theorem rangeShift_meets_grid :
    0 ≤ rangeShift least precision ∧
      (least < 0 → rangeShift least precision < precision) ∧
      (Stops least precision → rangeShift least precision = 0) ∧
      (¬Stops least precision →
        ∃ bucket : Int, least = (Quantizer.forRange least precision).value bucket) ∧
      ((Quantizer.forRange least precision).Meets (precision / 10) least ↔
        (Stops least precision → Quantizer.Meets ⟨precision, 0⟩ (precision / 10) least)) ∧
      ∀ parts : Nat, parts * precision = 1 →
        (Quantizer.forRange least precision).Meets (precision / 10) least := by
  refine ⟨rangeShift_nonneg least precision positive, rangeShift_lt least precision positive,
    rangeShift_of_stops least precision positive,
    exists_value_of_not_stops least precision positive, ?_, ?_⟩
  · constructor
    · intro meets stops
      rwa [forRange_of_stops least precision positive stops] at meets
    · intro given
      by_cases stops : Stops least precision
      · rw [forRange_of_stops least precision positive stops]
        exact given stops
      · exact meets_of_not_stops least precision positive stops
  · intro parts whole
    by_cases stops : Stops least precision
    · exact meets_of_stops least precision positive parts whole stops
    · exact meets_of_not_stops least precision positive stops

end Bound

/-- From -1 in steps of 3/4 the shift is zero, though the multiples of 3/4 next to -1 are -3/4 and
-3/2. -/
theorem rangeShift_meets_grid_three_quarters :
    rangeShift (-1 : Rat) (3 / 4) = 0 ∧
      ¬(Quantizer.forRange (-1) (3 / 4)).Meets (3 / 4 / 10) (-1) := by
  have stops : Stops (-1) (3 / 4) := by
    have integral := stops_of_integer (-1) (by decide) (3 / 4) (by norm_num)
    rwa [Int.cast_neg, Int.cast_one] at integral
  obtain ⟨-, -, zero, -, near, -⟩ := rangeShift_meets_grid (-1) (3 / 4) (by norm_num)
  refine ⟨zero stops, fun meets => ?_⟩
  obtain ⟨bucket, within⟩ := near.mp meets stops
  rw [Quantizer.value_eq, abs_le] at within
  have low : (30 * bucket : Rat) ≤ -37 := by linarith [within.1]
  have high : (-43 : Rat) ≤ 30 * bucket := by linarith [within.2]
  have lowInt : 30 * bucket ≤ -37 := by exact_mod_cast low
  have highInt : -43 ≤ 30 * bucket := by exact_mod_cast high
  omega

end Autoland.Grid
