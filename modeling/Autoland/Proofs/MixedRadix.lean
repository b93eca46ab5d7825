import Autoland.Grid.Layout
import Mathlib.Data.List.Forall2
import Mathlib.Data.Set.Function
import Mathlib.Tactic

/-! Table indices as mixed-radix numbers. The weight of a digit is the number of indices of the
fields after it, so that an index and the clamped buckets determine each other. -/

namespace Autoland.Grid

namespace FieldRange

def Holds (range : FieldRange) (bucket : Int) : Prop := range.min ≤ bucket ∧ bucket ≤ range.max

instance (range : FieldRange) (bucket : Int) : Decidable (range.Holds bucket) :=
  inferInstanceAs (Decidable (_ ∧ _))

/-- There is a bucket, and a word holds the number of buckets. -/
def Regular (range : FieldRange) : Prop :=
  range.min ≤ range.max ∧ range.max - range.min + 1 < Word.limit

theorem holds_clamp (range : FieldRange) (nonempty : range.min ≤ range.max) (bucket : Int) :
    range.Holds (range.clamp bucket) := by
  unfold Holds clamp
  split
  · omega
  · split <;> omega

theorem clamp_of_holds (range : FieldRange) (bucket : Int) (inside : range.Holds bucket) :
    range.clamp bucket = bucket := by
  rcases inside with ⟨low, high⟩
  rw [clamp, if_neg (by omega), if_neg (by omega)]

theorem digits_of_regular (range : FieldRange) (regular : range.Regular) :
    (range.digits : Int) = range.max - range.min + 1 := by
  rcases regular with ⟨nonempty, counted⟩
  rw [digits, if_pos counted]
  omega

theorem digits_positive (range : FieldRange) (nonempty : range.min ≤ range.max) :
    0 < range.digits := by
  unfold digits
  split
  · omega
  · decide

theorem digits_of_not_regular (range : FieldRange) (nonempty : range.min ≤ range.max)
    (irregular : ¬ range.Regular) : range.digits = Word.limit - 1 := by
  have uncounted : ¬ range.max - range.min + 1 < Word.limit := by
    intro counted
    exact irregular ⟨nonempty, counted⟩
  rw [digits, if_neg uncounted]

theorem min_add_digit (range : FieldRange) (nonempty : range.min ≤ range.max) (bucket : Int) :
    range.min + range.digit bucket = range.clamp bucket := by
  have inside := range.holds_clamp nonempty bucket
  unfold digit
  unfold Holds at inside
  omega

theorem digit_lt_digits (range : FieldRange) (regular : range.Regular) (bucket : Int) :
    range.digit bucket < range.digits := by
  have sum := range.min_add_digit regular.1 bucket
  have inside := range.holds_clamp regular.1 bucket
  have count := range.digits_of_regular regular
  unfold Holds at inside
  omega

theorem holds_offset (range : FieldRange) (regular : range.Regular) (offset : Nat)
    (below : offset < range.digits) : range.Holds (range.min + offset) := by
  have count := range.digits_of_regular regular
  unfold Holds
  omega

theorem digit_offset (range : FieldRange) (regular : range.Regular) (offset : Nat)
    (below : offset < range.digits) : range.digit (range.min + offset) = offset := by
  rw [digit, range.clamp_of_holds _ (range.holds_offset regular offset below)]
  omega

theorem digit_lt_digit_iff (range : FieldRange) (nonempty : range.min ≤ range.max)
    (left right : Int) :
    range.digit left < range.digit right ↔ range.clamp left < range.clamp right := by
  have first := range.min_add_digit nonempty left
  have second := range.min_add_digit nonempty right
  omega

theorem digit_eq_digit_iff (range : FieldRange) (nonempty : range.min ≤ range.max)
    (left right : Int) :
    range.digit left = range.digit right ↔ range.clamp left = range.clamp right := by
  have first := range.min_add_digit nonempty left
  have second := range.min_add_digit nonempty right
  omega

theorem mem_buckets (range : FieldRange) (bucket : Int) :
    bucket ∈ range.buckets ↔ range.Holds bucket := by
  simp only [buckets, List.mem_map, List.mem_range, Holds]
  constructor
  · intro listed
    rcases listed with ⟨offset, below, rfl⟩
    omega
  · intro inside
    rcases inside with ⟨low, high⟩
    exact ⟨(bucket - range.min).toNat, by omega, by omega⟩

theorem nodup_buckets (range : FieldRange) : range.buckets.Nodup := by
  refine List.nodup_range.map fun first second same => ?_
  omega

end FieldRange

def volume : List FieldRange → Nat
  | [] => 1
  | range :: ranges => volume ranges * range.digits

def tailVolumes : List FieldRange → List Nat
  | [] => []
  | _ :: ranges => volume ranges :: tailVolumes ranges

def clampAll : List FieldRange → List Int → List Int := List.zipWith FieldRange.clamp

abbrev Within : List FieldRange → List Int → Prop := List.Forall₂ FieldRange.Holds

abbrev Nonempty (ranges : List FieldRange) : Prop := ∀ range ∈ ranges, range.min ≤ range.max

abbrev Regular (ranges : List FieldRange) : Prop := ∀ range ∈ ranges, range.Regular

theorem volume_positive (ranges : List FieldRange) (nonempty : Nonempty ranges) :
    0 < volume ranges := by
  induction ranges with
  | nil => decide
  | cons range ranges ih =>
      replace nonempty := List.forall_mem_cons.mp nonempty
      exact Nat.mul_pos (ih nonempty.2) (range.digits_positive nonempty.1)

theorem length_clampAll (ranges : List FieldRange) (buckets : List Int)
    (fits : buckets.length = ranges.length) : (clampAll ranges buckets).length = ranges.length := by
  rw [clampAll, List.length_zipWith, fits, Nat.min_self]

theorem clampAll_map (ranges : List FieldRange) (read : FieldRange → Int) :
    clampAll ranges (ranges.map read) = ranges.map fun range => range.clamp (read range) := by
  rw [clampAll, List.zipWith_map_right, List.zipWith_self]

theorem clampAll_append (front back : List FieldRange) (left right : List Int)
    (fits : left.length = front.length) :
    clampAll (front ++ back) (left ++ right) = clampAll front left ++ clampAll back right := by
  exact List.zipWith_append fits.symm

theorem clampAll_of_within (ranges : List FieldRange) (buckets : List Int)
    (within : Within ranges buckets) : clampAll ranges buckets = buckets := by
  induction within with
  | nil => rfl
  | cons inside _ ih =>
      rw [clampAll, List.zipWith_cons_cons, FieldRange.clamp_of_holds _ _ inside]
      exact congrArg _ ih

namespace Layout

theorem sumDigits_lt (ranges : List FieldRange) (regular : Regular ranges) (buckets : List Int) :
    sumDigits ranges (tailVolumes ranges) buckets < volume ranges := by
  induction ranges generalizing buckets with
  | nil => simp [sumDigits, volume]
  | cons range ranges ih =>
      replace regular := List.forall_mem_cons.mp regular
      have positive := volume_positive ranges fun inner member => (regular.2 inner member).1
      cases buckets with
      | nil =>
          rw [sumDigits, volume]
          · exact Nat.mul_pos positive (range.digits_positive regular.1.1)
          · simp
      | cons bucket buckets =>
          have tail := ih regular.2 buckets
          have digit := range.digit_lt_digits regular.1 bucket
          rw [tailVolumes, sumDigits, volume, Nat.mul_comm (volume ranges)]
          calc
            range.digit bucket * volume ranges + sumDigits ranges (tailVolumes ranges) buckets <
                range.digit bucket * volume ranges + volume ranges := by omega
            _ = (range.digit bucket + 1) * volume ranges := by ring
            _ ≤ range.digits * volume ranges := Nat.mul_le_mul_right _ digit

theorem takeDigits_sumDigits (ranges : List FieldRange) (regular : Regular ranges)
    (buckets : List Int) (fits : buckets.length = ranges.length) :
    takeDigits ranges (tailVolumes ranges) (sumDigits ranges (tailVolumes ranges) buckets) =
      clampAll ranges buckets := by
  induction ranges generalizing buckets with
  | nil =>
      rw [List.length_nil, List.length_eq_zero_iff] at fits
      subst fits
      rfl
  | cons range ranges ih =>
      replace regular := List.forall_mem_cons.mp regular
      cases buckets with
      | nil => cases fits
      | cons bucket buckets =>
          have tail := sumDigits_lt ranges regular.2 buckets
          have positive : 0 < volume ranges := Nat.zero_lt_of_lt tail
          rw [tailVolumes, sumDigits, takeDigits]
          rw [Nat.mul_comm, Nat.mul_add_div positive, Nat.mul_add_mod, Nat.div_eq_of_lt tail,
            Nat.mod_eq_of_lt tail, Nat.add_zero, range.min_add_digit regular.1.1,
            ih regular.2 buckets (Nat.succ.inj fits)]
          rfl

theorem within_takeDigits (ranges : List FieldRange) (regular : Regular ranges) (index : Nat)
    (below : index < volume ranges) :
    Within ranges (takeDigits ranges (tailVolumes ranges) index) := by
  induction ranges generalizing index with
  | nil => exact .nil
  | cons range ranges ih =>
      replace regular := List.forall_mem_cons.mp regular
      have positive := volume_positive ranges fun inner member => (regular.2 inner member).1
      rw [volume, Nat.mul_comm] at below
      refine .cons (range.holds_offset regular.1 _ ?_) (ih regular.2 _ (Nat.mod_lt _ positive))
      exact (Nat.div_lt_iff_lt_mul positive).mpr below

theorem sumDigits_takeDigits (ranges : List FieldRange) (regular : Regular ranges) (index : Nat)
    (below : index < volume ranges) :
    sumDigits ranges (tailVolumes ranges) (takeDigits ranges (tailVolumes ranges) index) =
      index := by
  induction ranges generalizing index with
  | nil =>
      rw [volume] at below
      rw [takeDigits, sumDigits]
      · omega
      · simp
      · simp
  | cons range ranges ih =>
      replace regular := List.forall_mem_cons.mp regular
      have positive := volume_positive ranges fun inner member => (regular.2 inner member).1
      rw [volume, Nat.mul_comm] at below
      have digit : index / volume ranges < range.digits :=
        (Nat.div_lt_iff_lt_mul positive).mpr below
      rw [tailVolumes, takeDigits, sumDigits, range.digit_offset regular.1 _ digit,
        ih regular.2 _ (Nat.mod_lt _ positive), Nat.mul_comm]
      exact Nat.div_add_mod index (volume ranges)

theorem digit_add_lt_iff (size first second low high : Nat) (left : low < size)
    (right : high < size) :
    first * size + low < second * size + high ↔ first < second ∨ first = second ∧ low < high := by
  rcases Nat.lt_trichotomy first second with less | same | more
  · have step := Nat.mul_le_mul_right size (Nat.succ_le_of_lt less)
    rw [Nat.succ_mul] at step
    omega
  · subst same
    omega
  · have step := Nat.mul_le_mul_right size (Nat.succ_le_of_lt more)
    rw [Nat.succ_mul] at step
    omega

theorem sumDigits_lt_iff (ranges : List FieldRange) (regular : Regular ranges)
    (left right : List Int) (first : left.length = ranges.length)
    (second : right.length = ranges.length) :
    sumDigits ranges (tailVolumes ranges) left < sumDigits ranges (tailVolumes ranges) right ↔
      clampAll ranges left < clampAll ranges right := by
  induction ranges generalizing left right with
  | nil =>
      rw [List.length_nil, List.length_eq_zero_iff] at first second
      subst first second
      simp [clampAll]
  | cons range ranges ih =>
      replace regular := List.forall_mem_cons.mp regular
      cases left with
      | nil => cases first
      | cons bucket left =>
          cases right with
          | nil => cases second
          | cons other right =>
              have tail := ih regular.2 left right (Nat.succ.inj first) (Nat.succ.inj second)
              have leading := range.digit_lt_digit_iff regular.1.1 bucket other
              have alike := range.digit_eq_digit_iff regular.1.1 bucket other
              simp only [tailVolumes, sumDigits, clampAll, List.zipWith_cons_cons,
                List.cons_lt_cons_iff]
              rw [digit_add_lt_iff _ _ _ _ _ (sumDigits_lt ranges regular.2 left)
                (sumDigits_lt ranges regular.2 right), leading, alike, tail]
              rfl

theorem sumDigits_congr (ranges : List FieldRange) (weights : List Nat) (left right : List Int)
    (first : left.length = ranges.length) (second : right.length = ranges.length)
    (same : clampAll ranges left = clampAll ranges right) :
    sumDigits ranges weights left = sumDigits ranges weights right := by
  induction ranges generalizing weights left right with
  | nil => rw [sumDigits, sumDigits] <;> simp
  | cons range ranges ih =>
      cases left with
      | nil => cases first
      | cons bucket left =>
          cases right with
          | nil => cases second
          | cons other right =>
              simp only [clampAll, List.zipWith_cons_cons, List.cons.injEq] at same
              cases weights with
              | nil => rfl
              | cons weight weights =>
                  have tail := ih weights left right (Nat.succ.inj first) (Nat.succ.inj second)
                    same.2
                  rw [sumDigits, sumDigits, tail, FieldRange.digit, FieldRange.digit, same.1]

/-- A range with more buckets than a word holds leaves no room for a second bucket elsewhere. -/
theorem digits_eq_one (range : FieldRange) (ranges : List FieldRange)
    (nonempty : Nonempty (range :: ranges)) (counted : volume (range :: ranges) < Word.limit)
    (irregular : ¬ Regular ranges) : range.digits = 1 := by
  have positive := range.digits_positive (List.forall_mem_cons.mp nonempty).1
  have large : Word.limit - 1 ≤ volume ranges := by
    replace nonempty := (List.forall_mem_cons.mp nonempty).2
    clear counted positive
    induction ranges with
    | nil => exact (irregular fun _ member => (List.not_mem_nil member).elim).elim
    | cons inner ranges ih =>
        replace nonempty := List.forall_mem_cons.mp nonempty
        rw [volume]
        by_cases head : inner.Regular
        · have rest : ¬ Regular ranges := by
            intro regular
            exact irregular (List.forall_mem_cons.mpr ⟨head, regular⟩)
          exact Nat.le_trans (ih rest nonempty.2)
            (Nat.le_mul_of_pos_right _ (inner.digits_positive nonempty.1))
        · rw [inner.digits_of_not_regular nonempty.1 head]
          exact Nat.le_mul_of_pos_left _ (volume_positive ranges nonempty.2)
  by_contra several
  have double : (Word.limit - 1) * 2 ≤ volume ranges * range.digits :=
    Nat.mul_le_mul large (by omega)
  rw [volume] at counted
  have bound : Word.limit ≤ (Word.limit - 1) * 2 := by decide
  omega

theorem clamp_eq_of_digits_eq_one (range : FieldRange) (nonempty : range.min ≤ range.max)
    (single : range.digits = 1) (left right : Int) : range.clamp left = range.clamp right := by
  by_cases regular : range.Regular
  · have count := range.digits_of_regular regular
    have first := range.holds_clamp nonempty left
    have second := range.holds_clamp nonempty right
    unfold FieldRange.Holds at first second
    omega
  · have count := range.digits_of_not_regular nonempty regular
    rw [single] at count
    exact absurd count (by decide)

/-- Digits of one accepted layout determine the clamped buckets, whether or not a word counts the
buckets of every field. -/
theorem clampAll_eq_of_sumDigits_eq (ranges : List FieldRange) (nonempty : Nonempty ranges)
    (counted : volume ranges < Word.limit) (left right : List Int)
    (first : left.length = ranges.length) (second : right.length = ranges.length)
    (same : sumDigits ranges (tailVolumes ranges) left =
      sumDigits ranges (tailVolumes ranges) right) :
    clampAll ranges left = clampAll ranges right := by
  induction ranges generalizing left right with
  | nil => rfl
  | cons range ranges ih =>
      have head := (List.forall_mem_cons.mp nonempty).1
      have rest := (List.forall_mem_cons.mp nonempty).2
      have inner : volume ranges < Word.limit := by
        refine Nat.lt_of_le_of_lt ?_ counted
        exact Nat.le_mul_of_pos_right _ (range.digits_positive head)
      cases left with
      | nil => cases first
      | cons bucket left =>
          cases right with
          | nil => cases second
          | cons other right =>
              replace first := Nat.succ.inj first
              replace second := Nat.succ.inj second
              simp only [tailVolumes, sumDigits] at same
              simp only [clampAll, List.zipWith_cons_cons, List.cons.injEq]
              by_cases regular : Regular ranges
              · have low := sumDigits_lt ranges regular left
                have high := sumDigits_lt ranges regular right
                have below := digit_add_lt_iff _ (range.digit bucket) (range.digit other) _ _
                  low high
                have above := digit_add_lt_iff _ (range.digit other) (range.digit bucket) _ _
                  high low
                have digit : range.digit bucket = range.digit other := by omega
                rw [digit] at same
                exact ⟨(range.digit_eq_digit_iff head _ _).mp digit,
                  ih rest inner left right first second (Nat.add_left_cancel same)⟩
              · -- the leading field has a single bucket, so that it adds the same to both sides
                have single := digits_eq_one range ranges nonempty counted regular
                have clamped := clamp_eq_of_digits_eq_one range head single bucket other
                rw [(range.digit_eq_digit_iff head _ _).mpr clamped] at same
                exact ⟨clamped, ih rest inner left right first second (Nat.add_left_cancel same)⟩

theorem le_sumDigits_highest (ranges : List FieldRange) (nonempty : Nonempty ranges) :
    volume ranges ≤ sumDigits ranges (tailVolumes ranges) (ranges.map (·.max)) + 1 ∧
      (¬ Regular ranges →
        volume ranges ≤ sumDigits ranges (tailVolumes ranges) (ranges.map (·.max))) := by
  induction ranges with
  | nil => exact ⟨le_rfl, fun irregular => (irregular fun _ member => nomatch member).elim⟩
  | cons range ranges ih =>
      rcases List.forall_mem_cons.mp nonempty with ⟨head, rest⟩
      rcases ih rest with ⟨last, past⟩
      have positive := volume_positive ranges rest
      have digits := range.digits_positive head
      have highest : range.clamp range.max = range.max := range.clamp_of_holds _ ⟨head, le_rfl⟩
      have digit : range.digit range.max = (range.max - range.min).toNat := by
        rw [FieldRange.digit, highest]
      rw [List.map_cons, tailVolumes, sumDigits, volume, Nat.mul_comm, digit]
      by_cases regular : range.Regular
      · have count := range.digits_of_regular regular
        have split : range.digits = (range.max - range.min).toNat + 1 := by omega
        rw [split, Nat.succ_mul]
        refine ⟨by omega, ?_⟩
        intro irregular
        have inner : ¬ Regular ranges := by
          intro narrow
          exact irregular (List.forall_mem_cons.mpr ⟨regular, narrow⟩)
        have reached := past inner
        omega
      · have count := range.digits_of_not_regular head regular
        have wide : range.digits ≤ (range.max - range.min).toNat := by
          unfold FieldRange.Regular at regular
          omega
        have scaled := Nat.mul_le_mul_right (volume ranges) wide
        exact ⟨by omega, fun _ => by omega⟩

end Layout

end Autoland.Grid
