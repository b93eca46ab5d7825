import Autoland.Number.Binary
import Autoland.Proofs.TableIndex
import Autoland.Table.Store

/-! How large tables are, against the exact number of bucket combinations. A word counts one bucket
too few of a field whose buckets are all signed words, and of no other field. -/

namespace Autoland.Grid

namespace FieldRange

/-- How many buckets there are, however many a word holds. -/
def bucketCount (range : FieldRange) : Nat := (range.max - range.min + 1).toNat

def InWords (range : FieldRange) : Prop :=
  -(Word.signedLimit : Int) ≤ range.min ∧ range.max < Word.signedLimit

instance (range : FieldRange) : Decidable range.InWords := inferInstanceAs (Decidable (_ ∧ _))

def Full (range : FieldRange) : Prop :=
  range.min = -(Word.signedLimit : Int) ∧ range.max = Word.signedLimit - 1

theorem bucketCount_positive (range : FieldRange) (nonempty : range.min ≤ range.max) :
    0 < range.bucketCount := by
  unfold bucketCount
  omega

theorem digits_le_bucketCount (range : FieldRange) : range.digits ≤ range.bucketCount := by
  unfold digits bucketCount
  split <;> omega

theorem digits_eq_bucketCount (range : FieldRange) (regular : range.Regular) :
    range.digits = range.bucketCount := by
  have count := range.digits_of_regular regular
  unfold bucketCount
  omega

theorem digits_eq_one_iff (range : FieldRange) (nonempty : range.min ≤ range.max) :
    range.digits = 1 ↔ range.bucketCount = 1 := by
  unfold digits bucketCount Word.limit
  split <;> omega

theorem full_of_not_regular (range : FieldRange) (words : range.InWords)
    (nonempty : range.min ≤ range.max) (irregular : ¬ range.Regular) : range.Full := by
  unfold InWords Word.signedLimit at words
  unfold Regular Word.limit at irregular
  unfold Full Word.signedLimit
  omega

theorem bucketCount_of_full (range : FieldRange) (full : range.Full) :
    range.bucketCount = Word.limit ∧ range.digits = Word.limit - 1 := by
  rcases full with ⟨low, high⟩
  rw [bucketCount, digits, low, high]
  decide

theorem digit_lt_bucketCount (range : FieldRange) (nonempty : range.min ≤ range.max)
    (bucket : Int) : range.digit bucket < range.bucketCount := by
  have sum := range.min_add_digit nonempty bucket
  have inside := range.holds_clamp nonempty bucket
  unfold Holds at inside
  unfold bucketCount
  omega

end FieldRange

def exactVolume (ranges : List FieldRange) : Nat := (ranges.map (·.bucketCount)).prod

theorem exactVolume_cons (range : FieldRange) (ranges : List FieldRange) :
    exactVolume (range :: ranges) = range.bucketCount * exactVolume ranges := List.prod_cons

theorem exactVolume_append (front back : List FieldRange) :
    exactVolume (front ++ back) = exactVolume front * exactVolume back := by
  rw [exactVolume, List.map_append, List.prod_append]
  rfl

theorem volume_append (front back : List FieldRange) :
    volume (front ++ back) = volume front * volume back := by
  induction front with
  | nil => simp [volume]
  | cons range front ih =>
      rw [List.cons_append, volume, volume, ih]
      ring

theorem volume_le_exactVolume (ranges : List FieldRange) : volume ranges ≤ exactVolume ranges := by
  induction ranges with
  | nil => exact le_rfl
  | cons range ranges ih =>
      rw [volume, exactVolume_cons, Nat.mul_comm]
      exact Nat.mul_le_mul range.digits_le_bucketCount ih

theorem volume_eq_exactVolume (ranges : List FieldRange) (regular : Regular ranges) :
    volume ranges = exactVolume ranges := by
  induction ranges with
  | nil => rfl
  | cons range ranges ih =>
      rcases List.forall_mem_cons.mp regular with ⟨head, rest⟩
      rw [volume, exactVolume_cons, ih rest, range.digits_eq_bucketCount head, Nat.mul_comm]

theorem volume_eq_one_iff (ranges : List FieldRange) (nonempty : Nonempty ranges) :
    volume ranges = 1 ↔ exactVolume ranges = 1 := by
  induction ranges with
  | nil => exact Iff.rfl
  | cons range ranges ih =>
      rcases List.forall_mem_cons.mp nonempty with ⟨head, rest⟩
      rw [volume, exactVolume_cons, mul_eq_one, mul_eq_one, ih rest,
        range.digits_eq_one_iff head, and_comm]

theorem exists_full_of_not_regular (ranges : List FieldRange) (nonempty : Nonempty ranges)
    (words : ∀ range ∈ ranges, range.InWords) (irregular : ¬ Regular ranges) :
    ∃ range ∈ ranges, range.Full := by
  by_contra none
  apply irregular
  intro range member
  by_contra wide
  exact none ⟨range, member,
    range.full_of_not_regular (words range member) (nonempty range member) wide⟩

/-- Beside a field whose buckets are all signed words, the other fields decide by how much the
counts differ. -/
theorem volume_of_full (ranges : List FieldRange) (nonempty : Nonempty ranges)
    (range : FieldRange) (member : range ∈ ranges) (full : range.Full) :
    ∃ counted exact_count, volume ranges = (Word.limit - 1) * counted ∧
      exactVolume ranges = Word.limit * exact_count ∧ 0 < counted ∧ counted ≤ exact_count ∧
      (counted = 1 ↔ exact_count = 1) := by
  rcases List.append_of_mem member with ⟨front, back, rfl⟩
  rcases range.bucketCount_of_full full with ⟨count, digits⟩
  have others : Nonempty (front ++ back) := by
    intro other inside
    apply nonempty other
    simp only [List.mem_append, List.mem_cons] at inside ⊢
    tauto
  refine ⟨volume (front ++ back), exactVolume (front ++ back), ?_, ?_,
    volume_positive _ others, volume_le_exactVolume _, volume_eq_one_iff _ others⟩
  · rw [volume_append, volume, digits, volume_append]
    ring
  · rw [exactVolume_append, exactVolume_cons, count, exactVolume_append]
    ring

/-- A word holds the size of a table exactly where it holds the exact number of combinations, or
where that is just too large because of one field alone. -/
theorem volume_lt_limit_iff (ranges : List FieldRange) (nonempty : Nonempty ranges)
    (words : ∀ range ∈ ranges, range.InWords) :
    volume ranges < Word.limit ↔ exactVolume ranges < Word.limit ∨
      exactVolume ranges = Word.limit ∧ ∃ range ∈ ranges, range.Full := by
  by_cases regular : Regular ranges
  · rw [volume_eq_exactVolume ranges regular]
    constructor
    · exact .inl
    · intro either
      rcases either with below | ⟨_, range, member, full⟩
      · exact below
      · have counted := (regular range member).2
        rw [full.1, full.2] at counted
        exact absurd counted (by decide)
  · have wide := exists_full_of_not_regular ranges nonempty words regular
    rcases wide with ⟨range, member, full⟩
    rcases volume_of_full ranges nonempty range member full with
      ⟨counted, exact_count, first, second, positive, above, single⟩
    rw [first, second, Word.limit]
    constructor
    · intro below
      exact .inr ⟨by omega, range, member, full⟩
    · intro either
      omega

theorem volume_eq_min (ranges : List FieldRange) (nonempty : Nonempty ranges)
    (words : ∀ range ∈ ranges, range.InWords) (counted : volume ranges < Word.limit) :
    volume ranges = min (exactVolume ranges) (Word.limit - 1) := by
  by_cases regular : Regular ranges
  · have same := volume_eq_exactVolume ranges regular
    omega
  · rcases exists_full_of_not_regular ranges nonempty words regular with ⟨range, member, full⟩
    rcases volume_of_full ranges nonempty range member full with
      ⟨others, exact_count, first, second, positive, above, _⟩
    rw [first] at counted ⊢
    rw [second]
    unfold Word.limit at counted ⊢
    omega

def summands : List FieldRange → List Nat → List Int → List Nat
  | range :: ranges, weight :: weights, bucket :: buckets =>
    range.digit bucket * weight :: summands ranges weights buckets
  | _, _, _ => []

namespace Layout

theorem sum_summands (ranges : List FieldRange) (weights : List Nat) (buckets : List Int) :
    (summands ranges weights buckets).sum = sumDigits ranges weights buckets := by
  fun_induction summands ranges weights buckets with
  | case1 range ranges weight weights bucket buckets ih => rw [List.sum_cons, ih, sumDigits]
  | case2 ranges weights buckets empty =>
      rw [sumDigits]
      · rfl
      · exact empty

theorem sumDigits_lt_exactVolume (ranges : List FieldRange) (nonempty : Nonempty ranges)
    (buckets : List Int) :
    sumDigits ranges (tailVolumes ranges) buckets < exactVolume ranges := by
  induction ranges generalizing buckets with
  | nil => simp [sumDigits, exactVolume]
  | cons range ranges ih =>
      rcases List.forall_mem_cons.mp nonempty with ⟨head, rest⟩
      cases buckets with
      | nil =>
          have positive := Nat.zero_lt_of_lt (ih rest [])
          rw [sumDigits, exactVolume_cons]
          · exact Nat.mul_pos (range.bucketCount_positive head) positive
          · simp
      | cons bucket buckets =>
          have tail := ih rest buckets
          have digit := range.digit_lt_bucketCount head bucket
          have weight := volume_le_exactVolume ranges
          rw [tailVolumes, sumDigits, exactVolume_cons]
          calc
            range.digit bucket * volume ranges + sumDigits ranges (tailVolumes ranges) buckets <
                range.digit bucket * volume ranges + exactVolume ranges := by omega
            _ ≤ range.digit bucket * exactVolume ranges + exactVolume ranges := by
              exact Nat.add_le_add_right (Nat.mul_le_mul_left _ weight) _
            _ = (range.digit bucket + 1) * exactVolume ranges := by ring
            _ ≤ range.bucketCount * exactVolume ranges := Nat.mul_le_mul_right _ digit

theorem weigh_of_volume_lt (ranges : List FieldRange) (nonempty : Nonempty ranges)
    (counted : volume ranges < Word.limit) :
    weigh ranges = .ok (tailVolumes ranges, volume ranges) := by
  induction ranges with
  | nil => rfl
  | cons range ranges ih =>
      rcases List.forall_mem_cons.mp nonempty with ⟨head, rest⟩
      rw [volume] at counted
      have inner : volume ranges < Word.limit :=
        Nat.lt_of_le_of_lt (Nat.le_mul_of_pos_right _ (range.digits_positive head)) counted
      rw [weigh, ih rest inner]
      simp only [bind, Except.bind]
      rw [if_neg (by omega), if_neg (by omega), tailVolumes, volume]

theorem exists_build_iff (state action : List FieldRange) (cap : Nat) :
    (∃ layout, build state action cap = .ok layout) ↔
      Nonempty (state ++ action) ∧ volume (state ++ action) < Word.limit := by
  constructor
  · intro made
    rcases made with ⟨layout, built⟩
    rcases build_eq_ok _ _ _ _ built with ⟨rfl, rfl, accepted⟩
    exact ⟨accepted.nonempty, accepted.counted⟩
  · intro both
    rw [build, weigh_of_volume_lt _ both.1 both.2]
    exact ⟨_, rfl⟩

theorem tailVolumes_le_volume (ranges : List FieldRange) (nonempty : Nonempty ranges) :
    ∀ weight ∈ tailVolumes ranges, weight ≤ volume ranges := by
  induction ranges with
  | nil => exact fun _ member => nomatch member
  | cons range ranges ih =>
      rcases List.forall_mem_cons.mp nonempty with ⟨head, rest⟩
      have larger : volume ranges ≤ volume (range :: ranges) :=
        Nat.le_mul_of_pos_right _ (range.digits_positive head)
      intro weight member
      rcases List.mem_cons.mp member with rfl | member
      · exact larger
      · exact (ih rest weight member).trans larger

theorem indices_below_iff (state action : List FieldRange) (cap : Nat) (layout : Layout)
    (words : ∀ range ∈ state ++ action, range.InWords)
    (built : build state action cap = .ok layout) :
    (∀ s a : List Int, s.length = state.length → a.length = action.length →
      layout.index s a < layout.total) ↔ exactVolume (state ++ action) < Word.limit := by
  rcases build_eq_ok _ _ _ _ built with ⟨rfl, rfl, accepted⟩
  constructor
  · intro below
    have regular : Regular layout.ranges := by
      by_contra irregular
      have reached := (le_sumDigits_highest layout.ranges accepted.nonempty).2 irregular
      have inside := below (layout.state.map (·.max)) (layout.action.map (·.max))
        (List.length_map _) (List.length_map _)
      rw [index, accepted.weights, accepted.total, ← List.map_append] at inside
      exact absurd inside (Nat.not_lt.mpr reached)
    change exactVolume layout.ranges < Word.limit
    rw [← volume_eq_exactVolume layout.ranges regular]
    exact accepted.counted
  · intro counted s a _ _
    have size := volume_eq_min layout.ranges accepted.nonempty words accepted.counted
    have below := sumDigits_lt_exactVolume layout.ranges accepted.nonempty (s ++ a)
    change exactVolume layout.ranges < Word.limit at counted
    rw [index, accepted.weights, accepted.total]
    omega

/-- Which layouts are accepted and how large their tables are. Every word of an accepted layout and
of its indices is exact, but the last index has no entry where one field has all signed words as its
buckets: there the number of combinations is one more than the size of the table. -/
theorem build_size_exact {φ : Type} [TableValue φ] (state action : List FieldRange) (cap : Nat)
    (words : ∀ range ∈ state ++ action, range.InWords) :
    ((∃ layout, build state action cap = .ok layout) ↔ Nonempty (state ++ action) ∧
      (exactVolume (state ++ action) < Word.limit ∨
        exactVolume (state ++ action) = Word.limit ∧ ∃ range ∈ state ++ action, range.Full)) ∧
    ∀ layout, build state action cap = .ok layout →
      layout.total = min (exactVolume (state ++ action)) (Word.limit - 1) ∧
      (∀ weight ∈ layout.weights, weight < Word.limit) ∧
      (∀ s a : List Int,
        layout.index s a = (summands layout.ranges layout.weights (s ++ a)).sum ∧
        (∀ summand ∈ summands layout.ranges layout.weights (s ++ a), summand < Word.limit) ∧
        ∀ added, ((summands layout.ranges layout.weights (s ++ a)).take added).sum <
          Word.limit) ∧
      ((∀ s a : List Int, s.length = state.length → a.length = action.length →
          layout.index s a < layout.total) ↔ exactVolume (state ++ action) < Word.limit) ∧
      ((∀ s a : List Int, s.length = state.length → a.length = action.length →
          ∀ name shards, (Table.Store.ofLayout name layout shards : Table.Store φ).check
            (layout.index s a) = .ok ()) ↔ exactVolume (state ++ action) < Word.limit) := by
  constructor
  · rw [exists_build_iff]
    constructor
    · intro both
      exact ⟨both.1, (volume_lt_limit_iff _ both.1 words).mp both.2⟩
    · intro both
      exact ⟨both.1, (volume_lt_limit_iff _ both.1 words).mpr both.2⟩
  · intro layout built
    have below := indices_below_iff state action cap layout words built
    refine ⟨?_, ?_, ?_, below, ?_⟩
    all_goals rcases build_eq_ok _ _ _ _ built with ⟨rfl, rfl, accepted⟩
    · exact accepted.total.trans
        (volume_eq_min layout.ranges accepted.nonempty words accepted.counted)
    · intro weight member
      rw [accepted.weights] at member
      exact (tailVolumes_le_volume _ accepted.nonempty weight member).trans_lt accepted.counted
    · intro s a
      have exact_sum := sum_summands layout.ranges layout.weights (s ++ a)
      have whole : (summands layout.ranges layout.weights (s ++ a)).sum < Word.limit := by
        have below := sumDigits_lt_exactVolume layout.ranges accepted.nonempty (s ++ a)
        have held := (volume_lt_limit_iff layout.ranges accepted.nonempty words).mp
          accepted.counted
        rw [exact_sum, accepted.weights]
        omega
      refine ⟨exact_sum.symm, ?_, ?_⟩
      · intro summand member
        exact (List.le_sum_of_mem member).trans_lt whole
      · intro added
        exact (List.take_sublist added _).sum_le_sum (by simp) |>.trans_lt whole
    · rw [← below]
      constructor
      · intro checked s a first second
        have accepts := checked s a first second "" 0
        rw [Table.Store.check] at accepts
        split at accepts
        · assumption
        · cases accepts
      · intro inside s a first second name shards
        exact if_pos (inside s a first second)

/-- A field whose buckets are all signed words is accepted beside one with a single bucket. Its last
bucket has the index that the table ends before. -/
theorem build_size_exact_all_words :
    ∃ layout, build [⟨"wide", -9223372036854775808, 9223372036854775807⟩] [⟨"single", 3, 3⟩] 10 =
        .ok layout ∧ layout.total = 18446744073709551615 ∧
      layout.index [9223372036854775807] [3] = layout.total ∧
      ¬ ∀ s a : List Int, s.length = 1 → a.length = 1 → layout.index s a < layout.total := by
  have spec := build_size_exact (φ := Float32) [⟨"wide", -9223372036854775808, 9223372036854775807⟩]
    [⟨"single", 3, 3⟩] 10 (by decide)
  rcases spec.1.mpr ⟨by decide, .inr ⟨by decide, _, List.mem_cons_self, by decide, by decide⟩⟩
    with ⟨layout, built⟩
  rcases spec.2 layout built with ⟨total, _, _, below, _⟩
  refine ⟨layout, built, total.trans (by decide), ?_, ?_⟩
  · rcases build_eq_ok _ _ _ _ built with ⟨first, second, accepted⟩
    rw [index, accepted.weights, accepted.total, ranges, first, second]
    decide
  · intro inside
    exact absurd (below.mp inside) (by decide)

end Layout

end Autoland.Grid
