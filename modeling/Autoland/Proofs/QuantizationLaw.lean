import Autoland.Proofs.CommandBounds

/-! The quantization law in exact arithmetic. A value read back from its bucket is at most half a
precision off and belongs to the same bucket, and buckets keep the order of values. So the buckets
of a declared field reach from that of its lower bound to that of its upper one: values between the
bounds keep their bucket in a table index, and values beyond a bound take the bucket of that
bound. -/

namespace Autoland

open Problem Learning

namespace Grid.FieldRange

variable (range : FieldRange) (nonempty : range.min ≤ range.max) (bucket : Int)

include nonempty

theorem clamp_of_le (below : bucket ≤ range.min) : range.clamp bucket = range.min := by
  unfold clamp
  split
  · rfl
  · rw [if_neg (by omega)]
    omega

theorem clamp_of_ge (above : range.max ≤ bucket) : range.clamp bucket = range.max := by
  unfold clamp
  rw [if_neg (by omega)]
  split
  · rfl
  · omega

end Grid.FieldRange

namespace Record

theorem insertBucket_insertBucket (field : String) (old new : Int)
    (buckets : List (String × Int)) :
    insertBucket field new (insertBucket field old buckets) = insertBucket field new buckets := by
  induction buckets with
  | nil => simp [insertBucket]
  | cons entry buckets ih =>
      obtain ⟨name, held⟩ := entry
      by_cases same : name = field
      · simp [insertBucket, same]
      · simp [insertBucket, same, ih]

theorem set_value_set (record : Record Rat) (field : String) (value : Rat)
    (wide : 0 < (record.definition.quantizer field).precision) :
    (record.set field value).set field ((record.set field value).value field) =
      record.set field value := by
  have read : (record.set field value).value field =
      (record.definition.quantizer field).snap value := by
    have carried : (record.set field value).bucket? field =
        some ((record.definition.quantizer field).bucket value) := by
      change (insertBucket field _ record.buckets).lookup field = _
      rw [lookup_insertBucket, if_pos rfl]
    rw [Record.value, value?, carried]
    rfl
  rw [read]
  change Record.mk _ _ (insertBucket field ((record.definition.quantizer field).bucket _)
    (insertBucket field _ record.buckets)) = _
  rw [insertBucket_insertBucket, Grid.Quantizer.bucket_snap _ wide]
  rfl

end Record

namespace Problem.FieldSpec

variable (field : FieldSpec Rat) (wide : 0 < field.grid.precision)

include wide

theorem clamp_of_inside (value : Rat) (inside : value ∈ Set.Icc field.min field.max) :
    field.range.clamp (field.grid.bucket value) = field.grid.bucket value :=
  field.range.clamp_of_holds _
    ⟨field.grid.bucket_mono wide _ _ inside.1, field.grid.bucket_mono wide _ _ inside.2⟩

variable (ordered : field.min ≤ field.max)

include ordered

theorem range_nonempty : field.range.min ≤ field.range.max :=
  field.grid.bucket_mono wide _ _ ordered

theorem clamp_of_below (value : Rat) (below : value < field.min) :
    field.range.clamp (field.grid.bucket value) = field.range.min :=
  field.range.clamp_of_le (field.range_nonempty wide ordered) _
    (field.grid.bucket_mono wide _ _ below.le)

theorem clamp_of_above (value : Rat) (above : field.max < value) :
    field.range.clamp (field.grid.bucket value) = field.range.max :=
  field.range.clamp_of_ge (field.range_nonempty wide ordered) _
    (field.grid.bucket_mono wide _ _ above.le)

end Problem.FieldSpec

section Exact

variable [Elementary Rat]

theorem bounds_of_checkField (positive : 0 < (Elementary.pi : Rat)) (spec field : FieldSpec Rat)
    (accepted : Document.checkField spec = .ok field) : field.min ≤ field.max := by
  unfold Document.checkField at accepted
  split at accepted
  · cases accepted
  · split at accepted
    · cases accepted
    · split at accepted
      · cases accepted
      · rename_i fine
        have ordered : spec.min ≤ spec.max := by
          by_contra reversed
          simp [not_le.mp reversed] at fine
        split at accepted
        · cases accepted
          change spec.min * (Elementary.pi / 180.0) ≤ spec.max * (Elementary.pi / 180.0)
          have factor : (0 : Rat) ≤ Elementary.pi / 180.0 := by
            norm_num
            positivity
          exact mul_le_mul_of_nonneg_right ordered factor
        · cases accepted
          exact ordered

theorem bounds_of_field (positive : 0 < (Elementary.pi : Rat)) (document : Document Rat)
    (compiler after : Formula.Compiler Rat) (denseCap : Nat) (definition : Definition Rat)
    (accepted : document.finalize compiler denseCap = (.ok definition, after))
    (field : FieldSpec Rat) (member : field ∈ definition.state ++ definition.action) :
    field.min ≤ field.max := by
  refine Document.forall_fields_of_finalize document compiler after denseCap definition accepted
    (fun field => field.min ≤ field.max) (bounds_of_checkField positive) ?_ field member
  intro names selector field chosen
  obtain ⟨least, most, first, last, rfl⟩ := Document.selectorField_eq_ok _ _ _ chosen
  have ordered : least ≤ most := (List.min?_eq_some_iff.mp first).2 most (List.max?_mem last)
  exact Int.cast_le.mpr ordered

/-- In exact arithmetic and on every grid, the value of a bucket is at most half a precision away
from the values in it, if 64 bits hold it. Such a bucket is that of its value, so that rounding
twice is rounding once and a field set to what was read from it stays as it is. Larger values have
larger buckets or the same, also where these are held to 64 bits. Of a declared field with ordered
bounds, therefore, the buckets are a range that moves no bucket of a value between the bounds and
takes values beyond a bound to the bucket of that bound. All fields of a document that finalizes are
such fields, and their ranges are those of the table. -/
theorem quantization_law (positive : 0 < (Elementary.pi : Rat)) :
    (∀ grid : Grid.Quantizer Rat, 0 < grid.precision →
      (∀ value, Word.isSigned (grid.nearest value) = true →
        |grid.value (grid.bucket value) - value| ≤ grid.precision / 2) ∧
      (∀ bucket, Word.isSigned bucket = true → grid.bucket (grid.value bucket) = bucket) ∧
      (∀ value, grid.snap (grid.snap value) = grid.snap value) ∧
      (∀ (record : Record Rat) name value, record.definition.quantizer name = grid →
        (record.set name value).set name ((record.set name value).value name) =
          record.set name value) ∧
      Monotone grid.bucket) ∧
    (∀ field : FieldSpec Rat, 0 < field.grid.precision → field.min ≤ field.max →
      field.range.min ≤ field.range.max ∧
      (∀ value ∈ Set.Icc field.min field.max,
        field.range.clamp (field.grid.bucket value) = field.grid.bucket value ∧
        field.range.min + field.range.digit (field.grid.bucket value) =
          field.grid.bucket value) ∧
      (∀ value < field.min, field.range.clamp (field.grid.bucket value) = field.range.min) ∧
      (∀ value > field.max, field.range.clamp (field.grid.bucket value) = field.range.max)) ∧
    (∀ (document : Document Rat) compiler after denseCap definition,
      document.finalize compiler denseCap = (.ok definition, after) →
      definition.layout.ranges = (definition.state ++ definition.action).map (·.range) ∧
      ∀ field ∈ definition.state ++ definition.action,
        0 < field.grid.precision ∧ field.min ≤ field.max) := by
  refine ⟨?_, ?_, ?_⟩
  · intro grid wide
    refine ⟨grid.abs_value_bucket_sub_le wide, grid.bucket_value wide, grid.snap_snap wide, ?_,
      fun first second below => grid.bucket_mono wide first second below⟩
    intro record name value found
    exact record.set_value_set name value (found ▸ wide)
  · intro field wide ordered
    have nonempty := field.range_nonempty wide ordered
    refine ⟨nonempty, fun value inside => ?_, field.clamp_of_below wide ordered,
      field.clamp_of_above wide ordered⟩
    have kept := field.clamp_of_inside wide value inside
    exact ⟨kept, (field.range.min_add_digit nonempty _).trans kept⟩
  · intro document compiler after denseCap definition accepted
    exact ⟨Document.ranges_of_finalize document compiler after denseCap definition accepted,
      fun field member =>
        ⟨precision_of_field positive document compiler after denseCap definition accepted
            field member,
          bounds_of_field positive document compiler after denseCap definition accepted field
            member⟩⟩

end Exact

def halfOffset : FieldSpec Rat := ⟨"offset", -9 / 4, 9 / 4, some (1 / 2)⟩

def offsetGrid : Document Rat := { Document.blank with name := "grid", state := [halfOffset] }

/-- The buckets of the offset are those from -5 to 4. The value 2 has bucket 4, and so is at the
upper end as well as 3 is, which would have bucket 6. -/
theorem quantization_law_half_offset :
    letI := plainElementary
    (∃ definition after, offsetGrid.finalize Formula.Compiler.standard 100 =
      (.ok definition, after) ∧ definition.layout.ranges = [⟨"offset", -5, 4⟩]) ∧
      |halfOffset.grid.value (halfOffset.grid.bucket 2) - 2| ≤ 1 / 4 ∧
      halfOffset.grid.bucket (halfOffset.grid.value (-5)) = -5 ∧
      halfOffset.range.clamp (halfOffset.grid.bucket 2) = 4 ∧
      halfOffset.grid.bucket 3 = 6 ∧ halfOffset.range.clamp (halfOffset.grid.bucket 3) = 4 ∧
      halfOffset.range.clamp (halfOffset.grid.bucket (-7)) = -5 := by
  let := plainElementary
  have pi : 0 < (Elementary.pi : Rat) := by decide +kernel
  have range : halfOffset.range = ⟨"offset", -5, 4⟩ := by decide +kernel
  have buckets : halfOffset.grid.bucket 2 = 4 ∧ halfOffset.grid.bucket 3 = 6 := by decide +kernel
  have half : halfOffset.grid.precision = 1 / 2 := rfl
  have wide : 0 < halfOffset.grid.precision := by rw [half]; norm_num
  have bounds : halfOffset.min = -9 / 4 ∧ halfOffset.max = 9 / 4 := ⟨rfl, rfl⟩
  have evaluated : (offsetGrid.finalize Formula.Compiler.standard 100).1.toOption.any
      (fun definition => definition.state ++ definition.action = [halfOffset]) = true := by
    decide +kernel
  obtain ⟨definition, after, finalized, fields⟩ := exists_ok_of_any evaluated
  obtain ⟨rounding, moves, documents⟩ := quantization_law pi
  obtain ⟨ranges, _⟩ := documents offsetGrid _ after 100 definition finalized
  obtain ⟨near, back, _⟩ := rounding halfOffset.grid wide
  obtain ⟨_, inside, below, above⟩ := moves halfOffset wide (by decide +kernel)
  refine ⟨⟨definition, after, finalized, ?_⟩, ?_, back (-5) (by decide), ?_, buckets.2, ?_, ?_⟩
  · rw [ranges, of_decide_eq_true fields, List.map_singleton, range]
  · have fits : Word.isSigned (halfOffset.grid.nearest 2) = true := by decide +kernel
    refine (near 2 fits).trans ?_
    rw [half]
    norm_num
  · refine (inside 2 ?_).1.trans buckets.1
    rw [bounds.1, bounds.2]
    norm_num
  · refine (above 3 ?_).trans (congrArg Grid.FieldRange.max range)
    rw [bounds.2]
    norm_num
  · refine (below (-7) ?_).trans (congrArg Grid.FieldRange.min range)
    rw [bounds.1]
    norm_num

end Autoland
