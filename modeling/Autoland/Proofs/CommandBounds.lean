import Autoland.Proofs.Candidates
import Autoland.Proofs.ExactGrids
import Autoland.Proofs.FieldGrids
import Autoland.Proofs.MirrorSymmetry
import Mathlib.Order.Interval.Set.Defs

/-! What values candidates give to the fields of an action, against the bounds of the fields. -/

namespace Autoland

namespace Record

theorem lookup_foldl_insertBucket (buckets held : List (String × Int)) (name : String) :
    (buckets.foldl (fun held entry => insertBucket entry.1 entry.2 held) held).lookup name =
      (buckets.reverse.lookup name).or (held.lookup name) := by
  induction buckets generalizing held with
  | nil => simp
  | cons entry buckets ih =>
      rw [List.foldl_cons, ih, List.reverse_cons, List.lookup_append, Option.or_assoc]
      congr 1
      rw [lookup_insertBucket, lookup_cons_eq]
      split <;> simp

end Record

namespace Learning

open Problem Grid

theorem bucket_of_choice {ν : Type} (definition : Definition ν) (axis : Option Axis)
    (columns : List (String × List Int)) (choice : List (String × Int))
    (chooses : Chooses columns choice) (field : String) (accepts : Int → Prop)
    (named : ∃ column ∈ columns, column.1 = field)
    (chosen : ∀ entry ∈ choice, entry.1 = field → accepts entry.2) :
    ∃ bucket, (Action.ofBuckets definition choice axis).bucket? field = some bucket ∧
      accepts bucket := by
  have read : (Action.ofBuckets definition choice axis).bucket? field =
      choice.reverse.lookup field := by
    rw [Action.ofBuckets_eq, Action.bucket?, Record.bucket?, Record.lookup_foldl_insertBucket]
    simp
  rw [read]
  cases found : choice.reverse.lookup field with
  | none =>
      obtain ⟨column, member, rfl⟩ := named
      obtain ⟨entry, inside, same, _⟩ := exists_of_mem_right chooses.flip column member
      have unnamed := (lookup_eq_none_iff_unnamed _ _).mp found
      exact absurd (List.mem_map.mpr ⟨entry, List.mem_reverse.mpr inside, same⟩) unnamed
  | some bucket =>
      have member := List.mem_reverse.mp (mem_of_lookup_eq_some _ _ _ found)
      exact ⟨bucket, rfl, chosen _ member rfl⟩

section Exact

variable [Elementary Rat]

theorem precision_of_checkField (positive : 0 < (Elementary.pi : Rat)) (spec field : FieldSpec Rat)
    (accepted : Document.checkField spec = .ok field) : 0 < field.grid.precision := by
  have zero : (0.0 : Rat) = 0 := by norm_num
  unfold Document.checkField at accepted
  split at accepted
  · cases accepted
  · rename_i precision given
    split at accepted
    · cases accepted
    · rename_i fine
      have wide : 0 < precision := by
        rw [zero] at fine
        by_contra narrow
        simp [narrow] at fine
      split at accepted
      · cases accepted
      · split at accepted
        · cases accepted
          change 0 < precision * (Elementary.pi / 180.0)
          norm_num
          positivity
        · cases accepted
          rw [FieldSpec.grid, given]
          exact wide

theorem precision_of_field (positive : 0 < (Elementary.pi : Rat)) (document : Document Rat)
    (compiler after : Formula.Compiler Rat) (denseCap : Nat) (definition : Definition Rat)
    (accepted : document.finalize compiler denseCap = (.ok definition, after))
    (field : FieldSpec Rat) (member : field ∈ definition.state ++ definition.action) :
    0 < field.grid.precision := by
  refine Document.forall_fields_of_finalize document compiler after denseCap definition accepted
    (0 < ·.grid.precision) (precision_of_checkField positive) ?_ field member
  intro names selector field chosen
  obtain ⟨_, _, _, _, rfl⟩ := Document.selectorField_eq_ok _ _ _ chosen
  change (0 : Rat) < 1.0
  norm_num

theorem precision_of_quantizer (positive : 0 < (Elementary.pi : Rat)) (document : Document Rat)
    (compiler after : Formula.Compiler Rat) (denseCap : Nat) (definition : Definition Rat)
    (accepted : document.finalize compiler denseCap = (.ok definition, after))
    (field : FieldSpec Rat) (member : field ∈ definition.state ++ definition.action) :
    0 < (definition.quantizer field.name).precision := by
  have fine := precision_of_field positive document compiler after denseCap definition accepted
  obtain ⟨front, later, placed⟩ := List.append_of_mem member
  rw [Document.quantizer_eq_getD document compiler after denseCap definition accepted front later
    field placed]
  cases regridded : document.regrid? definition.action later field.name with
  | none => exact fine field member
  | some grid =>
      rw [Document.regrid?] at regridded
      split at regridded
      · cases regridded
        change (0 : Rat) < 1.0
        norm_num
      · obtain ⟨other, inside, rfl⟩ := Document.grid_of_lastGrid? _ _ _ _ regridded
        rw [placed] at fine
        exact fine other (List.mem_append_right _ (List.mem_cons_of_mem _ inside))

theorem action_ranges (document : Document Rat) (compiler after : Formula.Compiler Rat)
    (denseCap : Nat) (definition : Definition Rat)
    (accepted : document.finalize compiler denseCap = (.ok definition, after)) :
    definition.layout.action = definition.action.map (·.range) := by
  have sound := Document.sound_of_finalize _ _ _ _ _ accepted
  have ranges := Document.ranges_of_finalize _ _ _ _ _ accepted
  have lengths := congrArg List.length sound.stateNames
  rw [List.length_map, List.length_map] at lengths
  rw [Layout.ranges, List.map_append] at ranges
  exact (List.append_inj ranges (by rw [List.length_map, lengths])).2

section Field

variable (document : Document Rat) (compiler after : Formula.Compiler Rat) (denseCap : Nat)
  (definition : Definition Rat)
  (accepted : document.finalize compiler denseCap = (.ok definition, after))
  (field : FieldSpec Rat) (declared : field ∈ definition.action)
  (plain : definition.selector? field.name = none)

include accepted declared plain

theorem column_of_field (state : State Rat) (isActive : String → Bool) :
    (field.name, field.range.buckets) ∈ columns definition state isActive ∧
      ∀ column ∈ columns definition state isActive, column.1 = field.name →
        column.2 = field.range.buckets := by
  have sound := Document.sound_of_finalize _ _ _ _ _ accepted
  have action := action_ranges document compiler after denseCap definition accepted
  have found : definition.selector? field.range.name = none := plain
  have spans : field.range ∈ definition.layout.action := action ▸ List.mem_map_of_mem declared
  rw [columns_eq]
  refine ⟨List.mem_append_left _ (List.mem_map.mpr ⟨field.range, spans, ?_⟩), ?_⟩
  · rw [declaredColumn, found]
    rfl
  · intro column member same
    rw [List.mem_append, List.mem_map, List.mem_map] at member
    rcases member with ⟨range, listed, rfl⟩ | ⟨selector, listed, rfl⟩
    · have unique := List.inj_on_of_nodup_map (ranges_distinct sound) listed spans same
      rw [unique, declaredColumn, found]
    · have chosen := List.find?_eq_none.mp plain selector (List.mem_filter.mp listed).1
      exact absurd (decide_eq_true same) chosen

theorem value_of_candidate (state : State Rat) (isActive : String → Bool) (action : Action Rat)
    (member : action ∈ candidates definition state isActive) :
    ∃ bucket ∈ field.range.buckets, action.record.value? field.name =
      some ((definition.quantizer field.name).value bucket) := by
  obtain ⟨listed, only⟩ := column_of_field document compiler after denseCap definition accepted
    field declared plain state isActive
  obtain ⟨choice, chosen, rfl⟩ := List.mem_map.mp member
  have chooses := (mem_combinations _ _).mp chosen
  obtain ⟨bucket, carried, inside⟩ := bucket_of_choice definition state.axis _ choice chooses
    field.name (· ∈ field.range.buckets) ⟨_, listed, rfl⟩ (by
      intro entry inside same
      obtain ⟨column, present, name, held⟩ := exists_of_mem_right chooses entry inside
      exact only column present (name.symm.trans same) ▸ held)
  refine ⟨bucket, inside, ?_⟩
  have owned : (Action.ofBuckets definition choice state.axis).record.definition = definition := by
    rw [Action.ofBuckets_eq]
  change ((Action.ofBuckets definition choice state.axis).bucket? field.name).map _ = _
  rw [carried, owned]
  rfl

theorem exists_candidate (state : State Rat) (isActive : String → Bool) (bucket : Int)
    (inside : bucket ∈ field.range.buckets) :
    ∃ action ∈ candidates definition state isActive, action.record.value? field.name =
      some ((definition.quantizer field.name).value bucket) := by
  have sound := Document.sound_of_finalize _ _ _ _ _ accepted
  obtain ⟨listed, only⟩ := column_of_field document compiler after denseCap definition accepted
    field declared plain state isActive
  have chooses := chooses_chooseAt (columns definition state isActive) field.name bucket
    (columns_full sound state isActive) fun column present same => by
      rw [only column present same]
      exact inside
  refine ⟨_, List.mem_map_of_mem ((mem_combinations _ _).mpr chooses), ?_⟩
  obtain ⟨taken, carried, rfl⟩ := bucket_of_choice definition state.axis _ _ chooses field.name
    (· = bucket) ⟨_, listed, rfl⟩ (by
      intro entry member same
      obtain ⟨column, _, rfl⟩ := List.mem_map.mp member
      exact if_pos same)
  have owned (choice : List (String × Int)) :
      (Action.ofBuckets definition choice state.axis).record.definition = definition := by
    rw [Action.ofBuckets_eq]
  change (Action.bucket? _ field.name).map _ = _
  rw [carried, owned]
  rfl

variable (wide : 0 < (definition.quantizer field.name).precision)

include wide

theorem candidate_between (state : State Rat) (isActive : String → Bool) (action : Action Rat)
    (member : action ∈ candidates definition state isActive) :
    ∃ value, action.record.value? field.name = some value ∧
      value ∈ Set.Icc ((definition.quantizer field.name).value field.range.min)
        ((definition.quantizer field.name).value field.range.max) := by
  obtain ⟨bucket, listed, read⟩ := value_of_candidate document compiler after denseCap definition
    accepted field declared plain state isActive action member
  obtain ⟨above, below⟩ := (field.range.mem_buckets bucket).mp listed
  exact ⟨_, read, (Quantizer.value_le_value_iff _ wide _ _).mpr above,
    (Quantizer.value_le_value_iff _ wide _ _).mpr below⟩

theorem candidates_keep_bounds_iff (state : State Rat) (isActive : String → Bool) :
    (∀ action ∈ candidates definition state isActive,
        action.record.value field.name ∈ Set.Icc field.min field.max) ↔
      field.min ≤ (definition.quantizer field.name).value field.range.min ∧
        (definition.quantizer field.name).value field.range.max ≤ field.max := by
  constructor
  · intro kept
    have ordered : field.range.min ≤ field.range.max := by
      have sound := Document.sound_of_finalize _ _ _ _ _ accepted
      apply sound.layout.nonempty field.range
      rw [Layout.ranges, action_ranges document compiler after denseCap definition accepted]
      exact List.mem_append_right _ (List.mem_map_of_mem declared)
    have taken : ∀ bucket ∈ field.range.buckets,
        (definition.quantizer field.name).value bucket ∈ Set.Icc field.min field.max := by
      intro bucket listed
      obtain ⟨action, member, read⟩ := exists_candidate document compiler after denseCap
        definition accepted field declared plain state isActive bucket listed
      have bounded := kept action member
      rwa [Record.value, read] at bounded
    exact ⟨(taken _ ((field.range.mem_buckets _).mpr ⟨le_rfl, ordered⟩)).1,
      (taken _ ((field.range.mem_buckets _).mpr ⟨ordered, le_rfl⟩)).2⟩
  · rintro ⟨least, most⟩ action member
    obtain ⟨value, read, above, below⟩ := candidate_between document compiler after denseCap
      definition accepted field declared plain wide state isActive action member
    rw [Record.value, read]
    exact ⟨least.trans above, below.trans most⟩

end Field

/-- In exact arithmetic candidates give a declared action field that is no selector the values
between those of the two end buckets of its range, which are taken, so the values keep to the bounds
exactly if these two do. If the field is found under its own grid, they are its bounds, rounded to
the grid: the lower less than half a precision below the bound, and the upper at most half a
precision above it unless its bucket lies below all 64-bit words. Grid points are not moved, nor is
a lower bound that is not negative. -/
theorem commands_within_rounded_bounds (positive : 0 < (Elementary.pi : Rat))
    (document : Document Rat) (compiler after : Formula.Compiler Rat) (denseCap : Nat)
    (definition : Definition Rat)
    (accepted : document.finalize compiler denseCap = (.ok definition, after))
    (field : FieldSpec Rat) (declared : field ∈ definition.action)
    (plain : definition.selector? field.name = none) :
    let low := (definition.quantizer field.name).value field.range.min
    let high := (definition.quantizer field.name).value field.range.max
    (∀ state isActive,
      (∀ action ∈ candidates definition state isActive,
        ∃ value, action.record.value? field.name = some value ∧ value ∈ Set.Icc low high) ∧
      ((∀ action ∈ candidates definition state isActive,
          action.record.value field.name ∈ Set.Icc field.min field.max) ↔
        field.min ≤ low ∧ high ≤ field.max)) ∧
    (definition.quantizer field.name = field.grid →
      low = field.grid.snap field.min ∧ high = field.grid.snap field.max ∧
      field.min - field.grid.precision / 2 < low ∧
      (-(Word.signedLimit : Int) ≤ field.grid.nearest field.max →
        high ≤ field.max + field.grid.precision / 2) ∧
      (∀ bucket, Word.isSigned bucket = true →
        field.grid.snap (field.grid.value bucket) = field.grid.value bucket) ∧
      (0 ≤ field.min → low = field.min)) := by
  intro low high
  have inside : field ∈ definition.state ++ definition.action := List.mem_append_right _ declared
  refine ⟨fun state isActive => ?_, fun own => ?_⟩
  · have wide := precision_of_quantizer positive document compiler after denseCap definition
      accepted field inside
    exact ⟨candidate_between document compiler after denseCap definition accepted field declared
        plain wide state isActive,
      candidates_keep_bounds_iff document compiler after denseCap definition accepted field declared
        plain wide state isActive⟩
  · have wide := precision_of_field positive document compiler after denseCap definition accepted
      field inside
    have lowest : low = field.grid.snap field.min := by
      change (definition.quantizer field.name).value _ = _
      rw [own]
      rfl
    have highest : high = field.grid.snap field.max := by
      change (definition.quantizer field.name).value _ = _
      rw [own]
      rfl
    have below : field.grid.nearest field.min < Word.signedLimit :=
      (nearest_le_zero field.min (field.precision.getD 1.0) wide).trans_lt (by decide)
    rw [lowest, highest]
    exact ⟨rfl, rfl, field.grid.lt_snap wide field.min below, field.grid.snap_le wide field.max,
      field.grid.snap_value wide, snap_of_nonneg field.min (field.precision.getD 1.0) wide⟩

end Exact

/-- The constants in exact arithmetic, and functions for documents that use none. -/
@[reducible] def plainElementary : Elementary Rat where
  pi := 3.141592653589793
  e := 2.718281828459045
  sqrt := id
  sin := id
  cos := id
  tan := id
  asin := id
  acos := id
  atan := id
  atan2 y _ := y
  exp := id
  log := id
  pow x _ := x

def coarseThrust : Document Rat :=
  { Document.blank with
    name := "hover"
    action := [⟨"thrust", 0.0, 1.0, some 0.4⟩] }

theorem candidate_past_bound :
    letI := plainElementary
    ∃ definition after, coarseThrust.finalize Formula.Compiler.standard 100 =
        (.ok definition, after) ∧
      ∃ action ∈ candidates definition ⟨Record.empty definition none⟩ fun _ => true,
        ∃ field ∈ definition.action, definition.selector? field.name = none ∧
          field.max < action.record.value field.name := by
  let := plainElementary
  have evaluated : (coarseThrust.finalize Formula.Compiler.standard 100).1.toOption.any
      (fun definition =>
        (candidates definition ⟨Record.empty definition none⟩ fun _ => true).any fun action =>
          definition.action.any fun field => (definition.selector? field.name).isNone &&
            decide (field.max < action.record.value field.name)) = true := by decide +kernel
  obtain ⟨definition, after, finalized, checked⟩ := exists_ok_of_any evaluated
  obtain ⟨action, member, fields⟩ := List.any_eq_true.mp checked
  obtain ⟨field, declared, past⟩ := List.any_eq_true.mp fields
  rw [Bool.and_eq_true, Option.isNone_iff_eq_none, decide_eq_true_eq] at past
  exact ⟨definition, after, finalized, action, member, field, declared, past⟩

/-- The thrust of no candidate is past 1.2, but not all of them keep to the upper bound. -/
theorem commands_within_rounded_bounds_coarse_thrust :
    letI := plainElementary
    ∃ definition after, coarseThrust.finalize Formula.Compiler.standard 100 =
        (.ok definition, after) ∧
      ∀ state isActive,
        (∀ action ∈ candidates definition state isActive,
          ∃ value, action.record.value? "thrust" = some value ∧ value ∈ Set.Icc 0 (6 / 5)) ∧
        ¬∀ action ∈ candidates definition state isActive,
          action.record.value "thrust" ∈ Set.Icc 0 1 := by
  let := plainElementary
  have evaluated : (coarseThrust.finalize Formula.Compiler.standard 100).1.toOption.any
      (fun definition => definition.action.any fun field =>
        (field.name = "thrust" && field.min = 0 && field.max = 1) &&
        (definition.selector? field.name).isNone &&
        definition.quantizer field.name = field.grid &&
        (field.grid.snap field.min = 0 && field.grid.snap field.max = 6 / 5)) = true := by
    decide +kernel
  obtain ⟨definition, after, finalized, checked⟩ := exists_ok_of_any evaluated
  obtain ⟨field, declared, known⟩ := List.any_eq_true.mp checked
  simp only [Bool.and_eq_true, decide_eq_true_eq, Option.isNone_iff_eq_none] at known
  obtain ⟨⟨⟨⟨⟨name, least⟩, most⟩, plain⟩, own⟩, low, high⟩ := known
  have pi : 0 < (Elementary.pi : Rat) := by decide +kernel
  obtain ⟨within, rounded⟩ := commands_within_rounded_bounds pi coarseThrust _ after 100
    definition finalized field declared plain
  obtain ⟨lowest, highest, _⟩ := rounded own
  rw [lowest, highest, low, high, name, least, most] at within
  refine ⟨definition, after, finalized, fun state isActive => ?_⟩
  obtain ⟨between, exactly⟩ := within state isActive
  refine ⟨between, ?_⟩
  rw [exactly]
  norm_num

end Learning

end Autoland
