import Autoland.Proofs.CommandBounds

/-! The units of an angle across a definition. Its field is turned into radians by its precision,
its success bounds by their own size, so the two may be in different units. -/

namespace Autoland

open Problem

namespace Problem

section Units

variable {ν : Type} [Scalar ν]

/-- An end of the bounds is 2 or more away from zero. -/
def Bounds.Wide (bounds : Bounds ν) : Prop :=
  (2.0 : ν) ≤ Scalar.abs bounds.min ∨ (2.0 : ν) ≤ Scalar.abs bounds.max

variable [Elementary ν]

def Bounds.inRadians (bounds : Bounds ν) : Bounds ν :=
  ⟨bounds.name, Scalar.radians bounds.min, Scalar.radians bounds.max⟩

def FieldSpec.inRadians (spec : FieldSpec ν) : FieldSpec ν :=
  ⟨spec.name, Scalar.radians spec.min, Scalar.radians spec.max, spec.precision.map Scalar.radians⟩

namespace Document

theorem checkField_of_degrees (spec field : FieldSpec ν) (accepted : checkField spec = .ok field)
    (angle : Grid.isAngleName spec.name = true)
    (degrees : Grid.givenInDegrees spec.min spec.max spec.precision = true) :
    field = spec.inRadians := by
  unfold checkField at accepted
  split at accepted
  · cases accepted
  · rename_i precision given
    rw [FieldSpec.inRadians, given]
    split at accepted
    · cases accepted
    · split at accepted
      · cases accepted
      · rw [angle, degrees, Bool.and_true, if_pos rfl] at accepted
        exact (Except.ok.inj accepted).symm

/-- What success bounds are checked into: they keep their name, and angles are turned into radians
if the bounds are wide. -/
structure Checked (given held : Bounds ν) : Prop where
  name : held.name = given.name
  wide : Grid.isAngleName given.name = true → given.Wide → held = given.inRadians
  narrow : Grid.isAngleName given.name = true → ¬given.Wide → held = given

theorem checkSuccess_eq_ok (given held : Bounds ν) (accepted : checkSuccess given = .ok held) :
    Checked given held := by
  have wide_iff : Grid.givenInDegrees given.min given.max none = true ↔ given.Wide := by
    rw [Grid.givenInDegrees, Bool.or_eq_true, decide_eq_true_eq, decide_eq_true_eq, Bounds.Wide]
  unfold checkSuccess at accepted
  split at accepted
  · cases accepted
  · split at accepted
    · rename_i degrees
      cases accepted
      rw [Bool.and_eq_true, wide_iff] at degrees
      exact ⟨rfl, fun _ _ => rfl, fun _ narrow => absurd degrees.2 narrow⟩
    · rename_i kept
      cases accepted
      rw [Bool.and_eq_true, wide_iff] at kept
      exact ⟨rfl, fun angle wide => absurd ⟨angle, wide⟩ kept, fun _ _ => rfl⟩

theorem declaredField_of_state (document : Document ν) (spec : FieldSpec ν) :
    document.declaredField false spec = checkField spec := by
  unfold declaredField
  split
  · rfl
  · rfl

theorem succeeds_iff_of_checked (name : String) (angle : Grid.isAngleName name = true)
    (state : State ν) (bounds : List (Bounds ν))
    (checked : List.Forall₂ Checked bounds state.definition.success) :
    state.succeeds = true ↔
      (∀ given ∈ bounds, given.name = name →
        (given.Wide → given.inRadians.contains (state.record.value name) = true) ∧
        (¬given.Wide → given.contains (state.record.value name) = true)) ∧
      ∀ held ∈ state.definition.success, held.name ≠ name →
        held.contains (state.record.value held.name) = true := by
  rw [State.succeeds, List.all_eq_true]
  constructor
  · intro all
    refine ⟨?_, fun held member _ => all held member⟩
    rintro given member rfl
    obtain ⟨held, inside, kept⟩ := exists_of_mem_right checked.flip given member
    have within := all held inside
    rw [kept.name] at within
    constructor
    · intro wide
      rwa [kept.wide angle wide] at within
    · intro narrow
      rwa [kept.narrow angle narrow] at within
  · rintro ⟨own, others⟩ held member
    by_cases named : held.name = name
    · obtain ⟨given, inside, kept⟩ := exists_of_mem_right checked held member
      obtain rfl : given.name = name := kept.name.symm.trans named
      obtain ⟨wide, narrow⟩ := own given inside rfl
      rw [named]
      by_cases size : given.Wide
      · rw [kept.wide angle size]
        exact wide size
      · rw [kept.narrow angle size]
        exact narrow size
    · exact others held member named

variable (document : Document ν) (compiler after : Formula.Compiler ν) (denseCap : Nat)
  (definition : Definition ν)
  (accepted : document.finalize compiler denseCap = (.ok definition, after))

include accepted

theorem exists_state_of_finalize (spec : FieldSpec ν) (given : spec ∈ document.state) :
    ∃ field ∈ definition.state, checkField spec = .ok field := by
  obtain ⟨outline, _, _, outlined, _, rfl⟩ := finalize_eq_ok _ _ _ _ _ accepted
  obtain ⟨declared, member, _, checked⟩ := exists_of_mem_right outlined.state.flip spec given
  rw [declaredField_of_state] at checked
  exact ⟨declared.field, List.mem_map_of_mem member, checked⟩

theorem success_of_finalize :
    List.Forall₂ Checked document.success definition.success := by
  obtain ⟨outline, _, _, outlined, _, rfl⟩ := finalize_eq_ok _ _ _ _ _ accepted
  exact ((mapM_eq_ok_iff _ _ _).mp outlined.success).imp checkSuccess_eq_ok

/-- An angle field that is given in degrees is kept in radians. Of the success bounds of that name
the wide ones are turned into radians by the same factor, and the others are kept as they are
given; these are the limits that the verdict on a state holds its value against. -/
theorem angle_units_of_finalize (spec : FieldSpec ν) (given : spec ∈ document.state)
    (angle : Grid.isAngleName spec.name = true)
    (degrees : Grid.givenInDegrees spec.min spec.max spec.precision = true) :
    spec.inRadians ∈ definition.state ∧
      List.Forall₂ (fun given held => given.name = spec.name →
        (given.Wide → held = given.inRadians) ∧ (¬given.Wide → held = given))
        document.success definition.success ∧
      ∀ state : State ν, state.definition = definition →
        (state.succeeds = true ↔
          (∀ given ∈ document.success, given.name = spec.name →
            (given.Wide → given.inRadians.contains (state.record.value spec.name) = true) ∧
            (¬given.Wide → given.contains (state.record.value spec.name) = true)) ∧
          ∀ held ∈ definition.success, held.name ≠ spec.name →
            held.contains (state.record.value held.name) = true) := by
  have bounds := success_of_finalize document compiler after denseCap definition accepted
  refine ⟨?_, ?_, ?_⟩
  · obtain ⟨field, member, checked⟩ := exists_state_of_finalize document compiler after denseCap
      definition accepted spec given
    rwa [checkField_of_degrees spec field checked angle degrees] at member
  · refine bounds.imp fun given held checked named => ?_
    rw [← named] at angle
    exact ⟨checked.wide angle, checked.narrow angle⟩
  · rintro state rfl
    exact succeeds_iff_of_checked spec.name angle state document.success bounds

end Document

end Units

theorem Bounds.contains_inRadians [Elementary Rat] (positive : 0 < (Elementary.pi : Rat))
    (bounds : Bounds Rat) (value : Rat) :
    bounds.inRadians.contains value = bounds.contains (Scalar.degrees value) := by
  have straight : (180.0 : Rat) = 180 := by norm_num
  have low : Scalar.radians bounds.min ≤ value ↔ bounds.min ≤ Scalar.degrees value := by
    rw [Scalar.radians, Scalar.degrees, straight, ← mul_div_assoc, ← mul_div_assoc,
      div_le_iff₀ (by norm_num), le_div_iff₀ positive]
  have high : value ≤ Scalar.radians bounds.max ↔ Scalar.degrees value ≤ bounds.max := by
    rw [Scalar.radians, Scalar.degrees, straight, ← mul_div_assoc, ← mul_div_assoc,
      le_div_iff₀ (by norm_num), div_le_iff₀ positive]
  exact congrArg₂ and (decide_eq_decide.mpr low) (decide_eq_decide.mpr high)

def tilt (limit : Rat) : Document Rat :=
  { Document.blank with
    name := "tilt"
    state := [⟨"angleX", -(35.0), 35.0, some 5.0⟩]
    success := [⟨"angleX", -limit, limit⟩]
    holds := [⟨"angleX", [10.0]⟩] }

open Learning in
/-- With a limit of one degree the success bounds and the held value stay as they are given while
the field is turned into radians, and a state at about 30 degrees succeeds. -/
theorem narrow_limit_kept :
    letI := plainElementary
    ∃ definition after, (tilt 1).finalize Formula.Compiler.standard 100 = (.ok definition, after) ∧
      definition.state = (tilt 1).state.map FieldSpec.inRadians ∧
      definition.success = (tilt 1).success ∧
      definition.success ≠ (tilt 1).success.map Bounds.inRadians ∧
      definition.holds = (tilt 1).holds ∧
      (State.ofValues definition [("angleX", 1 / 2)] none).succeeds = true ∧
      29 < Scalar.degrees
        ((State.ofValues definition [("angleX", 1 / 2)] none).record.value "angleX") := by
  let := plainElementary
  have evaluated : ((tilt 1).finalize Formula.Compiler.standard 100).1.toOption.any
      (fun definition =>
        let state := State.ofValues definition [("angleX", 1 / 2)] none
        definition.state = (tilt 1).state.map FieldSpec.inRadians &&
        (definition.success = (tilt 1).success &&
          definition.success ≠ (tilt 1).success.map Bounds.inRadians &&
          definition.holds = (tilt 1).holds) &&
        (state.succeeds && decide (29 < Scalar.degrees (state.record.value "angleX")))) = true := by
    decide +kernel
  obtain ⟨definition, after, finalized, checked⟩ := exists_ok_of_any evaluated
  simp only [Bool.and_eq_true, decide_eq_true_eq] at checked
  obtain ⟨⟨state, ⟨success, apart⟩, holds⟩, succeeds, far⟩ := checked
  exact ⟨definition, after, finalized, state, success, apart, holds, succeeds, far⟩

open Learning in
theorem angle_units_of_finalize_wide_limit :
    letI := plainElementary
    ∃ definition after, (tilt 10).finalize Formula.Compiler.standard 100 =
        (.ok definition, after) ∧
      ∀ state : State Rat, state.definition = definition →
        (state.succeeds = true ↔
          Scalar.degrees (state.record.value "angleX") ∈ Set.Icc (-10) 10) := by
  let := plainElementary
  have pi : 0 < (Elementary.pi : Rat) := by decide +kernel
  have evaluated : ((tilt 10).finalize Formula.Compiler.standard 100).1.toOption.any
      (fun _ => true) = true := by
    decide +kernel
  obtain ⟨definition, after, finalized, _⟩ := exists_ok_of_any evaluated
  have wide : (⟨"angleX", -10, 10⟩ : Bounds Rat).Wide := by
    unfold Bounds.Wide
    decide +kernel
  obtain ⟨_, bounds, verdict⟩ := Document.angle_units_of_finalize (tilt 10) _ after 100 definition
    finalized ⟨"angleX", -(35.0), 35.0, some 5.0⟩ List.mem_cons_self (by decide +kernel)
    (by decide +kernel)
  have limits : definition.success = [Bounds.inRadians ⟨"angleX", -10, 10⟩] := by
    obtain ⟨held, rest, relates, none, same⟩ := List.forall₂_cons_left_iff.mp bounds
    rw [same, List.forall₂_nil_left_iff.mp none, (relates rfl).1 wide]
  refine ⟨definition, after, finalized, fun state made => ?_⟩
  have within : ∀ value : Rat, Bounds.contains ⟨"angleX", -10, 10⟩ value = true ↔
      value ∈ Set.Icc (-10) 10 := by
    intro value
    rw [Bounds.contains, Bool.and_eq_true, decide_eq_true_eq, decide_eq_true_eq, Set.mem_Icc]
  rw [verdict state made, ← within, ← Bounds.contains_inRadians pi]
  constructor
  · rintro ⟨own, _⟩
    exact (own _ List.mem_cons_self rfl).1 wide
  · intro inside
    constructor
    · intro given member _
      rw [List.mem_singleton.mp member]
      exact ⟨fun _ => inside, absurd wide⟩
    · intro held member other
      rw [limits, List.mem_singleton] at member
      rw [member] at other
      exact absurd rfl other

end Problem

end Autoland
