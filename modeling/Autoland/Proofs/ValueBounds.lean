import Autoland.Number.Exact
import Autoland.Proofs.EngineLearning
import Autoland.Proofs.FlightReturns
import Mathlib.Algebra.Order.Field.Rat
import Mathlib.Tactic.NormNum
import Mathlib.Tactic.Ring

/-! How large learned values get. In exact arithmetic they stay between two bounds if the rewards of
single decisions agree with these, and the rewards of endings lie between them. -/

namespace Autoland

open Problem Learning Table

section Averages

variable {K : Type} [Field K] [LinearOrder K] [IsStrictOrderedRing K] {lo hi weight value rest : K}

theorem weighted_add_mem_Icc (unit : weight ∈ Set.Icc 0 1) (inside : value ∈ Set.Icc lo hi)
    (scaled : rest ∈ Set.Icc ((1 - weight) * lo) ((1 - weight) * hi)) :
    weight * value + rest ∈ Set.Icc lo hi := by
  constructor
  · calc
      lo = weight * lo + (1 - weight) * lo := by ring
      _ ≤ weight * value + rest :=
        add_le_add (mul_le_mul_of_nonneg_left inside.1 unit.1) scaled.1
  · calc
      weight * value + rest ≤ weight * hi + (1 - weight) * hi :=
        add_le_add (mul_le_mul_of_nonneg_left inside.2 unit.1) scaled.2
      _ = hi := by ring

theorem step_toward_mem_Icc {target : K} (unit : weight ∈ Set.Icc 0 1)
    (inside : value ∈ Set.Icc lo hi) (aim : target ∈ Set.Icc lo hi) :
    value + weight * (target - value) ∈ Set.Icc lo hi := by
  have left : 0 ≤ 1 - weight := sub_nonneg.mpr unit.2
  have mixed := weighted_add_mem_Icc unit aim
    ⟨mul_le_mul_of_nonneg_left inside.1 left, mul_le_mul_of_nonneg_left inside.2 left⟩
  have same : weight * target + (1 - weight) * value = value + weight * (target - value) := by ring
  rwa [same] at mixed

end Averages

theorem Problem.Params.units_of_validate (params : Params Rat) (valid : params.validate = .ok ()) :
    params.discount ∈ Set.Icc 0 1 ∧ params.stepDiscount ∈ Set.Icc 0 1 ∧
      params.alpha ∈ Set.Icc 0 1 := by
  have zero : (0.0 : Rat) = 0 := by norm_num
  have one : (1.0 : Rat) = 1 := by norm_num
  have unit : ∀ name value done, requireUnit name value = .ok done →
      value ∈ Set.Icc (0 : Rat) 1 := by
    intro name value _ passed
    unfold requireUnit at passed
    split at passed
    · rename_i within
      simp only [Bool.and_eq_true, decide_eq_true_iff] at within
      exact ⟨zero ▸ within.1.2, one ▸ within.2⟩
    · cases passed
  rw [validate, bind_eq_ok] at valid
  rcases valid with ⟨_, discount, valid⟩
  rw [bind_eq_ok] at valid
  rcases valid with ⟨_, step, valid⟩
  rw [bind_eq_ok] at valid
  rcases valid with ⟨_, _, valid⟩
  refine ⟨unit _ _ _ discount, unit _ _ _ step, ?_⟩
  split at valid
  · rename_i within
    simp only [Bool.and_eq_true, decide_eq_true_iff] at within
    exact ⟨le_of_lt (zero ▸ within.1), one ▸ within.2⟩
  · cases valid

def Table.Store.Within (lo hi : Rat) (store : Store Rat) : Prop :=
  ∀ index, store.cells.get index ∈ Set.Icc lo hi

section Learned

variable {lo hi alpha : Rat} (part : alpha ∈ Set.Icc 0 1)

theorem Table.Store.Within.set {store : Store Rat} (within : store.Within lo hi)
    (placed : store.Placed) (index : Nat) (below : index < store.size) (value : Rat)
    (inside : value ∈ Set.Icc lo hi) :
    { store with cells := store.cells.set index value : Store Rat }.Within lo hi := by
  intro other
  dsimp only
  rw [store.cells.get_set _ _ _ _ placed.fits below]
  split
  · exact inside
  · exact within other

include part

theorem moveToward_mem_Icc (target value : Rat) (aim : target ∈ Set.Icc lo hi)
    (inside : value ∈ Set.Icc lo hi) : (moveToward alpha target value : Rat) ∈ Set.Icc lo hi :=
  step_toward_mem_Icc part inside aim

theorem within_update {store : Store Rat} (within : store.Within lo hi) (placed : store.Placed)
    (index : Nat) (target : Rat) (aim : target ∈ Set.Icc lo hi) :
    (store.update index (moveToward alpha target)).2.Within lo hi := by
  by_cases below : index < store.size
  · rw [store.update_eq_ok index below]
    exact within.set placed index below _ (moveToward_mem_Icc part target _ aim (within index))
  · rw [Store.update, Store.check, if_neg below]
    exact within

/-- On the walk back through a flight the return that is carried on stays between the bounds. -/
theorem within_learnBackward {discount : Rat} (unit : discount ∈ Set.Icc 0 1)
    (steps : List (Nat × Rat)) (rewards : ∀ step ∈ steps,
      step.2 ∈ Set.Icc ((1 - discount) * lo) ((1 - discount) * hi)) (target : Rat)
    (aim : target ∈ Set.Icc lo hi) {batch : Batch Rat} (placed : batch.Placed)
    (within : batch.store.Within lo hi) :
    (learnBackward alpha discount target steps batch).store.Within lo hi := by
  induction steps generalizing target batch with
  | nil => exact within
  | cons first earlier ih =>
      rcases first with ⟨index, reward⟩
      rcases List.forall_mem_cons.mp rewards with ⟨own, others⟩
      have next := weighted_add_mem_Icc unit aim own
      by_cases held : index ∈ batch.members
      · rw [learnBackward_held _ _ _ _ _ _ _ held]
        exact ih others _ next (placed_taught _ _ _ placed held)
          (within.set placed.store index (placed.members index held) _
            (moveToward_mem_Icc part target _ aim (within index)))
      · rw [learnBackward, Batch.set, if_pos held]
        exact ih others _ next placed within

end Learned

structure Lesson (ν : Type) where
  method : Method
  definition : Definition ν
  trajectory : Trajectory ν

namespace Lesson

/-- The table after a lesson, also after one that fails. -/
def teach {ν φ : Type} [Scalar ν] [TableValue φ] [Stored ν φ] (lesson : Lesson ν)
    (store : Store φ) : Store φ :=
  match lesson.method with
  | .monteCarlo => (monteCarlo lesson.definition lesson.trajectory store).2
  | .temporalDifference => (temporalDifference lesson.definition lesson.trajectory store).2

theorem teach_sameShape {ν φ : Type} [Scalar ν] [TableValue φ] [Stored ν φ] (lesson : Lesson ν)
    (store : Store φ) : store.SameShape (lesson.teach store) := by
  unfold teach
  split
  · exact monteCarlo_sameShape _ _ store
  · exact temporalDifference_sameShape _ _ store

/-- Whether the rewards of a lesson agree with bounds: those of single decisions leave as much as
either discount does, and that of an ending, less what its altitude costs, lies between them. -/
structure Fair (lo hi : Rat) (lesson : Lesson Rat) : Prop where
  params : lesson.definition.params.validate = .ok ()
  flight : ∀ decision ∈ lesson.trajectory.history, reward lesson.definition decision ∈
    Set.Icc ((1 - lesson.definition.params.discount) * lo)
      ((1 - lesson.definition.params.discount) * hi)
  step : ∀ decision ∈ lesson.trajectory.history, reward lesson.definition decision ∈
    Set.Icc ((1 - lesson.definition.params.stepDiscount) * lo)
      ((1 - lesson.definition.params.stepDiscount) * hi)
  ending : lesson.method = .monteCarlo → ∀ last terminal,
    lesson.trajectory.last? = some last → terminalReward? lesson.definition last = some terminal →
      terminal - altitudePenalty last.state ∈ Set.Icc lo hi

section Keep

variable {lo hi : Rat} {lesson : Lesson Rat} (fair : lesson.Fair lo hi) {store : Store Rat}
  (placed : store.Placed) (within : store.Within lo hi)

include fair placed within

theorem Fair.monteCarlo (uses : lesson.method = .monteCarlo) :
    (Learning.monteCarlo lesson.definition lesson.trajectory store).2.Within lo hi := by
  obtain ⟨discount, _, alpha⟩ := lesson.definition.params.units_of_validate fair.params
  have rewards := fair.flight
  unfold Learning.monteCarlo
  split
  · exact within
  · rename_i last earlier history
    rw [history] at rewards
    split
    · exact within
    · rename_i terminal given
      have aim := fair.ending uses last terminal (congrArg List.head? history) given
      dsimp only
      split
      · exact within
      · rename_i batch held
        have same : batch.store = store :=
          congrArg Batch.store ((store.batch_eq_ok _ _).mp held).2
        exact within_learnBackward alpha discount _ (List.forall_mem_map.mpr rewards) _ aim
          (placed.batch _ _ held) (same ▸ within)

theorem Fair.temporalDifference :
    (Learning.temporalDifference lesson.definition lesson.trajectory store).2.Within lo hi := by
  obtain ⟨_, discount, alpha⟩ := lesson.definition.params.units_of_validate fair.params
  have rewards := fair.step
  unfold Learning.temporalDifference
  split
  · rename_i current previous earlier history
    rw [history] at rewards
    split
    · exact within
    · split
      · exact within
      · rename_i value held
        have inside : value ∈ Set.Icc lo hi := by
          obtain ⟨_, _, rfl⟩ := map_eq_ok.mp held
          exact within current.index
        have aim := weighted_add_mem_Icc discount inside (rewards current List.mem_cons_self)
        rw [add_comm] at aim
        have moved : (store.update previous.index (moveToward lesson.definition.params.alpha
            (reward lesson.definition current +
              lesson.definition.params.stepDiscount * Stored.widen value))).2.Within lo hi :=
          within_update alpha within placed previous.index _ aim
        dsimp only
        split
        · rename_i error after refused
          rwa [refused] at moved
        · rename_i told after updated
          rwa [updated] at moved
  · exact within

theorem Fair.teach :
    (lesson.teach store).Placed ∧ (lesson.teach store).Within lo hi := by
  unfold Lesson.teach
  split
  · rename_i uses
    exact ⟨monteCarlo_placed _ _ placed, fair.monteCarlo placed within uses⟩
  · exact ⟨temporalDifference_placed _ _ placed, fair.temporalDifference placed within⟩

end Keep

end Lesson

def Table.Store.teachAll {ν φ : Type} [Scalar ν] [TableValue φ] [Stored ν φ] (store : Store φ)
    (lessons : List (Lesson ν)) : Store φ :=
  lessons.foldl (fun store lesson => lesson.teach store) store

theorem Table.Store.teachAll_sameShape {ν φ : Type} [Scalar ν] [TableValue φ] [Stored ν φ]
    (store : Store φ) (lessons : List (Lesson ν)) : store.SameShape (store.teachAll lessons) := by
  induction lessons generalizing store with
  | nil => exact ⟨rfl, rfl⟩
  | cons lesson lessons ih => exact (lesson.teach_sameShape store).trans (ih _)

theorem Table.Store.teachAll_within {lo hi : Rat} (lessons : List (Lesson Rat))
    (fair : ∀ lesson ∈ lessons, lesson.Fair lo hi) {store : Store Rat} (placed : store.Placed)
    (within : store.Within lo hi) :
    (store.teachAll lessons).Within lo hi := by
  induction lessons generalizing store with
  | nil => exact within
  | cons lesson lessons ih =>
      rcases List.forall_mem_cons.mp fair with ⟨first, others⟩
      rcases first.teach placed within with ⟨kept, bounded⟩
      exact ih others kept bounded

/-- Whatever a fresh table learns, from steps and from whole flights in any order, after each lesson
every entry lies between two bounds around zero, if the rewards of the lessons agree with these. -/
theorem values_stay_bounded (lo hi : Rat) (low : lo ≤ 0) (high : 0 ≤ hi) (name : String)
    (layout : Grid.Layout) (shards : Nat) (lessons : List (Lesson Rat))
    (fair : ∀ lesson ∈ lessons, lesson.Fair lo hi) :
    ∀ taken, taken <+: lessons → ∀ index < layout.total, ∃ value,
      ((.ofLayout name layout shards : Store Rat).teachAll taken).get index = .ok value ∧
        lo ≤ value ∧ value ≤ hi := by
  intro taken before index below
  let fresh : Store Rat := .ofLayout name layout shards
  have placed : fresh.Placed := Cells.placed_zero layout.total shards layout.backing
  have zero : fresh.Within lo hi := by
    intro place
    rw [show fresh.cells.get place = 0 from Cells.get_zero ..]
    exact ⟨low, high⟩
  have bounded := Store.teachAll_within taken
    (fun lesson member => fair lesson (before.subset member)) placed zero
  have inside : index < (fresh.teachAll taken).size := by
    rwa [(fresh.teachAll_sameShape taken).2]
  exact ⟨_, (fresh.teachAll taken).get_eq_ok index inside, bounded index⟩

def exactDescent : Definition Rat where
  name := "descent"
  methods := [.monteCarlo, .temporalDifference]
  priority := 0
  params := ⟨1 / 2, 1 / 2, 1 / 2, 0⟩
  reward := some ⟨"-thrust", .field "thrust" true⟩
  terminalReward := some ⟨"-altitude", .field "altitude" true⟩
  formulas := []
  symmetryAxes := []
  passDownSymmetry := false
  state := [⟨"altitude", 0, 2, some 1⟩]
  action := [⟨"thrust", 0, 1, some 1⟩]
  quantizers := [("altitude", ⟨1, 0⟩), ("thrust", ⟨1, 0⟩)]
  childNames := []
  selectors := []
  success := []
  holds := []
  layout := ⟨[⟨"altitude", 0, 2⟩], [⟨"thrust", 0, 1⟩], [2, 1], 6, .sparse⟩

def exactBounce : Trajectory Rat :=
  let decision (altitude thrust : Int) (index : Nat) : Decision Rat :=
    ⟨⟨exactDescent, none, [("altitude", altitude)]⟩, ⟨⟨exactDescent, none, [("thrust", thrust)]⟩⟩,
      index⟩
  ⟨"descent", exactDescent, [decision 1 1 3, decision 2 0 4, decision 1 1 3]⟩

/-- After a step and then the whole flight all entries are between minus two and zero. -/
theorem values_stay_bounded_exact_bounce :
    let store : Store Rat := .ofLayout "descent" exactDescent.layout 2
    let step : Lesson Rat := ⟨.temporalDifference, exactDescent, exactBounce⟩
    let flight : Lesson Rat := ⟨.monteCarlo, exactDescent, exactBounce⟩
    (∀ lesson ∈ [step, flight], lesson.Fair (-2) 0) ∧
      ((store.teachAll [step]).get 4).toOption = some (-1 / 2) ∧
      ∀ index < 6, ∃ value, (store.teachAll [step, flight]).get index = .ok value ∧
        -2 ≤ value ∧ value ≤ 0 := by
  intro store step flight
  have valid : exactDescent.params.validate = .ok () := eq_ok_of_toOption (by decide +kernel)
  have rewards : ∀ decision ∈ exactBounce.history,
      reward exactDescent decision ∈ Set.Icc ((1 - 1 / 2 : Rat) * -2) ((1 - 1 / 2 : Rat) * 0) := by
    decide +kernel
  have fair : ∀ method, Lesson.Fair (-2) 0 ⟨method, exactDescent, exactBounce⟩ := by
    intro method
    refine ⟨valid, rewards, rewards, ?_⟩
    intro _ last terminal found ends
    cases found
    cases ends
    decide +kernel
  have both : ∀ lesson ∈ [step, flight], lesson.Fair (-2) 0 := by simp [step, flight, fair]
  refine ⟨both, by decide +kernel, ?_⟩
  exact values_stay_bounded (-2) 0 (by decide) (le_refl 0) "descent" exactDescent.layout 2
    [step, flight] both _ (List.prefix_refl _)

end Autoland
