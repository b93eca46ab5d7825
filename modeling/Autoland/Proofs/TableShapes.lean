import Autoland.Engine.Flight
import Autoland.Proofs.EngineInvariant

/-! Learning and attaching change the values of tables, and neither their names nor their sizes. The
end of a flight counts and lets tables learn, and does nothing else. -/

namespace Autoland

open Problem Learning

theorem Table.Store.SameShape.trans {φ : Type} {first second third : Table.Store φ}
    (one : first.SameShape second) (two : second.SameShape third) : first.SameShape third :=
  ⟨two.1.trans one.1, two.2.trans one.2⟩

theorem Table.Store.update_sameShape {φ : Type} [TableValue φ] (store : Table.Store φ)
    (index : Nat) (f : φ → φ) : store.SameShape (store.update index f).2 := by
  unfold Table.Store.update
  split
  · exact ⟨rfl, rfl⟩
  · exact ⟨rfl, rfl⟩

theorem Table.Store.attach_sameShape {φ : Type} [TableValue φ] (image : Table.Image φ)
    (store : Table.Store φ) : store.SameShape (store.attach image).2 := by
  unfold Table.Store.attach
  split
  · exact ⟨rfl, rfl⟩
  · exact ⟨rfl, rfl⟩

theorem Engine.attachTable_sameShape {ν φ : Type} [TableValue φ] (engine : Engine ν φ)
    (image : Table.Image φ) : SameShape engine (engine.attachTable image).2 :=
  withStore_sameShape _ _ engine (Table.Store.attach_sameShape image)

variable {ν φ : Type} [Scalar ν] [TableValue φ] [Stored ν φ]

namespace Learning

theorem temporalDifference_store (definition : Definition ν) (trajectory : Trajectory ν)
    (store : Table.Store φ) :
    (temporalDifference definition trajectory store).2 = store ∨
      ∃ index f, (temporalDifference definition trajectory store).2 = (store.update index f).2 := by
  unfold temporalDifference
  split
  · rename_i current previous earlier history
    split
    · exact .inl rfl
    · split
      · exact .inl rfl
      · rename_i value _
        right
        refine ⟨previous.index, moveToward definition.params.alpha
          (reward definition current + definition.params.stepDiscount * Stored.widen value), ?_⟩
        dsimp only
        split
        · rename_i updated
          rw [updated]
        · rename_i updated
          rw [updated]
  · exact .inl rfl

theorem monteCarlo_store (definition : Definition ν) (trajectory : Trajectory ν)
    (store : Table.Store φ) :
    (monteCarlo definition trajectory store).2 = store ∨
      ∃ indices batch alpha discount target steps, store.batch indices = .ok batch ∧
        (monteCarlo definition trajectory store).2 =
          (learnBackward (alpha : ν) discount target steps batch).store := by
  unfold monteCarlo
  split
  · exact .inl rfl
  · split
    · exact .inl rfl
    · dsimp only
      split
      · exact .inl rfl
      · rename_i batch held
        exact .inr ⟨_, batch, _, _, _, _, held, rfl⟩

theorem temporalDifference_sameShape (definition : Definition ν) (trajectory : Trajectory ν)
    (store : Table.Store φ) :
    store.SameShape (temporalDifference definition trajectory store).2 := by
  rcases temporalDifference_store definition trajectory store with same | ⟨index, f, same⟩
  · rw [same]
    exact ⟨rfl, rfl⟩
  · rw [same]
    exact store.update_sameShape index f

theorem learnBackward_sameShape (alpha discount target : ν) (steps : List (Nat × ν))
    (batch : Table.Batch φ) :
    batch.store.SameShape (learnBackward alpha discount target steps batch).store := by
  induction steps generalizing target batch with
  | nil => exact ⟨rfl, rfl⟩
  | cons step earlier ih =>
      rcases step with ⟨index, reward⟩
      rw [learnBackward]
      have written : ∀ value : φ, batch.store.SameShape (batch.set index value).2.store := by
        intro value
        unfold Table.Batch.set
        split_ifs
        · exact ⟨rfl, rfl⟩
        · exact ⟨rfl, rfl⟩
        · exact ⟨rfl, rfl⟩
      exact (written _).trans (ih _ _)

theorem monteCarlo_sameShape (definition : Definition ν) (trajectory : Trajectory ν)
    (store : Table.Store φ) : store.SameShape (monteCarlo definition trajectory store).2 := by
  rcases monteCarlo_store definition trajectory store with same | ⟨_, _, _, _, _, _, held, same⟩
  · rw [same]
    exact ⟨rfl, rfl⟩
  · rcases bind_eq_ok.mp held with ⟨_, _, made⟩
    cases made
    rw [same]
    exact learnBackward_sameShape _ _ _ _ _

end Learning

namespace Engine

/-- What an engine becomes when tables learn and things are counted, in any order. -/
inductive Learns (before : Engine ν φ) : Engine ν φ → Prop where
  | refl : Learns before before
  | count (after : Engine ν φ) (counters : Counters) (learns : Learns before after) :
      Learns before { after with counters }
  | fromStep (after : Engine ν φ) (definition : Definition ν) (trajectory : Trajectory ν)
      (learns : Learns before after) :
      Learns before
        (after.withStore definition.name (temporalDifference definition trajectory)).2
  | fromFlight (after : Engine ν φ) (definition : Definition ν) (trajectory : Trajectory ν)
      (learns : Learns before after) :
      Learns before (after.withStore definition.name (monteCarlo definition trajectory)).2

theorem Learns.trans {first second third : Engine ν φ} (one : Learns first second)
    (two : Learns second third) : Learns first third := by
  induction two with
  | refl => exact one
  | count after counters _ ih => exact .count after counters ih
  | fromStep after definition trajectory _ ih => exact .fromStep after definition trajectory ih
  | fromFlight after definition trajectory _ ih => exact .fromFlight after definition trajectory ih

theorem Learns.sameShape {before after : Engine ν φ} (learns : Learns before after) :
    SameShape before after := by
  induction learns with
  | refl => exact .refl before
  | count after counters _ ih => exact ⟨ih.definitions, ih.tables⟩
  | fromStep after definition trajectory _ ih =>
      exact ih.trans (withStore_sameShape _ _ after (temporalDifference_sameShape _ trajectory))
  | fromFlight after definition trajectory _ ih =>
      exact ih.trans (withStore_sameShape _ _ after (monteCarlo_sameShape _ trajectory))

theorem learnFlight_learns (engine : Engine ν φ) (trajectory : Trajectory ν) :
    Learns engine (engine.learnFlight trajectory).2 := by
  unfold learnFlight
  split
  · exact .fromFlight engine trajectory.definition trajectory .refl
  · exact .refl

theorem learnFlights_cons_ok {engine between : Engine ν φ} {trajectory : Trajectory ν}
    {updates : Nat} (learned : engine.learnFlight trajectory = (.ok updates, between))
    (order : List (Trajectory ν)) :
    learnFlights (trajectory :: order) engine =
      ((learnFlights order between).1.map (updates + ·), (learnFlights order between).2) := by
  rw [learnFlights, learned]
  dsimp only
  cases learnFlights order between with
  | mk result after => cases result <;> rfl

theorem learnFlights_learns (trajectories : List (Trajectory ν)) (engine : Engine ν φ) :
    Learns engine (learnFlights trajectories engine).2 := by
  induction trajectories generalizing engine with
  | nil => exact .refl
  | cons trajectory trajectories ih =>
      have head := engine.learnFlight_learns trajectory
      cases learned : engine.learnFlight trajectory with
      | mk result between =>
          rw [learned] at head
          cases result with
          | error error =>
              rw [learnFlights, learned]
              exact head
          | ok updates =>
              rw [learnFlights_cons_ok learned]
              exact head.trans (ih between)

theorem finishIn_learns (order : List (Trajectory ν)) (engine : Engine ν φ) (episode : Episode ν)
    (verdict : List Bool) : Learns engine (finishIn order engine episode verdict).2 := by
  have learned := learnFlights_learns order engine
  unfold finishIn
  cases made : learnFlights order engine with
  | mk result after =>
      rw [made] at learned
      cases result with
      | error error => exact learned
      | ok updates => exact .count _ _ learned

theorem finish_sameShape (engine : Engine ν φ) (episode : Episode ν) (verdict : List Bool) :
    SameShape engine (engine.finish episode verdict).2 :=
  (finishIn_learns _ engine episode verdict).sameShape

end Engine

end Autoland
