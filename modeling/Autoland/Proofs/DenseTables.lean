import Autoland.Proofs.Decisions
import Autoland.Proofs.DenseForms
import Autoland.Proofs.EngineLearning

/-! Tables that keep every entry. The dense form of a table holds the same values, and whatever
reads the one, picks by it or learns in it, does the same with the other. -/

namespace Autoland

open Problem Learning Table

variable {ν φ : Type}

section Tables

variable [TableValue φ]

namespace Table.Cells

/-- The same values in cells of which a table of that size keeps every one. -/
def spread (size : Nat) (cells : Cells φ) : Cells φ :=
  .dense (Array.ofFn fun place : Fin size => cells.get place)

variable (cells : Cells φ) (size index : Nat)

theorem get_spread (below : index < size) : (cells.spread size).get index = cells.get index := by
  simp [spread, get, below]

theorem spread_set (fits : cells.Fits size) (below : index < size) (value : φ) :
    (cells.set index value).spread size = (cells.spread size).set index value := by
  unfold spread
  rw [set]
  apply congrArg
  apply Array.ext
  · simp
  · intro place low high
    have written := get_set cells size index place value fits below
    rw [Array.getElem_ofFn, written, Array.getElem_setIfInBounds (by simpa using high)]
    by_cases same : place = index
    · rw [if_pos same, if_pos same.symm]
    · rw [if_neg same, if_neg (Ne.symm same), Array.getElem_ofFn]

theorem spread_zero (shards others : Nat) (backing : Grid.Backing) :
    (zero size shards backing : Cells φ).spread size = zero size others .dense := by
  unfold spread
  simp only [get_zero]
  rw [zero]
  apply congrArg
  apply Array.ext <;> simp

end Table.Cells

namespace Table.Store

@[simps]
def dense (store : Store φ) : Store φ := { store with cells := store.cells.spread store.size }

theorem ofLayout_dense (name : String) (layout : Grid.Layout) (shards others : Nat) :
    ofLayout name layout.dense others = (ofLayout name layout shards : Store φ).dense :=
  congrArg (Store.mk name layout.total) (Cells.spread_zero layout.total shards others _).symm

variable (store : Store φ)

theorem check_dense (index : Nat) : store.dense.check index = store.check index := rfl

theorem get_dense (index : Nat) : store.dense.get index = store.get index := by
  by_cases below : index < store.size
  · rw [get_eq_ok _ index below, get_eq_ok store.dense index below]
    exact congrArg _ (store.cells.get_spread store.size index below)
  · rw [get, get, check_dense, check, if_neg below]
    rfl

theorem update_dense (placed : store.Placed) (index : Nat) (f : φ → φ) :
    store.dense.update index f = ((store.update index f).1, (store.update index f).2.dense) := by
  by_cases below : index < store.size
  · rw [store.update_eq_ok index below, store.dense.update_eq_ok index below]
    simp only [dense, store.cells.get_spread store.size index below,
      store.cells.spread_set store.size index placed.fits below]
  · rw [update, update, check_dense, check, if_neg below]

end Table.Store

def Table.Batch.dense (batch : Batch φ) : Batch φ := batch.store.dense.hold batch.members

namespace Table.Batch

theorem batch_dense (store : Store φ) (indices : List Nat) :
    store.dense.batch indices = (store.batch indices).map Batch.dense := by
  have checked : store.dense.check = store.check := rfl
  unfold Store.batch
  rw [checked]
  cases indices.forM store.check <;> rfl

variable (batch : Batch φ) (placed : batch.Placed) (index : Nat)

include placed

theorem get?_dense : batch.dense.get? index = batch.get? index := by
  simp only [get?_eq, dense, Store.hold, Store.dense_cells]
  split
  · rename_i member
    rw [batch.store.cells.get_spread _ index (placed.members index member)]
  · rfl

theorem set_dense (value : φ) :
    (batch.dense.set index value).2 = (batch.set index value).2.dense := by
  simp only [set_eq, dense, Store.hold, write]
  split
  · rename_i member
    simp only [Store.dense, batch.store.cells.spread_set _ index placed.store.fits
      (placed.members index member)]
    rfl
  · rfl

end Table.Batch

end Tables

namespace Learning

section Picked

variable [Scalar ν] [RankedValue φ]

variable (store : Store φ) (definition : Definition ν) (state : State ν) (actions : List (Action ν))

omit [Scalar ν] in
theorem learnedValues_dense :
    learnedValues store.dense definition.dense state.dense (actions.map Action.dense) =
      learnedValues store definition state actions := by
  unfold learnedValues
  simp only [List.mapM_map, Store.get_dense]
  rfl

omit [Scalar ν] in
theorem pool_dense (explore : Bool) :
    pool explore store.dense definition.dense state.dense (actions.map Action.dense) =
      pool explore store definition state actions := by
  rw [pool, pool, List.length_map, learnedValues_dense]

theorem select_dense (exploration : ν) (source : Source) :
    select exploration store.dense definition.dense state.dense (actions.map Action.dense) source =
      ((select exploration store definition state actions source).1.map Action.dense,
        (select exploration store definition state actions source).2) := by
  cases actions with
  | nil => rfl
  | cons first actions =>
      have pooled := pool_dense store definition state (first :: actions)
      rw [List.map_cons] at pooled ⊢
      unfold select
      dsimp only
      rw [pooled]
      cases pool _ store definition state (first :: actions) with
      | error error => rfl
      | ok positions =>
          dsimp only
          generalize Source.choose positions _ = chosen
          rcases chosen with ⟨position, source⟩
          rw [← List.map_cons, map_swapRemove?, map_swapRemove?, List.getElem?_map]
          cases (first :: actions)[position.getD 0]? <;> rfl

end Picked

variable [Scalar ν] [TableValue φ] [Stored ν φ]

theorem learnBackward_dense (alpha discount target : ν) (steps : List (Nat × ν)) (batch : Batch φ)
    (placed : batch.Placed) :
    learnBackward alpha discount target steps batch.dense =
      (learnBackward alpha discount target steps batch).dense := by
  induction steps generalizing target batch with
  | nil => rfl
  | cons step earlier ih =>
      simp only [learnBackward, batch.get?_dense placed, batch.set_dense placed]
      exact ih _ _ (placed.set _ _)

variable (definition : Definition ν) (trajectory : Trajectory ν) (store : Store φ)
  (placed : store.Placed)

include placed

theorem temporalDifference_dense :
    temporalDifference definition.dense trajectory.dense store.dense =
      ((temporalDifference definition trajectory store).1,
        (temporalDifference definition trajectory store).2.dense) := by
  unfold temporalDifference
  rw [Trajectory.dense_history]
  cases trajectory.history with
  | nil => rfl
  | cons current earlier =>
      cases earlier with
      | nil => rfl
      | cons previous earlier =>
          simp only [List.map_cons, Decision.dense_state, State.same_dense, Decision.dense_index,
            reward_dense, Definition.dense_params, Store.get_dense, store.update_dense placed]
          split
          · rfl
          · cases store.get current.index with
            | error error => rfl
            | ok value =>
                dsimp only
                generalize store.update previous.index _ = updated
                rcases updated with ⟨result, after⟩
                cases result <;> rfl

theorem monteCarlo_dense :
    monteCarlo definition.dense trajectory.dense store.dense =
      ((monteCarlo definition trajectory store).1,
        (monteCarlo definition trajectory store).2.dense) := by
  have indices : trajectory.dense.decisions.map (·.index) = trajectory.decisions.map (·.index) := by
    rw [Trajectory.decisions, Trajectory.dense_history, ← List.map_reverse, List.map_map]
    rfl
  unfold monteCarlo
  rw [Trajectory.dense_history]
  cases trajectory.history with
  | nil => rfl
  | cons last earlier =>
      simp only [List.map_cons, terminalReward?_dense, indices, Batch.batch_dense]
      cases terminalReward? definition last with
      | none => rfl
      | some terminal =>
          dsimp only
          cases held : store.batch (trajectory.decisions.map (·.index)) with
          | error error => rfl
          | ok batch =>
              have steps : (earlier.map Decision.dense).map (fun decision =>
                    (decision.index, reward definition.dense decision)) =
                  earlier.map fun decision => (decision.index, reward definition decision) := by
                rw [List.map_map]
                rfl
              have learned := learnBackward_dense definition.params.alpha
                definition.params.discount (terminal - altitudePenalty last.state)
                ((last.index, reward definition last) ::
                  earlier.map fun decision => (decision.index, reward definition decision))
                batch (placed.batch _ batch held)
              rw [steps, List.length_cons, List.length_map]
              exact Prod.ext rfl (congrArg Batch.store learned)

end Learning

end Autoland
