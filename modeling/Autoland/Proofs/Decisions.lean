import Autoland.Proofs.Candidates
import Autoland.Proofs.TableShapes

/-! What one decision of a flight does to the trajectories and the tables. -/

namespace Autoland

open Problem Learning

section Owners

variable {ν : Type}

def Record.SameOwner (before after : Record ν) : Prop :=
  after.definition = before.definition ∧ after.axis = before.axis

theorem Record.foldl_sameOwner {α : Type} (step : Record ν → α → Record ν)
    (keeps : ∀ record item, SameOwner record (step record item)) (items : List α)
    (record : Record ν) : SameOwner record (items.foldl step record) := by
  induction items generalizing record with
  | nil => exact ⟨rfl, rfl⟩
  | cons item items ih =>
      rcases keeps record item with ⟨definition, axis⟩
      rcases ih (step record item) with ⟨same, along⟩
      exact ⟨same.trans definition, along.trans axis⟩

theorem Action.ofBuckets_definition (definition : Definition ν) (buckets : List (String × Int))
    (axis : Option Axis) : (ofBuckets definition buckets axis).definition = definition :=
  (Record.foldl_sameOwner (fun record (entry : String × Int) => record.setBucket entry.1 entry.2)
    (fun _ _ => ⟨rfl, rfl⟩) buckets (Record.empty definition axis)).1

variable [Scalar ν]

theorem Record.setAll_sameOwner (values : List (String × ν)) (record : Record ν) :
    SameOwner record (record.setAll values) :=
  foldl_sameOwner (fun record (entry : String × ν) => record.set entry.1 entry.2)
    (fun _ _ => ⟨rfl, rfl⟩) values record

theorem State.takeAxis_sameOwner (record : Record ν) :
    Record.SameOwner record (takeAxis record) := by
  unfold takeAxis
  split
  · exact ⟨rfl, rfl⟩
  · apply Record.foldl_sameOwner
    intro inner field
    split
    · exact ⟨rfl, rfl⟩
    · exact ⟨rfl, rfl⟩

theorem State.compute_sameOwner (record : Record ν) : Record.SameOwner record (compute record) := by
  apply Record.foldl_sameOwner
  intro inner computed
  rcases computed with ⟨name, formula⟩
  dsimp only
  split
  · exact ⟨rfl, rfl⟩
  · exact ⟨rfl, rfl⟩

theorem State.ofValues_owner (definition : Definition ν) (values : List (String × ν))
    (axis : Option Axis) :
    (ofValues definition values axis).definition = definition ∧
      (ofValues definition values axis).axis = axis := by
  have filled := Record.setAll_sameOwner values (Record.empty definition axis)
  have taken := takeAxis_sameOwner ((Record.empty definition axis).setAll values)
  have computed := compute_sameOwner (takeAxis ((Record.empty definition axis).setAll values))
  exact ⟨computed.1.trans (taken.1.trans filled.1), computed.2.trans (taken.2.trans filled.2)⟩

end Owners

namespace Table.Store

variable {φ : Type} [TableValue φ] (store : Store φ) (index : Nat) (below : index < store.size)

include below

theorem get_eq_ok : store.get index = .ok (store.cells.get index) := by
  rw [get, check, if_pos below]
  rfl

theorem update_eq_ok (f : φ → φ) :
    store.update index f = (.ok (f (store.cells.get index)),
      { store with cells := store.cells.set index (f (store.cells.get index)) }) := by
  rw [update, check, if_pos below]

end Table.Store

namespace Learning

theorem mapM_eq_ok {ε α β : Type} (f : α → Except ε β) (items : List α)
    (succeeds : ∀ item ∈ items, ∃ value, f item = .ok value) :
    ∃ values, items.mapM f = .ok values := by
  induction items with
  | nil => exact ⟨[], rfl⟩
  | cons item items ih =>
      rcases succeeds item List.mem_cons_self with ⟨value, head⟩
      obtain ⟨values, tail⟩ := ih fun inner member => succeeds inner (List.mem_cons_of_mem _ member)
      rw [List.mapM_cons, head]
      exact ⟨value :: values, bind_eq_ok.mpr ⟨value, rfl, bind_eq_ok.mpr ⟨values, tail, rfl⟩⟩⟩

theorem combinations_nonempty (columns : List (String × List Int))
    (full : ∀ column ∈ columns, column.2 ≠ []) : combinations columns ≠ [] := by
  induction columns with
  | nil => exact List.cons_ne_nil _ _
  | cons column columns ih =>
      rcases column with ⟨field, buckets⟩
      rcases List.forall_mem_cons.mp full with ⟨head, tail⟩
      rcases List.exists_mem_of_ne_nil _ head with ⟨bucket, inside⟩
      rcases List.exists_mem_of_ne_nil _ (ih tail) with ⟨choice, chosen⟩
      rw [combinations_cons]
      apply List.ne_nil_of_mem
      exact List.mem_flatMap.mpr ⟨bucket, inside, List.mem_map.mpr ⟨choice, chosen, rfl⟩⟩

variable {ν φ : Type} [Scalar ν] {definition : Definition ν}

theorem candidates_nonempty (sound : definition.Sound) (state : State ν)
    (isActive : String → Bool) : candidates definition state isActive ≠ [] := by
  rw [candidates, ne_eq, List.map_eq_nil_iff]
  exact combinations_nonempty _ (columns_full sound state isActive)

theorem definition_of_candidate (state : State ν) (isActive : String → Bool) (action : Action ν)
    (candidate : action ∈ candidates definition state isActive) :
    action.definition = definition := by
  rcases List.mem_map.mp candidate with ⟨buckets, _, rfl⟩
  exact Action.ofBuckets_definition definition buckets state.axis

theorem indexOf_eq_ok (sound : definition.Sound) (counted : Grid.Regular definition.layout.ranges)
    (state : State ν) (action : Action ν) (owned : state.definition = definition)
    (owns : action.definition = definition) :
    ∃ index < definition.tableSize, definition.indexOf state action = .ok index := by
  rw [Definition.indexOf, owned, owns, if_neg (not_not_intro rfl), if_neg (not_not_intro rfl)]
  exact ⟨_, sound.layout.index_lt_total counted _ _, rfl⟩

omit [Scalar ν] in
theorem indexOf_eq_error (state : State ν) (action : Action ν)
    (foreign : state.definition.name ≠ definition.name) :
    definition.indexOf state action =
      .error (.definitionMismatch definition.name state.definition.name) := by
  rw [Definition.indexOf, if_pos foreign]

section Tables

variable [TableValue φ]

theorem learnedValues_eq_ok (sound : definition.Sound)
    (counted : Grid.Regular definition.layout.ranges) (store : Table.Store φ)
    (size : store.size = definition.tableSize) (state : State ν)
    (owned : state.definition = definition) (actions : List (Action ν))
    (own : ∀ action ∈ actions, action.definition = definition) :
    ∃ values, learnedValues store definition state actions = .ok values := by
  apply mapM_eq_ok
  intro action member
  obtain ⟨index, below, found⟩ :=
    indexOf_eq_ok sound counted state action owned (own action member)
  exact ⟨_, bind_eq_ok.mpr ⟨index, found, store.get_eq_ok index (size ▸ below)⟩⟩

theorem temporalDifference_eq_ok [Stored ν φ] (trajectory : Trajectory ν) (store : Table.Store φ)
    (inside : ∀ decision ∈ trajectory.history, decision.index < store.size) :
    ∃ learned, (temporalDifference definition trajectory store).1 = .ok learned := by
  unfold temporalDifference
  split
  · rename_i current previous earlier history
    rw [history] at inside
    have first := inside current List.mem_cons_self
    have second := inside previous (List.mem_cons_of_mem _ List.mem_cons_self)
    split
    · exact ⟨false, rfl⟩
    · rw [store.get_eq_ok current.index first]
      dsimp only
      rw [store.update_eq_ok previous.index second]
      exact ⟨true, rfl⟩
  · exact ⟨false, rfl⟩

end Tables

theorem map_swapRemove? {α : Type} (items : List α) (position : Nat) :
    (swapRemove? items position).map (·.1) = items[position]? := by
  rw [swapRemove?]
  cases held : items[position]? with
  | none => rfl
  | some item =>
      have filled := List.ne_nil_of_mem (List.mem_of_getElem? held)
      rw [List.getLast?_eq_some_getLast filled]
      rfl

theorem swapRemove_mem {α : Type} (first : α) (others : List α) (position : Nat) :
    ((swapRemove? (first :: others) position).map (·.1)).getD first ∈ first :: others := by
  rw [map_swapRemove?]
  cases held : (first :: others)[position]? with
  | none => exact List.mem_cons_self
  | some item => exact List.mem_of_getElem? held

section Policy

variable [RankedValue φ]

theorem select_eq_ok (exploration : ν) (store : Table.Store φ) (state : State ν)
    (actions : List (Action ν)) (source : Source) (some_action : actions ≠ [])
    (learned : ∃ values, learnedValues store definition state actions = .ok values) :
    ∃ action ∈ actions, ∃ after,
      select exploration store definition state actions source = (.ok action, after) := by
  rcases learned with ⟨values, found⟩
  cases actions with
  | nil => exact absurd rfl some_action
  | cons first others =>
      have pooled : ∃ positions, pool ((source.fraction : ν × Source).1 < exploration) store
          definition state (first :: others) = .ok positions := by
        unfold pool
        split
        · exact ⟨_, rfl⟩
        · rw [found]
          exact ⟨_, rfl⟩
      rcases pooled with ⟨positions, pooled⟩
      simp only [select, pooled]
      exact ⟨_, swapRemove_mem first others _, _, rfl⟩

theorem mem_of_select (exploration : ν) (store : Table.Store φ) (state : State ν)
    (actions : List (Action ν)) (source after : Source) (action : Action ν)
    (selected : select exploration store definition state actions source = (.ok action, after)) :
    action ∈ actions := by
  unfold select at selected
  split at selected
  · cases selected
  · rename_i first others
    dsimp only at selected
    split at selected
    · cases selected
    · cases selected
      exact swapRemove_mem first others _

end Policy

end Learning

end Autoland
