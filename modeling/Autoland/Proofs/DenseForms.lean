import Autoland.Engine.Flight
import Mathlib.Data.List.InsertIdx
import Mathlib.Tactic.Simps.Basic

/-! Dense forms. The dense form of a definition says of its table that it keeps every entry, and is
the definition otherwise; that of anything made from definitions is made from their dense forms.
What a definition sees, may do and does, its dense form sees, may do and does. -/

namespace Autoland

open Problem Learning

variable {ν φ : Type}

@[simps]
def Grid.Layout.dense (layout : Grid.Layout) : Grid.Layout := { layout with backing := .dense }

@[simps]
def Problem.Definition.dense (definition : Definition ν) : Definition ν :=
  { definition with layout := definition.layout.dense }

@[simps]
def Record.dense (record : Record ν) : Record ν :=
  { record with definition := record.definition.dense }

@[simps]
def State.dense (state : State ν) : State ν := ⟨state.record.dense⟩

@[simps]
def Action.dense (action : Action ν) : Action ν := ⟨action.record.dense⟩

@[simps]
def Learning.Decision.dense (decision : Decision ν) : Decision ν :=
  ⟨decision.state.dense, decision.action.dense, decision.index⟩

@[simps]
def Learning.Trajectory.dense (trajectory : Trajectory ν) : Trajectory ν :=
  ⟨trajectory.key, trajectory.definition.dense, trajectory.history.map Decision.dense⟩

@[simps]
def Episode.dense (episode : Episode ν) : Episode ν :=
  { episode with trajectories := episode.trajectories.map Trajectory.dense }

@[simps]
def Coupled.map {α : Type} (f : α → α) (coupled : Coupled α) : Coupled α :=
  { coupled with members := coupled.members.map f }

@[simps]
def Outcome.dense (outcome : Outcome ν) : Outcome ν :=
  ⟨outcome.states.map State.dense, outcome.actions.map Action.dense, outcome.command⟩

theorem Coupled.frozen_map {α : Type} (f : α → α) (name : α → String) (members : List α)
    (same : ∀ member, name (f member) = name member) :
    frozen name (members.map f) = (frozen name members).map f := by
  simp [frozen, freeze, map, Function.comp_def, same]

section Read

variable (definition : Definition ν) (state other : State ν) (action : Action ν)

@[simp]
theorem State.dense_definition : state.dense.definition = state.definition.dense := rfl

@[simp]
theorem State.dense_axis : state.dense.axis = state.axis := rfl

@[simp]
theorem State.same_dense : state.dense.same other.dense = state.same other := rfl

@[simp]
theorem Action.dense_definition : action.dense.definition = action.definition.dense := rfl

@[simp]
theorem Action.bucket?_dense (field : String) :
    action.dense.bucket? field = action.bucket? field := rfl

@[simp]
theorem Problem.Definition.uses_dense (method : Method) :
    definition.dense.uses method = definition.uses method := rfl

@[simp]
theorem Problem.Definition.childName?_dense (id : Int) :
    definition.dense.childName? id = definition.childName? id := rfl

@[simp]
theorem Problem.Definition.indexOf_dense :
    definition.dense.indexOf state.dense action.dense = definition.indexOf state action := rfl

variable [Scalar ν] (decision : Decision ν)

@[simp]
theorem Learning.reward_dense :
    reward definition.dense decision.dense = reward definition decision := rfl

@[simp]
theorem Learning.terminalReward?_dense :
    terminalReward? definition.dense decision.dense = terminalReward? definition decision := rfl

end Read

@[simp]
theorem Learning.Trajectory.last?_dense (trajectory : Trajectory ν) :
    trajectory.dense.last? = trajectory.last?.map Decision.dense := List.head?_map

section Observed

variable [Scalar ν]

theorem Record.dense_setAll (values : List (String × ν)) (record : Record ν) :
    record.dense.setAll values = (record.setAll values).dense := by
  unfold setAll
  exact List.foldl_hom Record.dense fun _ _ => rfl

theorem State.takeAxis_dense (record : Record ν) :
    takeAxis record.dense = (takeAxis record).dense := by
  unfold takeAxis
  rw [Record.dense_axis]
  cases record.axis with
  | none => rfl
  | some axis =>
      refine List.foldl_hom Record.dense ?_
      intro record field
      have same : record.dense.value? (Axis.tag field (some axis)) =
          record.value? (Axis.tag field (some axis)) := rfl
      rw [same]
      cases record.value? (Axis.tag field (some axis)) <;> rfl

theorem State.compute_dense (record : Record ν) :
    compute record.dense = (compute record).dense := by
  unfold compute
  refine List.foldl_hom Record.dense ?_
  intro record formula
  dsimp only
  rw [apply_ite Record.dense]
  rfl

theorem State.ofValues_dense (definition : Definition ν) (values : List (String × ν))
    (axis : Option Axis) :
    ofValues definition.dense values axis = (ofValues definition values axis).dense := by
  have empty : Record.empty definition.dense axis = (Record.empty definition axis).dense := rfl
  rw [ofValues, empty, Record.dense_setAll, derive, takeAxis_dense, compute_dense]
  rfl

theorem State.ofSnapshot_dense [Elementary ν] (definition : Definition ν)
    (snapshot : Flight.Snapshot ν) (axis : Option Axis) :
    ofSnapshot definition.dense snapshot axis = (ofSnapshot definition snapshot axis).dense :=
  ofValues_dense definition snapshot.fieldList axis

omit [Scalar ν] in
theorem Action.ofBuckets_dense (definition : Definition ν) (buckets : List (String × Int))
    (axis : Option Axis) :
    ofBuckets definition.dense buckets axis = (ofBuckets definition buckets axis).dense := by
  have empty : Record.empty definition.dense axis = (Record.empty definition axis).dense := rfl
  rw [ofBuckets, ofBuckets, empty, Action.dense]
  apply congrArg
  refine List.foldl_hom Record.dense ?_
  intro record bucket
  rfl

theorem Learning.candidates_dense (definition : Definition ν) (state : State ν)
    (isActive : String → Bool) :
    candidates definition.dense state.dense isActive =
      (candidates definition state isActive).map Action.dense := by
  unfold candidates
  rw [List.map_map]
  apply List.map_congr_left
  intro buckets _
  exact Action.ofBuckets_dense definition buckets state.axis

omit [Scalar ν] in
theorem Learning.Trajectory.record_dense (trajectory : Trajectory ν) (state : State ν)
    (action : Action ν) :
    trajectory.dense.record state.dense action.dense =
      (trajectory.record state action).map fun taken => (taken.1, taken.2.dense) := by
  unfold record
  simp only [dense_definition, Definition.indexOf_dense, last?_dense, Option.any_map,
    Decision.dense_state, State.same_dense]
  cases trajectory.definition.indexOf state action with
  | error error => rfl
  | ok index =>
      dsimp only
      split <;> rfl

theorem Run.reusable?_dense (state : State ν) (last : Option (Decision ν)) :
    reusable? state.dense (last.map Decision.dense) =
      (reusable? state last).map Action.dense := by
  cases last with
  | none => rfl
  | some last =>
      unfold reusable?
      rw [Option.map_some, Option.bind_some, Option.bind_some,
        apply_ite (Option.map Action.dense)]
      rfl

theorem Run.commandOf_dense (actions : List (Action ν)) :
    commandOf (actions.map Action.dense) = commandOf actions := by
  rw [commandOf, List.foldl_map]
  rfl

end Observed

namespace Episode

theorem trajectory?_dense (episode : Episode ν) (key : String) :
    episode.dense.trajectory? key = (episode.trajectory? key).map Trajectory.dense := by
  rw [trajectory?, dense_trajectories, List.find?_map]
  rfl

theorem meet_dense (episode : Episode ν) (key : String) (definition : Definition ν) :
    episode.dense.meet key definition.dense = (episode.meet key definition).dense := by
  unfold meet
  rw [trajectory?_dense]
  cases episode.trajectory? key <;> rfl

theorem replace_dense (episode : Episode ν) (trajectory : Trajectory ν) :
    episode.dense.replace trajectory.dense = (episode.replace trajectory).dense := by
  simp only [replace, dense, List.map_map]
  congr 1
  apply List.map_congr_left
  intro old _
  exact (apply_ite Trajectory.dense _ _ _).symm

theorem sorted_dense (episode : Episode ν) :
    episode.dense.sorted = episode.sorted.map Trajectory.dense := by
  rw [sorted, sorted, dense_trajectories]
  refine (List.map_mergeSort ?_).symm
  intro _ _ _ _
  rfl

theorem recorded_dense (episode : Episode ν) : episode.dense.recorded = episode.recorded := by
  simp [recorded, Function.comp_def, Trajectory.length]

end Episode

end Autoland
