import Autoland.Proofs.DenseTables
import Autoland.Proofs.EngineEntries
import Autoland.Proofs.RandomPicks
import Autoland.Proofs.WorkLoop

/-! Flights on the dense form of an engine. Each decision, step and end of a flight yields there
what it yields on the engine itself, in its dense form, and leads to the dense form of what the
engine becomes. -/

namespace Autoland

open Problem Learning Table

variable {ν φ : Type}

@[simps]
def Config.dense (config : Config) : Config :=
  { config with
    denseCap := Word.limit - 1
    shards := 0 }

@[simps]
def Engine.dense [TableValue φ] (engine : Engine ν φ) : Engine ν φ :=
  { engine with
    config := engine.config.dense
    root := engine.root.dense
    others := engine.others.map Definition.dense
    stores := engine.stores.map Store.dense }

@[simps]
def Run.dense [TableValue φ] (run : Run ν φ) : Run ν φ := ⟨run.engine.dense, run.episode.dense⟩

theorem Problem.find?_dense (definitions : List (Definition ν)) (name : String) :
    find? (definitions.map Definition.dense) name =
      (find? definitions name).map Definition.dense := by
  rw [find?, List.find?_map]
  rfl

namespace Engine

variable [TableValue φ] (engine : Engine ν φ)

theorem definitions_dense :
    engine.dense.definitions = engine.definitions.map Definition.dense := rfl

theorem isActive_dense : engine.dense.isActive = engine.isActive := by
  funext name
  rw [isActive, isActive, definitions_dense, List.any_map]
  rfl

theorem follows_dense (axis : Option Axis) : engine.dense.follows axis = engine.follows axis := by
  cases axis <;> rfl

theorem store_dense (name : String) :
    engine.dense.store name = (engine.store name).map Store.dense := by
  have found : engine.dense.stores.find? (·.name = name) =
      (engine.stores.find? (·.name = name)).map Store.dense := by
    rw [dense_stores, List.find?_map]
    rfl
  rw [store, store, found]
  cases engine.stores.find? (·.name = name) <;> rfl

theorem entry_dense (name : String) (index : Nat) :
    engine.dense.entry name index = engine.entry name index := by
  rw [entry, entry, store_dense]
  cases engine.store name with
  | error error => rfl
  | ok store => exact store.get_dense index

section Stores

variable {α : Type} (name : String) (work dense : Store φ → Except Error α × Store φ)
  (commutes : ∀ store : Store φ, store.Placed →
    dense store.dense = ((work store).1, (work store).2.dense))

include commutes

theorem onStore_dense (stores : List (Store φ)) (placed : ∀ store ∈ stores, store.Placed) :
    onStore name dense (stores.map Store.dense) =
      ((onStore name work stores).1, (onStore name work stores).2.map Store.dense) := by
  induction stores with
  | nil => rfl
  | cons store stores ih =>
      obtain ⟨head, rest⟩ := List.forall_mem_cons.mp placed
      rw [List.map_cons, onStore, onStore, Store.dense_name]
      split
      · rw [commutes store head]
        rfl
      · rw [ih rest]
        rfl

theorem withStore_dense (placed : engine.Placed) :
    engine.dense.withStore name dense =
      ((engine.withStore name work).1, (engine.withStore name work).2.dense) := by
  have worked := onStore_dense name work dense commutes engine.stores placed
  rw [withStore, dense_stores, worked]
  rfl

end Stores

theorem child?_dense (definition : Definition ν) (action : Action ν) (selector : Selector ν) :
    engine.dense.child? definition.dense action.dense selector =
      (engine.child? definition action selector).map fun entry => (entry.1.dense, entry.2) := by
  simp only [child?, Action.bucket?_dense, Definition.childName?_dense, definitions_dense,
    find?_dense, follows_dense, Option.bind_eq_bind]
  cases action.bucket? selector.field with
  | none => rfl
  | some id =>
      simp only [Option.bind_some]
      cases definition.childName? id with
      | none => rfl
      | some name =>
          simp only [Option.bind_some]
          cases find? engine.definitions name with
          | none => rfl
          | some child =>
              simp only [Option.map_some, Option.bind_some]
              rw [apply_ite (Option.map _)]
              rfl

theorem children_dense (definition : Definition ν) (action : Action ν) :
    engine.dense.children definition.dense action.dense =
      (engine.children definition action).map fun entry => (entry.1.dense, entry.2) := by
  have each := funext (engine.child?_dense definition action)
  rw [children, children, List.map_filterMap, each]
  rfl

theorem childStates_dense [Scalar ν] [Elementary ν] (snapshot : Flight.Snapshot ν)
    (states : List (State ν)) (actions : List (Action ν)) :
    engine.dense.childStates snapshot (states.map State.dense) (actions.map Action.dense) =
      (engine.childStates snapshot states actions).map State.dense := by
  unfold childStates
  rw [List.zip_map, List.flatMap_map, List.map_flatMap]
  congr 1
  funext node
  simp only [Prod.map, State.dense_definition, children_dense, List.map_map]
  congr 1
  funext entry
  exact State.ofSnapshot_dense entry.1 snapshot entry.2

end Engine

namespace Run

theorem chain_dense {α β γ : Type} [TableValue φ] {f : α → α} {g : β → β} {h : γ → γ}
    (first : Except Error α × Run ν φ) (next other : α → Run ν φ → Except Error β × Run ν φ)
    (join rejoin : α → β → γ)
    (tail : ∀ value between, first = (.ok value, between) →
      other (f value) between.dense = ((next value between).1.map g, (next value between).2.dense))
    (joins : ∀ value other, rejoin (f value) (g other) = h (join value other)) :
    chain (first.1.map f, first.2.dense) other rejoin =
      ((chain first next join).1.map h, (chain first next join).2.dense) := by
  rcases first with ⟨result, between⟩
  cases result with
  | error error => rfl
  | ok value =>
      have same := tail value between rfl
      simp only [chain, Except.map, same]
      rcases next value between with ⟨result, after⟩
      cases result with
      | error error => rfl
      | ok more => simp [joins]

variable [Scalar ν] [RankedValue φ] [Stored ν φ] (run : Run ν φ) (placed : run.engine.Placed)

include placed

theorem learnStep_dense (trajectory : Trajectory ν) (definition : Definition ν) :
    run.dense.learnStep trajectory.dense definition.dense =
      ((run.learnStep trajectory definition).1, (run.learnStep trajectory definition).2.dense) := by
  have worked := run.engine.withStore_dense definition.name _ _
    (fun _ => temporalDifference_dense definition trajectory _) placed
  unfold learnStep
  rw [definition.uses_dense]
  split
  · rw [dense_engine, Definition.dense_name, worked]
    rcases run.engine.withStore definition.name (temporalDifference definition trajectory) with
      ⟨result, engine⟩
    cases result with
    | error error => rfl
    | ok learned => cases learned <;> rfl
  · rfl

theorem record_dense (trajectory : Trajectory ν) (state : State ν) (action : Action ν) :
    run.dense.record trajectory.dense state.dense action.dense =
      ((run.record trajectory state action).1, (run.record trajectory state action).2.dense) := by
  unfold record
  rw [trajectory.record_dense]
  cases taken : trajectory.record state action with
  | error error => rfl
  | ok told =>
      rcases told with ⟨fresh, longer⟩
      cases fresh with
      | false => rfl
      | true =>
          have learned := learnStep_dense { run with episode := run.episode.replace longer } placed
            longer state.definition
          rw [dense, ← Episode.replace_dense] at learned
          exact learned

theorem decideNew_dense (trajectory : Trajectory ν) (state : State ν) :
    run.dense.decideNew trajectory.dense state.dense =
      ((run.decideNew trajectory state).1.map Action.dense,
        (run.decideNew trajectory state).2.dense) := by
  unfold decideNew
  simp only [State.dense_definition, Definition.dense_name, Definition.dense_params, dense_engine,
    dense_episode, Episode.dense_source, run.engine.store_dense, run.engine.isActive_dense,
    candidates_dense]
  cases run.engine.store state.definition.name with
  | error error => rfl
  | ok store =>
      simp only [Except.map, select_dense]
      generalize select state.definition.params.exploration store state.definition state _ _ = drawn
      rcases drawn with ⟨picked, source⟩
      cases picked with
      | error error => rfl
      | ok action =>
          have counted : countDecision ⟨run.engine.dense,
                ⟨source, run.episode.dense.trajectories, run.episode.dense.steps⟩⟩ =
              (countDecision ⟨run.engine,
                ⟨source, run.episode.trajectories, run.episode.steps⟩⟩).dense := rfl
          have recorded := record_dense (countDecision ⟨run.engine,
            ⟨source, run.episode.trajectories, run.episode.steps⟩⟩) placed trajectory state action
          simp only [counted, recorded]
          generalize (countDecision ⟨run.engine, _⟩).record trajectory state action = made
          rcases made with ⟨result, after⟩
          cases result <;> rfl

theorem decide_dense (state : State ν) :
    run.dense.decide state.dense =
      ((run.decide state).1.map Action.dense, (run.decide state).2.dense) := by
  obtain ⟨trajectory, found, _⟩ := meet_finds run state
  have met : run.dense.episode.meet state.dense.key state.dense.definition =
      (run.episode.meet state.key state.definition).dense :=
    run.episode.meet_dense state.key state.definition
  have same : (run.dense.episode.meet state.dense.key state.dense.definition).trajectory?
      state.dense.key = some trajectory.dense := by
    rw [met, Episode.trajectory?_dense]
    exact congrArg (Option.map Trajectory.dense) found
  rw [run.decide_of_found state trajectory found, run.dense.decide_of_found _ _ same, met,
    trajectory.last?_dense, reusable?_dense]
  cases reusable? state trajectory.last? with
  | some action => rfl
  | none =>
      exact decideNew_dense { run with episode := run.episode.meet state.key state.definition }
        placed trajectory state

theorem decideAll_dense (states : List (State ν)) :
    decideAll (states.map State.dense) run.dense =
      ((decideAll states run).1.map (List.map Action.dense), (decideAll states run).2.dense) := by
  induction states generalizing run with
  | nil => rfl
  | cons state states ih =>
      rw [List.map_cons, decideAll_cons, decideAll_cons, run.decide_dense placed state]
      apply chain_dense
      · intro action between decided
        -- The engines agree only on placed tables, and deciding keeps them placed.
        have learned := (run.decide_learns state).placed placed
        rw [decided] at learned
        exact ih between learned
      · intro action actions
        rfl

theorem decideDown_dense [Elementary ν] (snapshot : Flight.Snapshot ν) (generations : Nat)
    (states : List (State ν)) :
    decideDown snapshot generations (states.map State.dense) run.dense =
      ((decideDown snapshot generations states run).1.map
          (Prod.map (List.map State.dense) (List.map Action.dense)),
        (decideDown snapshot generations states run).2.dense) := by
  induction generations generalizing states run with
  | zero => cases states <;> rfl
  | succ generations ih =>
      cases states with
      | nil => rfl
      | cons state states =>
          rw [List.map_cons, decideDown_cons, decideDown_cons, ← List.map_cons,
            run.decideAll_dense placed]
          apply chain_dense
          · intro actions between decided
            have learned := (decideAll_learns (state :: states) run).placed placed
            rw [decided] at learned
            rw [dense_engine, Engine.childStates_dense]
            exact ih between learned _
          · intro actions deeper
            simp

theorem step_dense [Elementary ν] (snapshot : Flight.Snapshot ν) :
    run.dense.step snapshot =
      ((run.step snapshot).1.map Outcome.dense, (run.step snapshot).2.dense) := by
  have decided := decideDown_dense run placed snapshot run.engine.definitions.length
    [State.ofSnapshot run.engine.root snapshot none]
  rw [List.map_singleton, ← State.ofSnapshot_dense] at decided
  have count : run.dense.engine.definitions.length = run.engine.definitions.length := by
    rw [dense_engine, Engine.definitions_dense, List.length_map]
  unfold step
  dsimp only
  rw [count, dense_engine, Engine.dense_root, decided]
  rcases decideDown snapshot run.engine.definitions.length _ run with ⟨result, after⟩
  cases result with
  | error error => rfl
  | ok decided =>
      rcases decided with ⟨states, actions⟩
      have observed : Coupled.frozen (·.definition.name) (states.map State.dense) = _ :=
        Coupled.frozen_map State.dense (·.definition.name) states fun _ => rfl
      have taken : Coupled.frozen (·.definition.name) (actions.map Action.dense) = _ :=
        Coupled.frozen_map Action.dense (·.definition.name) actions fun _ => rfl
      simp only [Except.map, Prod.map, observed, taken, commandOf_dense]
      rfl

end Run

namespace Engine

variable [Scalar ν] [TableValue φ] [Stored ν φ] (engine : Engine ν φ) (placed : engine.Placed)

include placed

theorem learnFlight_dense (trajectory : Trajectory ν) :
    engine.dense.learnFlight trajectory.dense =
      ((engine.learnFlight trajectory).1, (engine.learnFlight trajectory).2.dense) := by
  unfold learnFlight
  rw [trajectory.dense_definition, Definition.uses_dense]
  split
  · exact engine.withStore_dense trajectory.definition.name _ _
      (fun _ => monteCarlo_dense trajectory.definition trajectory _) placed
  · rfl

theorem learnFlights_dense (order : List (Trajectory ν)) :
    learnFlights (order.map Trajectory.dense) engine.dense =
      ((learnFlights order engine).1, (learnFlights order engine).2.dense) := by
  induction order generalizing engine with
  | nil => rfl
  | cons trajectory order ih =>
      have kept := (engine.learnFlight_learns trajectory).placed placed
      have dense := engine.learnFlight_dense placed trajectory
      cases learned : engine.learnFlight trajectory with
      | mk result between =>
          rw [learned] at kept dense
          cases result with
          | error error => rw [List.map_cons, learnFlights, learnFlights, dense, learned]
          | ok updates =>
              rw [List.map_cons, learnFlights_cons_ok learned, learnFlights_cons_ok dense,
                ih between kept]

theorem finish_dense (episode : Episode ν) (verdict : List Bool) :
    engine.dense.finish episode.dense verdict =
      ((engine.finish episode verdict).1, (engine.finish episode verdict).2.dense) := by
  unfold finish finishIn
  rw [Episode.dense_source, episode.sorted_dense, Source.shuffle_map,
    engine.learnFlights_dense placed, episode.recorded_dense, Episode.dense_steps,
    Episode.dense_trajectories, List.length_map]
  rcases learnFlights (episode.source.shuffle episode.sorted).1 engine with ⟨result, after⟩
  cases result <;> rfl

end Engine

end Autoland
