import Autoland.Engine.Basic
import Autoland.Flight.Command
import Autoland.Record.Coupled

/-! Flights: from one simulation step to the next, and the end. -/

namespace Autoland

open Problem Learning

structure Episode (ν : Type) where
  source : Source
  /-- One for each definition and axis met so far, the latest met first. -/
  trajectories : List (Trajectory ν)
  steps : Nat

namespace Episode

variable {ν : Type}

def start (source : Source) : Episode ν := ⟨source, [], 0⟩

def trajectory? (episode : Episode ν) (key : String) : Option (Trajectory ν) :=
  episode.trajectories.find? (·.key = key)

def meet (episode : Episode ν) (key : String) (definition : Definition ν) : Episode ν :=
  match episode.trajectory? key with
  | some _ => episode
  | none => { episode with trajectories := .empty key definition :: episode.trajectories }

def replace (episode : Episode ν) (trajectory : Trajectory ν) : Episode ν :=
  { episode with
    trajectories := episode.trajectories.map fun old =>
      if old.key = trajectory.key then trajectory else old }

def sorted (episode : Episode ν) : List (Trajectory ν) :=
  episode.trajectories.mergeSort fun a b => a.key ≤ b.key

def recorded (episode : Episode ν) : Nat := (episode.trajectories.map (·.length)).foldr (· + ·) 0

end Episode

structure Outcome (ν : Type) where
  states : Coupled (State ν)
  actions : Coupled (Action ν)
  command : Flight.Command ν

structure Run (ν φ : Type) where
  engine : Engine ν φ
  episode : Episode ν

namespace Run

variable {ν φ : Type}

/-- The last action, where no new one is needed: in a state that holds it, and in one like the
last state. States without declared fields are all alike and do not count. -/
def reusable? [Scalar ν] (state : State ν) (last : Option (Decision ν)) : Option (Action ν) :=
  last.bind fun last =>
    if state.holds || (!state.definition.state.isEmpty && last.state.same state) then
      some last.action
    else none

variable [Scalar ν] [TableValue φ] [Stored ν φ]

def countDecision (run : Run ν φ) : Run ν φ :=
  { run with engine.counters.decisions := run.engine.counters.decisions + 1 }

def learnStep (run : Run ν φ) (trajectory : Trajectory ν) (definition : Definition ν) :
    Except Error Unit × Run ν φ :=
  if definition.uses .temporalDifference then
    match run.engine.withStore definition.name (temporalDifference definition trajectory) with
    | (.error error, engine) => (.error error, { run with engine })
    | (.ok false, engine) => (.ok (), { run with engine })
    | (.ok true, engine) =>
      let counters := { engine.counters with stepUpdates := engine.counters.stepUpdates + 1 }
      (.ok (), { run with engine := { engine with counters } })
  else (.ok (), run)

def record (run : Run ν φ) (trajectory : Trajectory ν) (state : State ν) (action : Action ν) :
    Except Error Unit × Run ν φ :=
  match trajectory.record state action with
  | .error error => (.error error, run)
  | .ok (false, _) => (.ok (), run)
  | .ok (true, trajectory) =>
    learnStep { run with episode := run.episode.replace trajectory } trajectory state.definition

end Run

namespace Run

variable {ν φ : Type} [Scalar ν] [RankedValue φ] [Stored ν φ]

def decideNew (run : Run ν φ) (trajectory : Trajectory ν) (state : State ν) :
    Except Error (Action ν) × Run ν φ :=
  let definition := state.definition
  match run.engine.store definition.name with
  | .error error => (.error error, run)
  | .ok store =>
    let actions := candidates definition state run.engine.isActive
    let (picked, source) :=
      select definition.params.exploration store definition state actions run.episode.source
    let run := { run with episode.source := source }
    match picked with
    | .error error => (.error error, run)
    | .ok action =>
      match run.countDecision.record trajectory state action with
      | (.error error, run) => (.error error, run)
      | (.ok (), run) => (.ok action, run)

def decide (run : Run ν φ) (state : State ν) : Except Error (Action ν) × Run ν φ :=
  let key := Axis.tag state.definition.name state.axis
  let run := { run with episode := run.episode.meet key state.definition }
  let trajectory := (run.episode.trajectory? key).getD (.empty key state.definition)
  match reusable? state trajectory.last? with
  | some action => (.ok action, run)
  | none => run.decideNew trajectory state

def decideAll : List (State ν) → Run ν φ → Except Error (List (Action ν)) × Run ν φ
  | [], run => (.ok [], run)
  | state :: states, run =>
    match run.decide state with
    | (.error error, run) => (.error error, run)
    | (.ok action, run) =>
      match decideAll states run with
      | (.error error, run) => (.error error, run)
      | (.ok actions, run) => (.ok (action :: actions), run)

end Run

namespace Engine

variable {ν φ : Type}

def child? (engine : Engine ν φ) (definition : Definition ν) (action : Action ν)
    (selector : Selector ν) : Option (Definition ν × Option Axis) := do
  let id ← action.bucket? selector.field
  let name ← definition.childName? id
  let child ← find? engine.definitions name
  let axis := selector.childAxis action.axis definition.passDownSymmetry
  if engine.follows axis then some (child, axis) else none

def children (engine : Engine ν φ) (definition : Definition ν) (action : Action ν) :
    List (Definition ν × Option Axis) :=
  definition.selectors.filterMap (engine.child? definition action)

variable [Scalar ν] [Elementary ν]

def childStates (engine : Engine ν φ) (snapshot : Flight.Snapshot ν) (states : List (State ν))
    (actions : List (Action ν)) : List (State ν) :=
  (states.zip actions).flatMap fun (state, action) =>
    (engine.children state.definition action).map fun (child, axis) =>
      State.ofSnapshot child snapshot axis

end Engine

namespace Run

variable {ν φ : Type} [Scalar ν] [Elementary ν] [RankedValue φ] [Stored ν φ]

/-- Decides in states, then in those of their children, and so on, generation by generation. As
definitions do not lead back to themselves there are at most as many generations as definitions,
which bounds the recursion. -/
def decideDown (snapshot : Flight.Snapshot ν) :
    Nat → List (State ν) → Run ν φ → Except Error (List (State ν) × List (Action ν)) × Run ν φ
  | _, [], run => (.ok ([], []), run)
  | 0, state :: _, run => (.error (.definition (.cycle state.definition.name [])), run)
  | generations + 1, states, run =>
    match decideAll states run with
    | (.error error, run) => (.error error, run)
    | (.ok actions, run) =>
      let next := run.engine.childStates snapshot states actions
      match decideDown snapshot generations next run with
      | (.error error, run) => (.error error, run)
      | (.ok (moreStates, moreActions), run) =>
        (.ok (states ++ moreStates, actions ++ moreActions), run)

/-- The command of actions; of two that set a slot the later counts. -/
def commandOf (actions : List (Action ν)) : Flight.Command ν :=
  actions.foldl (fun command action => command.setAll action.commandFields) .zero

def step (run : Run ν φ) (snapshot : Flight.Snapshot ν) : Except Error (Outcome ν) × Run ν φ :=
  let root := State.ofSnapshot run.engine.root snapshot none
  match decideDown snapshot run.engine.definitions.length [root] run with
  | (.error error, run) => (.error error, run)
  | (.ok (states, actions), run) =>
    let outcome : Outcome ν := {
      states := .frozen (·.definition.name) states
      actions := .frozen (·.definition.name) actions
      command := commandOf actions }
    (.ok outcome,
      { run with
        episode.steps := run.episode.steps + 1
        engine.counters.steps := run.engine.counters.steps + 1 })

end Run

def Outcome.verdict {ν : Type} [Scalar ν] (outcome : Outcome ν) : List Bool :=
  outcome.states.members.map (·.succeeds)

/-- Whether the root succeeds; a verdict without states does. -/
def rootSucceeds (verdict : List Bool) : Bool := verdict.head?.getD true

def childrenSucceed (verdict : List Bool) : Bool := (verdict.drop 1).all id

def allSucceed (verdict : List Bool) : Bool := verdict.all id

structure Summary where
  steps : Nat
  trajectories : Nat
  decisions : Nat
  updates : Nat
  verdict : List Bool
  deriving DecidableEq, Repr

namespace Engine

variable {ν φ : Type} [Scalar ν] [TableValue φ] [Stored ν φ]

def learnFlight (engine : Engine ν φ) (trajectory : Trajectory ν) :
    Except Error Nat × Engine ν φ :=
  if trajectory.definition.uses .monteCarlo then
    engine.withStore trajectory.definition.name (monteCarlo trajectory.definition trajectory)
  else (.ok 0, engine)

def learnFlights : List (Trajectory ν) → Engine ν φ → Except Error Nat × Engine ν φ
  | [], engine => (.ok 0, engine)
  | trajectory :: trajectories, engine =>
    match engine.learnFlight trajectory with
    | (.error error, engine) => (.error error, engine)
    | (.ok updates, engine) =>
      match learnFlights trajectories engine with
      | (.error error, engine) => (.error error, engine)
      | (.ok more, engine) => (.ok (updates + more), engine)

def finishIn (order : List (Trajectory ν)) (engine : Engine ν φ) (episode : Episode ν)
    (verdict : List Bool) : Except Error Summary × Engine ν φ :=
  match learnFlights order engine with
  | (.error error, engine) => (.error error, engine)
  | (.ok updates, engine) =>
    let counters := { engine.counters with
      episodes := engine.counters.episodes + 1
      flightUpdates := engine.counters.flightUpdates + updates
      successes := engine.counters.successes + if allSucceed verdict then 1 else 0 }
    let summary := ⟨episode.steps, episode.trajectories.length, episode.recorded, updates, verdict⟩
    (.ok summary, { engine with counters })

/-- Ends a flight. Its trajectories are learned from in a random order, so that neither axis of a
symmetric definition always comes first. -/
def finish (engine : Engine ν φ) (episode : Episode ν) (verdict : List Bool) :
    Except Error Summary × Engine ν φ :=
  finishIn (episode.source.shuffle episode.sorted).1 engine episode verdict

end Engine

end Autoland
