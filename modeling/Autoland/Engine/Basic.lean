import Autoland.Engine.Config
import Autoland.Learning.Policy
import Autoland.Learning.Update
import Autoland.Problem.Family
import Autoland.Problem.Finalize

/-! An engine: definitions that are used together, with a value table for each. -/

namespace Autoland

open Problem

structure Counters where
  episodes : Nat
  successes : Nat
  steps : Nat
  decisions : Nat
  /-- Updates from one step to the next. -/
  stepUpdates : Nat
  /-- Updates from whole flights. -/
  flightUpdates : Nat
  deriving DecidableEq, Repr

def Counters.zero : Counters := ⟨0, 0, 0, 0, 0, 0⟩

def Counters.successRate {ν : Type} [Scalar ν] (counters : Counters) : ν :=
  if counters.episodes = 0 then 0.0
  else Scalar.ofInt counters.successes / Scalar.ofInt counters.episodes

structure Engine (ν φ : Type) where
  config : Config
  dimension : Dimension
  compiler : Formula.Compiler ν
  /-- The definition with the least priority. -/
  root : Definition ν
  others : List (Definition ν)
  stores : List (Table.Store φ)
  counters : Counters

namespace Engine

variable {ν φ : Type}

def definitions (engine : Engine ν φ) : List (Definition ν) := engine.root :: engine.others

def definition (engine : Engine ν φ) (name : String) : Except Error (Definition ν) :=
  match find? engine.definitions name with
  | some definition => .ok definition
  | none => .error (.unknownDefinition name)

def isActive (engine : Engine ν φ) (name : String) : Bool :=
  engine.definitions.any (·.name = name)

def store (engine : Engine ν φ) (name : String) : Except Error (Table.Store φ) :=
  match engine.stores.find? (·.name = name) with
  | some store => .ok store
  | none => .error (.unknownDefinition name)

/-- Works on the first store of a name. -/
def onStore {α : Type} (name : String)
    (work : Table.Store φ → Except Error α × Table.Store φ) :
    List (Table.Store φ) → Except Error α × List (Table.Store φ)
  | [] => (.error (.unknownDefinition name), [])
  | store :: stores =>
    if store.name = name then
      let (result, store) := work store
      (result, store :: stores)
    else
      let (result, stores) := onStore name work stores
      (result, store :: stores)

def withStore {α : Type} (engine : Engine ν φ) (name : String)
    (work : Table.Store φ → Except Error α × Table.Store φ) : Except Error α × Engine ν φ :=
  let (result, stores) := onStore name work engine.stores
  (result, { engine with stores })

def follows (engine : Engine ν φ) : Option Axis → Bool
  | none => true
  | some axis =>
    match engine.dimension with
    | .one => false
    | .two => axis = engine.config.planarAxis
    | .three => true

def dimensionOf (config : Config) (definitions : List (Definition ν)) : Dimension :=
  (definitions.filterMap fun definition => Dimension.ofMarker? definition.name).foldl
    Dimension.least config.dimension

section Build

variable [Scalar ν] [Elementary ν] [TableValue φ]

def ofDefinitions (config : Config) (compiler : Formula.Compiler ν)
    (definitions : List (Definition ν)) : Except Error (Engine ν φ) :=
  match byPriority definitions with
  | [] => .error (.definition .noDefinitions)
  | root :: others => do
    requireDistinct [] (root :: others)
    rejectCycles (root :: others)
    return {
      config
      dimension := dimensionOf config (root :: others)
      compiler
      root
      others
      stores := (root :: others).map fun definition =>
        .ofLayout definition.name definition.layout config.shards
      counters := .zero }

def build (documents : List (Document ν)) (config : Config) : Except Error (Engine ν φ) :=
  match finalizeAll config.denseCap documents .standard with
  | (.error error, _) => .error error
  | (.ok definitions, compiler) => ofDefinitions config compiler definitions

end Build

def buildState [Scalar ν] [Elementary ν] (engine : Engine ν φ) (name : String)
    (snapshot : Flight.Snapshot ν) (axis : Option Axis) : Except Error (State ν) :=
  (engine.definition name).map fun definition => State.ofSnapshot definition snapshot axis

def saveTable [TableValue φ] (engine : Engine ν φ) (name : String) (time : Table.Timestamp) :
    Except Error (Table.Image φ) :=
  (engine.store name).map fun store => store.save time

def attachTable [TableValue φ] (engine : Engine ν φ) (image : Table.Image φ) :
    Except Error Unit × Engine ν φ :=
  engine.withStore image.owner fun store => store.attach image

def value [Scalar ν] [TableValue φ] (engine : Engine ν φ) (state : State ν) (action : Action ν) :
    Except Error φ := do
  let store ← engine.store state.definition.name
  store.get (← state.definition.indexOf state action)

def populated [TableValue φ] (engine : Engine ν φ) : Nat :=
  (engine.stores.map (·.populated)).foldr (· + ·) 0

end Engine

end Autoland
