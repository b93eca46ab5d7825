import Autoland.Data.JsonReader
import Autoland.Flight.Reading

/-! Recorded flights: what the simulation reported, step by step. -/

namespace Autoland.Replay

structure RecordedFlight (ν : Type) where
  snapshots : List (Flight.Snapshot ν)
  deriving Repr

def RecordedFlight.ofData? (data : Data) : Option (RecordedFlight Float) := do
  let member ← data.record? ["snapshots"]
  return ⟨← Data.required? member "snapshots" (Data.listOf? Flight.Snapshot.ofData?)⟩

def flightsOfData? (data : Data) : Option (List (RecordedFlight Float)) :=
  match data with
  | .list items => items.mapM RecordedFlight.ofData?
  | .object members => do
    let member ← (Data.object members).record? ["episodes"]
    Data.required? member "episodes" (Data.listOf? RecordedFlight.ofData?)
  | _ => none

def readRecording? (contents : String) : Option (List (RecordedFlight Float)) :=
  (JsonReader.readSound? contents).bind flightsOfData?

end Autoland.Replay
