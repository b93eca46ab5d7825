import Autoland.Data.Value
import Autoland.Flight.Snapshot
import Autoland.Flight.Command

/-! Snapshots and commands read from data. -/

namespace Autoland.Flight

def Vector.ofData? (data : Data) : Option (Vector Float) := do
  let member ← data.record? ["x", "y", "z"]
  return ⟨← Data.required? member "x" Data.real?, ← Data.required? member "y" Data.real?,
    ← Data.required? member "z" Data.real?⟩

def Quaternion.ofData? (data : Data) : Option (Quaternion Float) := do
  let member ← data.record? ["w", "x", "y", "z"]
  return ⟨← Data.required? member "w" Data.real?, ← Data.required? member "x" Data.real?,
    ← Data.required? member "y" Data.real?, ← Data.required? member "z" Data.real?⟩

def Snapshot.ofData? (data : Data) : Option (Snapshot Float) := do
  let member ← data.record? ["position", "velocity", "orientation", "rotation_rate", "thrust"]
  return ⟨← Data.optional? member "position" Vector.zero Vector.ofData?,
    ← Data.optional? member "velocity" Vector.zero Vector.ofData?,
    ← Data.optional? member "orientation" Quaternion.identity Quaternion.ofData?,
    ← Data.optional? member "rotation_rate" Vector.zero Vector.ofData?,
    ← Data.optional? member "thrust" 0.0 Data.real?⟩

def Command.ofData? (data : Data) : Option (Command Float) := do
  let member ← data.record?
    ["thrust", "gimbal_x", "gimbal_y", "lateral_thrust_x", "lateral_thrust_y"]
  return ⟨← Data.optional? member "thrust" 0.0 Data.real?,
    ← Data.optional? member "gimbal_x" 0.0 Data.real?,
    ← Data.optional? member "gimbal_y" 0.0 Data.real?,
    ← Data.optional? member "lateral_thrust_x" 0.0 Data.real?,
    ← Data.optional? member "lateral_thrust_y" 0.0 Data.real?⟩

end Autoland.Flight
