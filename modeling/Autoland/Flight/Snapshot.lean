import Autoland.Axis
import Autoland.Flight.Quaternion
import Autoland.Formula.Expression

/-! What the simulation reports at a step, by named fields. -/

namespace Autoland.Flight

structure Snapshot (ν : Type) where
  position : Vector ν
  velocity : Vector ν
  orientation : Quaternion ν
  /-- Turning rate about the world axes, in radians per second. -/
  rotationRate : Vector ν
  thrust : ν
  deriving Repr

variable {ν : Type} [Scalar ν]

def Vector.zero : Vector ν := ⟨0.0, 0.0, 0.0⟩

namespace Snapshot

def atRest : Snapshot ν :=
  ⟨Vector.zero, Vector.zero, Quaternion.identity, Vector.zero, 0.0⟩

def bodyAxis (snapshot : Snapshot ν) : Vector ν := snapshot.orientation.rotate ⟨0.0, 0.0, 1.0⟩

variable [Elementary ν]

def clampUnit (x : ν) : ν := if x < -(1.0) then -(1.0) else if 1.0 < x then 1.0 else x

def fieldList (snapshot : Snapshot ν) : List (String × ν) :=
  let axis := snapshot.bodyAxis
  [("positionX", snapshot.position.x), ("positionY", snapshot.position.y),
   ("positionZ", snapshot.position.z), ("velocityX", snapshot.velocity.x),
   ("velocityY", snapshot.velocity.y), ("velocityZ", snapshot.velocity.z),
   ("angleX", Elementary.atan2 axis.x axis.z), ("angleY", Elementary.atan2 axis.y axis.z),
   ("angleZ", Elementary.acos (clampUnit axis.z)),
   ("angleVelocityX", snapshot.rotationRate.x), ("angleVelocityY", snapshot.rotationRate.y),
   ("angleVelocityZ", snapshot.rotationRate.z), ("thrust", snapshot.thrust)]

def fields (snapshot : Snapshot ν) : Formula.Fields ν := Formula.Fields.ofFirst snapshot.fieldList

end Snapshot

def physicalFields : List String :=
  ["positionX", "positionY", "positionZ", "velocityX", "velocityY", "velocityZ",
   "angleX", "angleY", "angleZ", "angleVelocityX", "angleVelocityY", "angleVelocityZ", "thrust"]

theorem fieldList_names {ν : Type} [Scalar ν] [Elementary ν] (snapshot : Snapshot ν) :
    snapshot.fieldList.map (·.1) = physicalFields := rfl

end Autoland.Flight
