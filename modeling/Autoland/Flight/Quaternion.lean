import Autoland.Number.Scalar

/-! Vectors and orientations. The products ask only for a ring's operations. -/

namespace Autoland.Flight

structure Vector (ν : Type) where
  x : ν
  y : ν
  z : ν
  deriving DecidableEq, Repr

/-- The quaternion `w + x·i + y·j + z·k`; one of length 1 is an orientation. -/
structure Quaternion (ν : Type) where
  w : ν
  x : ν
  y : ν
  z : ν
  deriving DecidableEq, Repr

namespace Quaternion

variable {ν : Type}

section Ring

variable [Add ν] [Sub ν] [Mul ν] [Neg ν]

def conjugate (q : Quaternion ν) : Quaternion ν := ⟨q.w, -q.x, -q.y, -q.z⟩

protected def mul (q r : Quaternion ν) : Quaternion ν where
  w := q.w * r.w - q.x * r.x - q.y * r.y - q.z * r.z
  x := q.w * r.x + q.x * r.w + q.y * r.z - q.z * r.y
  y := q.w * r.y - q.x * r.z + q.y * r.w + q.z * r.x
  z := q.w * r.z + q.x * r.y - q.y * r.x + q.z * r.w

instance : Mul (Quaternion ν) := ⟨Quaternion.mul⟩

def ofVector (scalar : ν) (v : Vector ν) : Quaternion ν := ⟨scalar, v.x, v.y, v.z⟩

def vector (q : Quaternion ν) : Vector ν := ⟨q.x, q.y, q.z⟩

/-- The vector turned by the quaternion: the vector part of `q · v · conjugate q`. -/
def rotateFrom (zero : ν) (q : Quaternion ν) (v : Vector ν) : Vector ν :=
  (q * ofVector zero v * q.conjugate).vector

end Ring

variable [Scalar ν]

def identity : Quaternion ν := ⟨1.0, 0.0, 0.0, 0.0⟩

def rotate (q : Quaternion ν) (v : Vector ν) : Vector ν := q.rotateFrom 0.0 v

/-- The turn by an angle about an axis of any length; about no axis it is no turn. -/
def ofAxisAngle [Elementary ν] (axis : Vector ν) (angle : ν) : Quaternion ν :=
  let norm := Elementary.sqrt (axis.x * axis.x + axis.y * axis.y + axis.z * axis.z)
  if norm == 0.0 then identity
  else
    let s := Elementary.sin (angle / 2.0) / norm
    ⟨Elementary.cos (angle / 2.0), axis.x * s, axis.y * s, axis.z * s⟩

end Quaternion

end Autoland.Flight
