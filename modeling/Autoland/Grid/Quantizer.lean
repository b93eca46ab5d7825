import Autoland.Number.Scalar

/-!
Buckets of continuous values. Bucket `b` of a grid stands for the value `b · precision + shift`, and
a value belongs to the bucket nearest to it, the upper of two.
-/

namespace Autoland.Grid

structure Quantizer (ν : Type) where
  precision : ν
  shift : ν
  deriving DecidableEq, Repr

variable {ν : Type} [Scalar ν]

namespace Quantizer

def undeclared : Quantizer ν := ⟨1e-7, 0.0⟩

/-- The bucket of a value, held to the signed 64-bit range. -/
def bucket (q : Quantizer ν) (value : ν) : Int :=
  Scalar.floorWord ((value - q.shift) / q.precision + 0.5)

def value (q : Quantizer ν) (bucket : Int) : ν := Scalar.ofInt bucket * q.precision + q.shift

def snap (q : Quantizer ν) (value : ν) : ν := q.value (q.bucket value)

end Quantizer

/-- Whether a value lies within a tenth of a bucket of the integer next to it toward zero. -/
def nearInteger (value precision : ν) : Bool :=
  Scalar.abs (value - Scalar.trunc value) < 0.1 * precision

/-- Walks up by `precision` from a value. The walk ends with 0 next to a negative integer and else
with the first value that is not negative. After `steps` steps it jumps to the first grid point at
or above zero. -/
def walkUp (precision : ν) : Nat → ν → ν
  | 0, current =>
    if current < 0.0 then
      if nearInteger current precision then 0.0
      else
        let reached := current + Scalar.ceil (-current / precision) * precision
        if reached < 0.0 then 0.0 else reached
    else current
  | steps + 1, current =>
    if current < 0.0 then
      if nearInteger current precision then 0.0 else walkUp precision steps (current + precision)
    else current

def walkLimit : Nat := 10000000

/-- The value of bucket 0 for a field declared from `min` on. -/
def rangeShift (min precision : ν) : ν :=
  if 0.0 < precision && Scalar.isFinite min then walkUp precision walkLimit min else 0.0

def Quantizer.forRange (min precision : ν) : Quantizer ν := ⟨precision, rangeShift min precision⟩

end Autoland.Grid
