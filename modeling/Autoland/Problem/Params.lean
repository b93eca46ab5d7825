import Autoland.Error
import Autoland.Number.Scalar

/-! The numbers that steer learning. -/

namespace Autoland.Problem

structure Params (ν : Type) where
  /-- Weight of the return of the next step, for whole flights. -/
  discount : ν
  /-- Weight of the value of the next step, for single steps. -/
  stepDiscount : ν
  /-- How far a value moves toward what was observed. -/
  alpha : ν
  /-- Probability of an action picked at random. -/
  exploration : ν
  deriving DecidableEq, Repr

namespace Params

variable {ν : Type} [Scalar ν]

def standard : Params ν := ⟨0.999, 0.9, 0.1, 0.05⟩

def requireUnit (name : String) (value : ν) : Except DocumentFault Unit :=
  if Scalar.isFinite value && (0.0 : ν) ≤ value && value ≤ (1.0 : ν) then .ok ()
  else .error (.outsideUnit name (Scalar.write value))

def validate (params : Params ν) : Except DocumentFault Unit := do
  requireUnit "discount" params.discount
  requireUnit "step_discount" params.stepDiscount
  requireUnit "exploration" params.exploration
  if (0.0 : ν) < params.alpha && params.alpha ≤ (1.0 : ν) then .ok ()
  else .error (.stepSize (Scalar.write params.alpha))

end Params

end Autoland.Problem
