import Autoland.Number.Scalar
import Autoland.Text.Blank

/-! Angles that a document gives in degrees. -/

namespace Autoland.Grid

def isAngleName (name : String) : Bool :=
  let lower := name.toList.map Char.toLower
  Text.contains "angle".toList lower || Text.contains "gimbal".toList lower

/-- Whether the numbers of an angle are degrees: a precision of 0.1 or more says so, and where there
is no precision an end of 2 or more on either side of zero. -/
def givenInDegrees {ν : Type} [Scalar ν] (min max : ν) : Option ν → Bool
  | some precision => (0.1 : ν) ≤ precision
  | none => (2.0 : ν) ≤ Scalar.abs min || (2.0 : ν) ≤ Scalar.abs max

end Autoland.Grid
