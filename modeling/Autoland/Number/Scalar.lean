/-! The arithmetic of flight quantities, kept apart from any one number format. -/

namespace Autoland

class Scalar (ν : Type) extends
    Add ν, Sub ν, Mul ν, Div ν, Neg ν, LT ν, LE ν, BEq ν, OfScientific ν where
  decidableLt : DecidableLT ν
  decidableLe : DecidableLE ν
  /-- The value nearest to an integer. -/
  ofInt : Int → ν
  abs : ν → ν
  /-- The integral part, toward zero. -/
  trunc : ν → ν
  ceil : ν → ν
  /-- The floor as an integer, held to the signed 64-bit range; 0 for what is no number. -/
  floorWord : ν → Int
  isFinite : ν → Bool
  /-- The value a decimal numeral names, if the text is one. -/
  read? : String → Option ν
  /-- The fewest digits that name the value, without an exponent. -/
  write : ν → String

instance Scalar.instDecidableLT {ν : Type} [Scalar ν] : DecidableLT ν := Scalar.decidableLt

instance Scalar.instDecidableLE {ν : Type} [Scalar ν] : DecidableLE ν := Scalar.decidableLe

/-- The elementary functions and constants a formula may use. No law is asked of them. -/
class Elementary (ν : Type) where
  pi : ν
  e : ν
  sqrt : ν → ν
  sin : ν → ν
  cos : ν → ν
  tan : ν → ν
  asin : ν → ν
  acos : ν → ν
  atan : ν → ν
  atan2 : ν → ν → ν
  exp : ν → ν
  log : ν → ν
  pow : ν → ν → ν

class TableValue (φ : Type) extends BEq φ, LT φ where
  decidableLt : DecidableLT φ
  zero : φ

instance TableValue.instDecidableLT {φ : Type} [TableValue φ] : DecidableLT φ :=
  TableValue.decidableLt

/-- Table values with one that is not greater than any other. -/
class RankedValue (φ : Type) extends TableValue φ where
  lowest : φ

class Stored (ν φ : Type) where
  widen : φ → ν
  narrow : ν → φ

namespace Scalar

variable {ν : Type} [Scalar ν]

def ofBool (b : Bool) : ν := if b then 1.0 else 0.0

/-- Anything but zero and what is no number counts as true. -/
def isTruthy (x : ν) : Bool := x != 0.0 && x == x

def sign (x : ν) : ν :=
  if x == 0.0 then 0.0 else if x < 0.0 then -(1.0) else if 0.0 < x then 1.0 else x

variable [Elementary ν]

def radians (x : ν) : ν := x * (Elementary.pi / 180.0)

def degrees (x : ν) : ν := x * (180.0 / Elementary.pi)

end Scalar

end Autoland
