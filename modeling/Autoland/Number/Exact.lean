import Autoland.Number.Scalar
import Autoland.Number.Numeral

/-! Exact flight quantities and table values, as fractions of integers. -/

namespace Autoland

def Numeral.toFraction? : Numeral → Option Rat
  | .finite negative coefficient exponent =>
    let magnitude : Rat := (coefficient : Rat) * (10 : Rat) ^ exponent
    some (if negative then -magnitude else magnitude)
  | _ => none

def floorOfFraction (x : Rat) : Int :=
  if x.floor < -(Word.signedLimit : Int) then -Word.signedLimit
  else if Word.signedLimit ≤ x.floor then Word.signedLimit - 1
  else x.floor

instance : Scalar Rat where
  decidableLt := inferInstance
  decidableLe := inferInstance
  ofInt n := n
  abs x := if x < 0 then -x else x
  trunc x := if x < 0 then x.ceil else x.floor
  ceil x := x.ceil
  floorWord := floorOfFraction
  isFinite _ := true
  read? text := (Numeral.read? text.toList).bind Numeral.toFraction?
  write x := toString x.num ++ "/" ++ toString x.den

instance : TableValue Rat where
  decidableLt := inferInstance
  zero := 0

instance : Stored Rat Rat where
  widen := id
  narrow := id

end Autoland
