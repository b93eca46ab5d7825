import Autoland.Number.Scalar
import Autoland.Number.Numeral
import Autoland.Number.Digits

/-! Flight quantities in double precision, table values in single precision. -/

namespace Autoland

def Numeral.toDouble : Numeral → Float
  | .notANumber => 0.0 / 0.0
  | .infinite negative => if negative then -(1.0 / 0.0) else 1.0 / 0.0
  | .finite negative coefficient exponent =>
    let magnitude : Float :=
      if coefficient = 0 then 0.0
      else if 400 < exponent then 1.0 / 0.0
      else if (coefficient.log2 / 3 + 1 : Nat) + exponent < -400 then 0.0
      else Float.ofScientific coefficient (exponent < 0) exponent.natAbs
    if negative then -magnitude else magnitude

/-- The integer nearest below, held to the signed 64-bit range; 0 for what is no number. -/
def floorWord (x : Float) : Int :=
  if x < 0.0 then
    let whole := (-x).toUInt64
    let above := if whole.toFloat < -x then whole.toNat + 1 else whole.toNat
    max (-(above : Int)) (-Word.signedLimit)
  else min x.toUInt64.toNat (Word.signedLimit - 1)

def doubleOfInt (n : Int) : Float :=
  if n < 0 then -(Float.ofScientific n.natAbs false 0) else Float.ofScientific n.natAbs false 0

def roundTo (format : Float.Model.Format) :
    Float.Model.UnpackedFloat → Float.Model.UnpackedFloat
  | .finite sign mantissa exponent _ => .round format sign mantissa exponent
  | number => number

def singleOfDouble (x : Float) : Float32 := ⟨.pack (roundTo .binary32 x.toModel.unpack)⟩

def doubleOfSingle (x : Float32) : Float := ⟨.pack (roundTo .binary64 x.toModel.unpack)⟩

instance : Scalar Float where
  decidableLt := inferInstance
  decidableLe := inferInstance
  ofInt := doubleOfInt
  abs := Float.abs
  trunc x := if x < 0.0 then x.ceil else x.floor
  ceil := Float.ceil
  floorWord := floorWord
  isFinite := Float.isFinite
  read? text := (Numeral.read? text.toList).map Numeral.toDouble
  write x := NumberLayout.plain.write (FloatShape.ofDouble x)

instance : Elementary Float where
  pi := 3.141592653589793
  e := 2.718281828459045
  sqrt := Float.sqrt
  sin := Float.sin
  cos := Float.cos
  tan := Float.tan
  asin := Float.asin
  acos := Float.acos
  atan := Float.atan
  atan2 := Float.atan2
  exp := Float.exp
  log := Float.log
  pow := Float.pow

instance : RankedValue Float32 where
  decidableLt := inferInstance
  zero := 0.0
  lowest := -(1.0 / 0.0)

instance : Stored Float Float32 where
  widen := doubleOfSingle
  narrow := singleOfDouble

end Autoland
