/-! Decimal digits of binary numbers: the fewest that read back, and a set number of places. -/

namespace Autoland

/-- The positive number `significand · 2 ^ exponent` of a binary format. `narrowBelow` says that
the next smaller number of the format is half as far away as the next larger one. -/
structure Binary where
  significand : Nat
  exponent : Int
  narrowBelow : Bool
  deriving DecidableEq, Repr

namespace Binary

/-- The value is `numerator / denominator`, counted in quarters of the gap above it. -/
def numerator (b : Binary) : Nat := 4 * b.significand * Nat.pow 2 (b.exponent - 2).toNat

def denominator (b : Binary) : Nat := Nat.pow 2 (2 - b.exponent).toNat

def quarter (b : Binary) : Nat := Nat.pow 2 (b.exponent - 2).toNat

/-- Whether `count / denominator` rounds to the value: the ends of the interval halfway to the
neighbours belong to it when the significand is even. -/
def covers (b : Binary) (scale count : Nat) : Bool :=
  let low := (b.numerator - (if b.narrowBelow then 1 else 2) * b.quarter) * scale
  let high := (b.numerator + 2 * b.quarter) * scale
  if b.significand % 2 = 0 then low ≤ count && count ≤ high else low < count && count < high

def magnitudeFrom (b : Binary) : Nat → Int → Int
  | 0, p => p
  | tries + 1, p =>
    if b.numerator * Nat.pow 10 (-p).toNat < b.denominator * Nat.pow 10 p.toNat then p
    else magnitudeFrom b tries (p + 1)

def magnitude (b : Binary) : Int :=
  let exponent : Int := b.numerator.log2 - b.denominator.log2
  magnitudeFrom b 4 ((exponent - 1) * 30103 / 100000)

/-- The best number of `count · 10 ^ place` that reads back as the value, if one of its two
neighbours on that grid does. Of two the nearer wins, and the larger when both are as near. -/
def onGrid? (b : Binary) (place : Int) : Option Nat :=
  let up := Nat.pow 10 place.toNat
  let down := Nat.pow 10 (-place).toNat
  let unit := b.denominator * up
  let lower := b.numerator * down / unit
  let rest := b.numerator * down % unit
  let below := b.covers down (lower * unit)
  let above := b.covers down ((lower + 1) * unit)
  if rest = 0 then some lower
  else if below && above then some (if 2 * rest < unit then lower else lower + 1)
  else if below then some lower
  else if above then some (lower + 1)
  else none

def trimZeros : Nat → Nat → Int → Nat × Int
  | 0, count, place => (count, place)
  | tries + 1, count, place =>
    if count ≠ 0 ∧ count % 10 = 0 then trimZeros tries (count / 10) (place + 1) else (count, place)

def shortestFrom (b : Binary) (magnitude : Int) : Nat → Int → Nat × Int
  | 0, _ => (0, 0)
  | tries + 1, digits =>
    match b.onGrid? (magnitude - digits) with
    | some count => trimZeros 20 count (magnitude - digits)
    | none => shortestFrom b magnitude tries (digits + 1)

def shortest (b : Binary) : Nat × Int := b.shortestFrom b.magnitude 17 1

def atPlaces (b : Binary) (places : Nat) : Nat :=
  let scaled := b.numerator * Nat.pow 10 places
  let lower := scaled / b.denominator
  let twice := 2 * (scaled % b.denominator)
  if twice < b.denominator then lower
  else if b.denominator < twice then lower + 1
  else lower + lower % 2

end Binary

inductive FloatShape where
  | notANumber
  | infinite (negative : Bool)
  | zero (negative : Bool)
  | finite (negative : Bool) (magnitude : Binary)
  deriving DecidableEq, Repr

namespace FloatShape

def ofWord (exponentBits fractionBits word : Nat) : FloatShape :=
  let fraction := word % Nat.pow 2 fractionBits
  let exponent := word / Nat.pow 2 fractionBits % Nat.pow 2 exponentBits
  let negative := word / Nat.pow 2 (fractionBits + exponentBits) % 2 = 1
  let bias : Int := (Nat.pow 2 (exponentBits - 1) - 1 + fractionBits : Nat)
  if exponent = Nat.pow 2 exponentBits - 1 then
    if fraction = 0 then .infinite negative else .notANumber
  else if exponent = 0 then
    if fraction = 0 then .zero negative else .finite negative ⟨fraction, 1 - bias, false⟩
  else
    .finite negative
      ⟨Nat.pow 2 fractionBits + fraction, exponent - bias, fraction = 0 && exponent > 1⟩

def ofDouble (x : Float) : FloatShape := ofWord 11 52 x.toBits.toNat

def ofSingle (x : Float32) : FloatShape := ofWord 8 23 x.toBits.toNat

end FloatShape

structure NumberLayout where
  /-- The largest count of digits before the point written without an exponent, if there is one. -/
  largest : Option Nat
  /-- The largest count of zeros after the point written without an exponent, if there is one. -/
  smallest : Option Nat
  /-- Written after a whole number. -/
  wholeMark : String

namespace NumberLayout

def plain : NumberLayout := ⟨none, none, ""⟩

def zeros (n : Nat) : String := String.ofList (List.replicate n '0')

def digits (layout : NumberLayout) (count : Nat) (place : Int) : String :=
  let text := toString count
  let point : Int := text.length + place
  let fits := layout.largest.all (point ≤ ·) && layout.smallest.all (-point ≤ ·)
  if !fits then
    let exponent := "e" ++ toString (point - 1)
    if text.length = 1 then text ++ exponent
    else (text.take 1).toString ++ "." ++ (text.drop 1).toString ++ exponent
  else if 0 ≤ place then text ++ zeros place.toNat ++ layout.wholeMark
  else if 0 < point then
    (text.take point.toNat).toString ++ "." ++ (text.drop point.toNat).toString
  else "0." ++ zeros (-point).toNat ++ text

def signText (negative : Bool) : String := if negative then "-" else ""

def write (layout : NumberLayout) : FloatShape → String
  | .notANumber => "NaN"
  | .infinite negative => signText negative ++ "inf"
  | .zero negative => signText negative ++ "0" ++ layout.wholeMark
  | .finite negative magnitude =>
    let (count, place) := magnitude.shortest
    signText negative ++ layout.digits count place

end NumberLayout

def FloatShape.writePlaces (places : Nat) : FloatShape → String
  | .notANumber => "NaN"
  | .infinite negative => NumberLayout.signText negative ++ "inf"
  | .zero negative => NumberLayout.signText negative ++ pointed 0
  | .finite negative magnitude =>
    NumberLayout.signText negative ++ pointed (magnitude.atPlaces places)
where
  pointed (count : Nat) : String :=
    let text := toString count
    let text := NumberLayout.zeros (places + 1 - text.length) ++ text
    if places = 0 then text
    else (text.take (text.length - places)).toString ++ "." ++
      (text.drop (text.length - places)).toString

end Autoland
