import Autoland.Data.Value

/-!
Numbers of JSON texts. A whole number of 64 bits is kept as it is. Any other is read in two steps:
the leading digits that fit a 64-bit word become a double, which is then scaled by one power of ten.
-/

namespace Autoland.JsonNumber

def takeWord : Nat → List Char → Nat × List Char
  | word, [] => (word, [])
  | word, c :: rest =>
    let next := 10 * word + Numeral.digitValue c
    if next < Word.limit then takeWord next rest else (word, c :: rest)

def powerOfTen (n : Nat) : Float := Float.ofScientific 1 false n

/-- Scales by a power of ten. Below the least power a double has, it divides in steps; a result
beyond every double is none. -/
def scale? : Nat → Float → Int → Option Float
  | 0, value, _ => some value
  | tries + 1, value, exponent =>
    if exponent.natAbs ≤ 308 then
      if exponent ≥ 0 then
        let scaled := value * powerOfTen exponent.natAbs
        if scaled.isInf then none else some scaled
      else some (value / powerOfTen exponent.natAbs)
    else if value == 0.0 then some value
    else if exponent ≥ 0 then none
    else scale? tries (value / powerOfTen 308) (exponent + 308)

def assemble (negative : Bool) (word : Nat) (exponent : Int) : Data :=
  match scale? 8 (doubleOfInt word) exponent with
  | some value => .real (if negative then -value else value)
  | none => .unreadable

/-- Applies an exponent to what stands before it. One that does not fit 31 bits makes a nonzero
number too large or zero. -/
def withExponent (negative : Bool) (word : Nat) (place : Int) (down : Bool) (digits : List Char) :
    Data :=
  let exponent := Numeral.ofDigits digits
  if Word.signedHalfLimit ≤ exponent then
    if word ≠ 0 ∧ !down then .unreadable else .real (if negative then -0.0 else 0.0)
  else assemble negative word (if down then place - exponent else place + exponent)

def readTail? (negative : Bool) (word : Nat) (place : Int) : List Char → Option Data
  | [] => some (assemble negative word place)
  | c :: rest =>
    if c = 'e' ∨ c = 'E' then
      let (down, digits) := Numeral.splitSign rest
      if digits.isEmpty || !digits.all Char.isDigit then none
      else some (withExponent negative word place down digits)
    else none

def readFraction? (negative : Bool) (word skipped : Nat) : List Char → Option Data
  | '.' :: rest =>
    let digits := rest.takeWhile Char.isDigit
    if digits.isEmpty then none
    else
      let (longer, left) := takeWord word digits
      readTail? negative longer (skipped - (digits.length - left.length : Nat))
        (rest.dropWhile Char.isDigit)
  | rest => readTail? negative word skipped rest

/-- A whole number without fraction and exponent. Minus zero is not whole. -/
def whole (negative : Bool) (word : Nat) : Data :=
  if !negative then .int word
  else if word = 0 ∨ Word.signedLimit < word then .real (-(doubleOfInt word))
  else .int (-word)

def read? (text : List Char) : Option Data :=
  let (negative, body) := match text with
    | '-' :: rest => (true, rest)
    | rest => (false, rest)
  let digits := body.takeWhile Char.isDigit
  let rest := body.dropWhile Char.isDigit
  if digits.isEmpty || (digits.head? = some '0' && digits.length > 1) then none
  else
    let (word, left) := takeWord 0 digits
    if left.isEmpty && rest.isEmpty then some (whole negative word)
    else readFraction? negative word left.length rest

end Autoland.JsonNumber
