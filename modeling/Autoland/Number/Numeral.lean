import Autoland.Number.Word

/-! Decimal numerals: the texts that name a number, and the number they name. -/

namespace Autoland

/-- What a numeral names. A finite one is `± coefficient · 10 ^ exponent`. -/
inductive Numeral where
  | finite (negative : Bool) (coefficient : Nat) (exponent : Int)
  | infinite (negative : Bool)
  | notANumber
  deriving DecidableEq, Repr

namespace Numeral

def digitValue (c : Char) : Nat := c.toNat - '0'.toNat

def ofDigits (digits : List Char) : Nat :=
  digits.foldl (fun n c => 10 * n + digitValue c) 0

def splitSign : List Char → Bool × List Char
  | '-' :: rest => (true, rest)
  | '+' :: rest => (false, rest)
  | rest => (false, rest)

def readExponent? : List Char → Option Int
  | [] => some 0
  | c :: rest =>
    if c = 'e' ∨ c = 'E' then
      let (negative, digits) := splitSign rest
      if digits.isEmpty || !digits.all Char.isDigit then none
      else some (if negative then -(ofDigits digits : Int) else ofDigits digits)
    else none

/-- Reads an unsigned numeral: digits with at most one point among or beside them, at least one
digit, then an optional exponent. -/
def readUnsigned? (negative : Bool) (body : List Char) : Option Numeral :=
  let whole := body.takeWhile Char.isDigit
  let (fraction, rest) := match body.dropWhile Char.isDigit with
    | '.' :: rest => (rest.takeWhile Char.isDigit, rest.dropWhile Char.isDigit)
    | rest => ([], rest)
  if whole.isEmpty && fraction.isEmpty then none
  else (readExponent? rest).map fun exponent =>
    .finite negative (ofDigits (whole ++ fraction)) (exponent - fraction.length)

def read? (text : List Char) : Option Numeral :=
  let (negative, body) := splitSign text
  let word := String.ofList (body.map Char.toLower)
  if word = "inf" ∨ word = "infinity" then some (.infinite negative)
  else if word = "nan" then some .notANumber
  else readUnsigned? negative body

def readWord? (text : List Char) : Option Nat :=
  let digits := match text with
    | '+' :: rest => rest
    | rest => rest
  if digits.isEmpty || !digits.all Char.isDigit || Word.limit ≤ ofDigits digits then none
  else some (ofDigits digits)

def readInteger? (text : List Char) : Option Int :=
  let (negative, digits) := splitSign text
  let value : Int := if negative then -(ofDigits digits : Int) else ofDigits digits
  if digits.isEmpty || !digits.all Char.isDigit || !Word.isSigned value then none
  else some value

end Numeral

end Autoland
