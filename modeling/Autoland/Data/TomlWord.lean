import Autoland.Data.JsonToken
import Autoland.Text.Blank

/-! The words of TOML files that are values without quotes: truths, numbers and points in time. -/

namespace Autoland.TomlWord

def digits? (isDigit : Char → Bool) (text : List Char) : Option (List Char) :=
  let groups := Text.splitAt '_' text
  if groups.all fun group => !group.isEmpty && group.all isDigit then some groups.flatten else none

def whole? (text : List Char) : Option (List Char) := do
  let digits ← digits? Char.isDigit text
  if digits.head? = some '0' ∧ digits.length > 1 then none else some digits

def integer? (negative : Bool) (magnitude : Nat) : Option Data :=
  let value : Int := if negative then -magnitude else magnitude
  if Word.isSigned value then some (.int value) else none

def based? (base : Nat) (text : List Char) : Option Data := do
  let below := fun c => (JsonToken.hexValue? c).any (· < base)
  let digits ← digits? below text
  integer? false
    (digits.foldl (fun value c => base * value + (JsonToken.hexValue? c).getD 0) 0)

def isDigitOrMark (c : Char) : Bool := c.isDigit || c = '_'

def exponent? (text : List Char) : Option Int := do
  let (negative, text) := Numeral.splitSign text
  let digits ← digits? Char.isDigit text
  return if negative then -(Numeral.ofDigits digits : Int) else Numeral.ofDigits digits

/-- A number with digits after a point, an exponent, or both. One that is too large is refused,
though not a negative one. -/
def real? (negative : Bool) (text : List Char) : Option Data := do
  let whole ← whole? (text.takeWhile isDigitOrMark)
  let (fraction, rest) ← match text.dropWhile isDigitOrMark with
    | '.' :: rest => do
      let digits ← digits? Char.isDigit (rest.takeWhile isDigitOrMark)
      pure (digits, rest.dropWhile isDigitOrMark)
    | rest => if rest.isEmpty then none else some ([], rest)
  let exponent ← match rest with
    | [] => some 0
    | c :: rest => if c = 'e' ∨ c = 'E' then exponent? rest else none
  let value := Numeral.toDouble
    (.finite negative (Numeral.ofDigits (whole ++ fraction)) (exponent - fraction.length))
  if value == 1.0 / 0.0 then none else some (.real value)

def magnitude? (negative : Bool) (text : List Char) : Option Data :=
  match String.ofList text with
  | "inf" => some (.real (if negative then -(1.0 / 0.0) else 1.0 / 0.0))
  | "nan" => some (.real (0.0 / 0.0))
  | _ => (real? negative text).or
    ((whole? text).bind fun digits => integer? negative (Numeral.ofDigits digits))

def number? : List Char → Option Data
  | '0' :: 'x' :: rest => based? 16 rest
  | '0' :: 'o' :: rest => based? 8 rest
  | '0' :: 'b' :: rest => based? 2 rest
  | text =>
    let (negative, body) := Numeral.splitSign text
    magnitude? negative body

def field? (count least most : Nat) (text : List Char) : Option (Nat × List Char) :=
  let digits := text.take count
  let value := Numeral.ofDigits digits
  if digits.length = count ∧ digits.all Char.isDigit ∧ least ≤ value ∧ value ≤ most then
    some (value, text.drop count)
  else none

def after? (c : Char) : List Char → Option (List Char)
  | d :: rest => if c = d then some rest else none
  | [] => none

def date? (text : List Char) : Option (List Char) := do
  let (year, rest) ← field? 4 0 9999 text
  let (month, rest) ← field? 2 1 12 (← after? '-' rest)
  let leap := year % 4 = 0 ∧ (year % 100 ≠ 0 ∨ year % 400 = 0)
  let most := match month with
    | 2 => if leap then 29 else 28
    | 4 | 6 | 9 | 11 => 30
    | _ => 31
  return (← field? 2 1 most (← after? '-' rest)).2

/-- Reads a time of day: its text with a fraction of at most nine digits and no zeros at its end. -/
def time? (text : List Char) : Option (List Char × List Char) := do
  let (_, rest) ← field? 2 0 23 text
  let (_, rest) ← field? 2 0 59 (← after? ':' rest)
  let (_, rest) ← field? 2 0 60 (← after? ':' rest)
  let clock := text.take 8
  match rest with
  | '.' :: rest =>
    let digits := rest.takeWhile Char.isDigit
    let kept := ((digits.take 9).reverse.dropWhile (· = '0')).reverse
    if digits.isEmpty then none
    else some (if kept.isEmpty then clock else clock ++ '.' :: kept, rest.dropWhile Char.isDigit)
  | rest => some (clock, rest)

def offset? : List Char → Option (List Char)
  | [] => some []
  | 'Z' :: [] => some ['Z']
  | 'z' :: [] => some ['Z']
  | sign :: rest => do
    let (hours, after) ← field? 2 0 23 rest
    let (minutes, after) ← field? 2 0 59 (← after? ':' after)
    if (sign = '+' ∨ sign = '-') ∧ after.isEmpty then
      some ((if hours = 0 ∧ minutes = 0 then '+' else sign) :: rest)
    else none

def moment? (text : List Char) : Option (List Char) :=
  match date? text with
  | some [] => some text
  | some (mark :: rest) =>
    if mark = 'T' ∨ mark = 't' ∨ mark = ' ' then do
      let (time, rest) ← time? rest
      let offset ← offset? rest
      return text.take 10 ++ 'T' :: (time ++ offset)
    else none
  | none => match time? text with
    | some (time, []) => some time
    | _ => none

def value? (word : List Char) : Option Data :=
  match String.ofList word with
  | "true" => some (.bool true)
  | "false" => some (.bool false)
  | _ => (number? word).or
    ((moment? word).map fun text => .moment (String.ofList text))

def isPart (c : Char) : Bool := c.isAlphanum || c = '_' || c = '+' || c = '-' || c = ':' || c = '.'

/-- Cuts off a word. A date and a time that follows after one blank make one word. -/
def take (text : List Char) : List Char × List Char :=
  let word := text.takeWhile isPart
  match date? word, text.dropWhile isPart with
  | some [], ' ' :: c :: rest =>
    if c.isDigit then
      (word ++ ' ' :: (c :: rest).takeWhile isPart, (c :: rest).dropWhile isPart)
    else (word, ' ' :: c :: rest)
  | _, rest => (word, rest)

def read? (text : List Char) : Option (Data × List Char) :=
  let (word, rest) := take text
  (value? word).map (·, rest)

end Autoland.TomlWord
