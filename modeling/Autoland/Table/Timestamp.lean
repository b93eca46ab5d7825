import Autoland.Number.Numeral
import Autoland.Text.Blank

/-! Points in time and their written form `2024-01-02T03:04:05+00:00`. -/

namespace Autoland.Table

/-- Seconds since the start of 1970 in universal time, and nanoseconds. Within a leap second the
nanoseconds run on past one second. -/
structure Timestamp where
  seconds : Int
  nanos : Nat
  deriving DecidableEq, Repr

namespace Timestamp

def epoch : Timestamp := ⟨0, 0⟩

def isLeapYear (year : Int) : Bool := year % 4 = 0 && (year % 100 ≠ 0 || year % 400 = 0)

def daysInMonth (year : Int) (month : Nat) : Nat :=
  match month with
  | 2 => if isLeapYear year then 29 else 28
  | 4 | 6 | 9 | 11 => 30
  | _ => 31

/-- Days from the start of 1970 to a date. Years count from March here, so that a leap day is the
last day of its year. -/
def daysFromDate (year : Int) (month day : Nat) : Int :=
  let year := if month ≤ 2 then year - 1 else year
  let era := year / 400
  let yearOfEra := year % 400
  let monthFromMarch : Int := (month + 9) % 12
  let dayOfYear := (153 * monthFromMarch + 2) / 5 + day - 1
  era * 146097 + yearOfEra * 365 + yearOfEra / 4 - yearOfEra / 100 + dayOfYear - 719468

def dateFromDays (days : Int) : Int × Int × Int :=
  let days := days + 719468
  let era := days / 146097
  let dayOfEra := days % 146097
  let yearOfEra := (dayOfEra - dayOfEra / 1460 + dayOfEra / 36524 - dayOfEra / 146096) / 365
  let dayOfYear := dayOfEra - (365 * yearOfEra + yearOfEra / 4 - yearOfEra / 100)
  let monthFromMarch := (5 * dayOfYear + 2) / 153
  let day := dayOfYear - (153 * monthFromMarch + 2) / 5 + 1
  let month := if monthFromMarch < 10 then monthFromMarch + 3 else monthFromMarch - 9
  let year := yearOfEra + era * 400
  (if month ≤ 2 then year + 1 else year, month, day)

def number? (most : Nat) (text : List Char) : Option (Nat × List Char) :=
  let digits := (text.take most).takeWhile Char.isDigit
  if digits.isEmpty then none else some (Numeral.ofDigits digits, text.drop digits.length)

def pair? (text : List Char) : Option (Nat × List Char) := number? 2 (Text.trimStart text)

def mark? (c : Char) (text : List Char) : Option (List Char) :=
  match Text.trimStart text with
  | d :: rest => if c = d then some rest else none
  | [] => none

def year? (text : List Char) : Option (Int × List Char) :=
  match Text.trimStart text with
  | '-' :: rest => (number? rest.length rest).map fun (year, rest) => (-(year : Int), rest)
  | '+' :: rest => (number? rest.length rest).map fun (year, rest) => ((year : Int), rest)
  | rest => (number? 4 rest).map fun (year, rest) => ((year : Int), rest)

def fraction? : List Char → Option (Nat × List Char)
  | '.' :: rest =>
    (number? 9 rest).map fun (value, left) =>
      (value * Nat.pow 10 (9 - (rest.length - left.length)), left.dropWhile Char.isDigit)
  | rest => some (0, rest)

def twoDigits? : List Char → Option (Nat × List Char)
  | a :: b :: rest =>
    if a.isDigit ∧ b.isDigit then some (Numeral.ofDigits [a, b], rest) else none
  | _ => none

def offsetSign? : List Char → Option (Int × List Char)
  | '+' :: rest => some (1, rest)
  | '-' :: rest => some (-1, rest)
  | '\u2212' :: rest => some (-1, rest)
  | _ => none

def offset? (text : List Char) : Option (Int × List Char) :=
  let text := Text.trimStart text
  if (text.take 3).map Char.toUpper = ['U', 'T', 'C'] then some (0, text.drop 3)
  else match text with
    | 'Z' :: rest => some (0, rest)
    | 'z' :: rest => some (0, rest)
    | text => do
      let (sign, rest) ← offsetSign? text
      let (hours, rest) ← twoDigits? rest
      let (minutes, rest) ← twoDigits? (rest.dropWhile fun c => c = ':' ∨ Text.isBlank c)
      if hours < 24 ∧ minutes < 60 then some (sign * (3600 * hours + 60 * minutes), rest) else none

def firstYear : Int := -262143

def lastYear : Int := 262142

def inCalendar (seconds : Int) : Bool :=
  daysFromDate firstYear 1 1 * 86400 ≤ seconds && seconds < daysFromDate (lastYear + 1) 1 1 * 86400

/-- Reads a point in time. White space may stand around the numbers, and `T`, `t` or a blank between
the date and the time. Second 60 is a leap second. It has to be in the calendar by its own date and
in universal time. -/
def read? (text : String) : Option Timestamp := do
  let (year, rest) ← year? text.toList
  let (month, rest) ← pair? (← mark? '-' rest)
  let (day, rest) ← pair? (← mark? '-' rest)
  let rest ← match rest with
    | c :: rest => if c = 'T' ∨ c = 't' ∨ c = ' ' then some rest else none
    | [] => none
  let (hour, rest) ← pair? rest
  let (minute, rest) ← pair? (← mark? ':' rest)
  let (second, rest) ← pair? (← mark? ':' rest)
  let (nanos, rest) ← fraction? rest
  let (offset, rest) ← offset? rest
  if 1 ≤ month ∧ month ≤ 12 ∧ 1 ≤ day ∧ day ≤ daysInMonth year month ∧ hour < 24 ∧ minute < 60 ∧
      second ≤ 60 ∧ firstYear ≤ year ∧ year ≤ lastYear ∧ (Text.trimStart rest).isEmpty then
    let (second, nanos) := if second = 60 then (59, nanos + 1000000000) else (second, nanos)
    let seconds :=
      daysFromDate year month day * 86400 + hour * 3600 + minute * 60 + second - offset
    if inCalendar seconds then some ⟨seconds, nanos⟩ else none
  else none

def padded (width : Nat) (n : Int) : String :=
  let digits := toString n
  String.ofList (List.replicate (width - digits.length) '0') ++ digits

def writeFraction (nanos : Nat) : String :=
  if nanos = 0 then ""
  else if nanos % 1000000 = 0 then "." ++ padded 3 (nanos / 1000000 : Nat)
  else if nanos % 1000 = 0 then "." ++ padded 6 (nanos / 1000 : Nat)
  else "." ++ padded 9 nanos

def writeMarked (mark : String) (time : Timestamp) : String :=
  let (year, month, day) := dateFromDays (time.seconds / 86400)
  let second := time.seconds % 86400
  let yearText :=
    if year < 0 then "-" ++ padded 4 (-year)
    else if 9999 < year then "+" ++ toString year
    else padded 4 year
  yearText ++ "-" ++ padded 2 month ++ "-" ++ padded 2 day ++ "T" ++ padded 2 (second / 3600) ++
    ":" ++ padded 2 (second / 60 % 60) ++ ":" ++
    padded 2 (second % 60 + (time.nanos / 1000000000 : Nat)) ++
    writeFraction (time.nanos % 1000000000) ++ mark

def write (time : Timestamp) : String := time.writeMarked "+00:00"

end Timestamp

end Autoland.Table
