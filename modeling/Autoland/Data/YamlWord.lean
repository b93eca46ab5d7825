import Autoland.Data.JsonToken
import Autoland.Number.Binary

/-! What the texts of YAML files that stand without quotes mean. -/

namespace Autoland.YamlWord

def based? (base : Nat) (text : List Char) : Option Data := do
  let (negative, digits) := Numeral.splitSign text
  let values ← digits.mapM JsonToken.hexValue?
  let magnitude := values.foldl (fun value digit => base * value + digit) 0
  let value : Int := if negative then -magnitude else magnitude
  if !digits.isEmpty && values.all (· < base) && Word.isSigned value then return .int value
  else none

def isUnbounded (word : String) : Bool :=
  word ∈ [".inf", ".Inf", ".INF", "+.inf", "+.Inf", "+.INF", "-.inf", "-.Inf", "-.INF",
    ".nan", ".NaN", ".NAN"]

/-- A number with a digit in it. One without digits is known, but has no value. -/
def real? (word : String) : Option Data :=
  if isUnbounded word then some .unreadable
  else if word.toList.any Char.isDigit then
    (Numeral.read? word.toList).map fun numeral => .real numeral.toDouble
  else none

def int? (word : String) : Option Data :=
  match word.toList with
  | '0' :: 'x' :: digits => based? 16 digits
  | '0' :: 'o' :: digits => based? 8 digits
  | '+' :: rest => (Numeral.readInteger? rest).map .int
  | text => (Numeral.readInteger? text).map .int

def truth? : String → Option Data
  | "true" => some (.bool true)
  | "false" => some (.bool false)
  | _ => none

def isNull (word : String) : Bool := word ∈ ["", "~", "null"]

def value (word : String) : Data :=
  if isNull word then .null
  else ((truth? word).or ((int? word).or (real? word))).getD (.text word)

/-- What a word means as a value of a named type, if it is one. Types of no known name are texts. -/
def ofType? (type word : String) : Option Data :=
  match type with
  | "bool" => truth? word
  | "int" => (Numeral.readInteger? word.toList).map .int
  | "float" => real? word
  | "null" => if word = "~" ∨ word = "null" then some .null else none
  | _ => some (.text word)

end Autoland.YamlWord
