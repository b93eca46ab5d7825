import Autoland.Data.Value
import Autoland.Number.Digits
import Autoland.Text.Letters

/-!
Values of settings. They may come from files or from plain words, so that a truth, a number or a
text is taken in whichever form it has.
-/

namespace Autoland.Data.Loose

def truth? (word : String) : Option Bool :=
  match Text.lower word with
  | "true" => some true
  | "on" => some true
  | "yes" => some true
  | "false" => some false
  | "off" => some false
  | "no" => some false
  | _ => none

def bool? : Data → Option Bool
  | .bool value => some value
  | .int value => some (value ≠ 0)
  | .real value => some (value != 0.0)
  | .text "1" => some true
  | .text "0" => some false
  | .text word => truth? word
  | _ => none

def wordOfReal (value : Float) : Nat := value.round.toUInt64.toNat

/-- A number of 64 bits without a sign. A larger one than a sign leaves room for is rounded as a
double. -/
def word? : Data → Option Nat
  | .bool value => some value.toNat
  | .int value =>
    if value < 0 then none
    else if Word.isSigned value then some value.toNat
    else some (wordOfReal (doubleOfInt value))
  | .real value => some (wordOfReal value)
  | .text word =>
    match truth? word with
    | some value => some value.toNat
    | none => Numeral.readWord? word.toList
  | _ => none

def writeReal (value : Float) : String := NumberLayout.plain.write (.ofDouble value)

def text? : Data → Option String
  | .bool value => some (if value then "true" else "false")
  | .int value =>
    some (if Word.isSigned value then toString value else writeReal (doubleOfInt value))
  | .real value => some (writeReal value)
  | .text value => some value
  | .moment value => some value
  | _ => none

/-- A name, alone or as the only key of an object, in lower case. -/
def name? : Data → Option String
  | .text name => some (Text.lower name)
  | .object [(name, _)] => some (Text.lower name)
  | _ => none

/-- The members of a record with the given field names: an object, or a list of values for the
first of them. -/
def record? (names : List String) : Data → Option (String → Option Data)
  | .object members => some fun name => members.lookup name
  | .list items => some fun name => (names.zip items).lookup name
  | _ => none

end Autoland.Data.Loose
