import Autoland.Number.Binary

/-! Structured data as files hold it, and the shapes that are read from it. -/

namespace Autoland

/-- A value of a data file. What is written as it should be but has no value may stand where nothing
reads it: a number that no double can hold, a text with an unpaired surrogate escape, an object with
such a text as a key. -/
inductive Data where
  | null
  | bool (value : Bool)
  | int (value : Int)
  | real (value : Float)
  /-- A number in single precision, which is only written. -/
  | narrow (value : Float32)
  | text (value : String)
  /-- A point in time. -/
  | moment (text : String)
  | unreadable
  | list (items : List Data)
  | object (members : List (String × Data))

namespace Data

def bool? : Data → Option Bool
  | bool value => some value
  | _ => none

def text? : Data → Option String
  | text value => some value
  | _ => none

def real? : Data → Option Float
  | int value => some (doubleOfInt value)
  | real value => some value
  | _ => none

def int? (least most : Int) : Data → Option Int
  | int value => if least ≤ value ∧ value ≤ most then some value else none
  | _ => none

def word? (data : Data) : Option Nat := (data.int? 0 (Word.limit - 1 : Nat)).map Int.toNat

def listOf? {α : Type} (item? : Data → Option α) : Data → Option (List α)
  | list items => items.mapM item?
  | _ => none

def orNull? {α : Type} (value? : Data → Option α) : Data → Option (Option α)
  | null => some none
  | data => (value? data).map some

/-- The members of a record with the given field names: an object that names none of them twice, or
a list of values for the first of them. Other members of an object do not matter, and a point in
time is an object without any that does. -/
def record? (names : List String) : Data → Option (String → Option Data)
  | object members =>
    if names.all fun name => (members.filter (·.1 = name)).length ≤ 1 then
      some fun name => members.lookup name
    else none
  | list items =>
    if items.length ≤ names.length then some fun name => (names.zip items).lookup name else none
  | moment _ => some fun _ => none
  | _ => none

def required? {α : Type} (member : String → Option Data) (name : String)
    (value? : Data → Option α) : Option α := (member name).bind value?

def optional? {α : Type} (member : String → Option Data) (name : String) (fallback : α)
    (value? : Data → Option α) : Option α :=
  match member name with
  | none => some fallback
  | some data => value? data

def single? : Data → Option (String × Data)
  | object [member] => some member
  | _ => none

def name? (data : Data) : Option String :=
  match data with
  | text value => some value
  | object [(name, null)] => some name
  | _ => none

mutual

def isSound : Data → Bool
  | null => true
  | bool _ => true
  | int _ => true
  | real _ => true
  | narrow _ => true
  | text _ => true
  | moment _ => true
  | unreadable => false
  | list items => listIsSound items
  | object members => membersAreSound members

def listIsSound : List Data → Bool
  | [] => true
  | item :: items => isSound item && listIsSound items

def membersAreSound : List (String × Data) → Bool
  | [] => true
  | (_, value) :: members => isSound value && membersAreSound members

end

end Data

end Autoland
