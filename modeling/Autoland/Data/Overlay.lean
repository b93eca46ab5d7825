import Autoland.Data.Value
import Autoland.Text.Blank
import Autoland.Text.Letters

/-!
Data laid over other data, the way settings from several sources are put together. The case of keys
does not matter.
-/

namespace Autoland.Data

def members : Data → List (String × Data)
  | object members => members
  | _ => []

def items : Data → List Data
  | list items => items
  | _ => []

def put (key : String) (value : Data) : List (String × Data) → List (String × Data)
  | [] => [(key, value)]
  | (other, there) :: rest =>
    if other = key then (key, value) :: rest else (other, there) :: put key value rest

mutual

/-- Lays data over what is there. An object is laid over member by member, and one without members
changes nothing; other data takes the place of what is there. -/
def overlay : Data → Option Data → Data
  | object members, there => overlayMembers members (there.getD (object []))
  | data, _ => data

def overlayMembers : List (String × Data) → Data → Data
  | [], there => there
  | (key, value) :: rest, there =>
    let key := Text.lower key
    overlayMembers rest
      (object (put key (overlay value (there.members.lookup key)) there.members))

end

/-- A step from data to a part of it: to a member of an object, or to an item of a list, counted
from its end if the number is negative. -/
inductive Step where
  | member (key : String)
  | item (index : Int)
  deriving DecidableEq, Repr

def position? (index : Int) (length : Nat) : Option Nat :=
  if 0 ≤ index then some index.toNat
  else if index.natAbs ≤ length then some (length - index.natAbs)
  else none

/-- Puts data where steps lead to. What stands in the way of a step gives way to an empty object or
list, and a list grows with nulls. A member at the end of the steps is laid over what is there, and
an item takes its place. -/
def writeAt (value : Data) : List Step → Data → Data
  | [], _ => value
  | [.member key], there => overlayMembers [(key, value)] there
  | .member key :: steps, there =>
    object (put key (writeAt value steps ((there.members.lookup key).getD null)) there.members)
  | .item index :: steps, there =>
    match position? index there.items.length with
    | none => there
    | some place =>
      let items := there.items ++ List.replicate (place + 1 - there.items.length) null
      list (items.modify place (writeAt value steps))

def isKeyLetter (c : Char) : Bool := c.isAlphanum || c = ' ' || c = '_' || c = '-'

def takeKey? (text : List Char) : Option (Step × List Char) :=
  let key := text.takeWhile isKeyLetter
  if key.isEmpty then none
  else some (.member (String.ofList key), text.dropWhile isKeyLetter)

def takeIndex? (text : List Char) : Option (Step × List Char) := do
  let isGap := fun c => c = ' ' || c = '\t'
  let text := text.dropWhile isGap
  let (negative, text) := match text with
    | '-' :: rest => (true, rest)
    | rest => (false, rest)
  let digits := text.takeWhile Char.isDigit
  let magnitude : Int := Numeral.ofDigits digits
  let index := if negative then -magnitude else magnitude
  match (text.dropWhile Char.isDigit).dropWhile isGap with
  | ']' :: rest => if !digits.isEmpty && Word.isSigned index then some (.item index, rest) else none
  | _ => none

def takeSteps? : Nat → List Char → Option (List Step)
  | _, [] => some []
  | 0, _ => none
  | left + 1, mark :: rest => do
    let (step, rest) ← if mark = '.' then takeKey? rest
      else if mark = '[' then takeIndex? rest
      else none
    return step :: (← takeSteps? left rest)

/-- The steps that a text names; if it names none, it is a key as a whole. -/
def stepsOf (text : String) : List Step :=
  let chars := text.toList
  let steps? := do
    let (first, rest) ← takeKey? chars
    return first :: (← takeSteps? rest.length rest)
  steps?.getD [.member text]

def layer (base : Data) (values : List (String × Data)) : Data :=
  values.foldl (fun there (key, value) => writeAt value (stepsOf key) there) base

mutual

def lastOfEach : Data → Data
  | list items => list (lastOfEachItem items)
  | object members => object (lastOfEachMember members)
  | data => data

def lastOfEachItem : List Data → List Data
  | [] => []
  | item :: items => lastOfEach item :: lastOfEachItem items

def lastOfEachMember : List (String × Data) → List (String × Data)
  | [] => []
  | (key, value) :: rest =>
    if rest.any (·.1 = key) then lastOfEachMember rest
    else (key, lastOfEach value) :: lastOfEachMember rest

end

end Autoland.Data
