/-! Choices of one bucket from each of several columns, run through like the digits of an
odometer. -/

namespace Autoland.Learning

/-- The next digits of an odometer: the last digit that is not at the end of its column moves on,
and those behind it start again. Nothing comes after digits that are all at the end. -/
def advance : List Nat → List Nat → Option (List Nat)
  | length :: lengths, digit :: digits =>
    match advance lengths digits with
    | some next => some (digit :: next)
    | none =>
      if digit + 1 < length then some ((digit + 1) :: List.replicate lengths.length 0) else none
  | _, _ => none

def odometer (lengths : List Nat) : Nat → List Nat → List (List Nat)
  | 0, _ => []
  | count + 1, digits =>
    match advance lengths digits with
    | some next => digits :: odometer lengths count next
    | none => [digits]

abbrev lengths (columns : List (String × List Int)) : List Nat := columns.map (·.2.length)

def choiceAt (columns : List (String × List Int)) (digits : List Nat) : List (String × Int) :=
  List.zipWith (fun column digit => (column.1, column.2.getD digit 0)) columns digits

def combinations (columns : List (String × List Int)) : List (List (String × Int)) :=
  if columns.any (·.2.isEmpty) then []
  else
    let lengths := lengths columns
    let count := lengths.foldr (· * ·) 1
    (odometer lengths count (List.replicate lengths.length 0)).map (choiceAt columns)

end Autoland.Learning
