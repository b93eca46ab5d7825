/-! The two horizontal axes, and the names that end in one. -/

namespace Autoland

inductive Axis where
  | x
  | y
  deriving DecidableEq, Repr

namespace Axis

def letter : Axis → Char
  | x => 'X'
  | y => 'Y'

def both : List Axis := [x, y]

/-- The axis that a name of two or more characters ends in. -/
def ofName? (name : String) : Option Axis :=
  match name.toList.reverse with
  | 'X' :: _ :: _ => some x
  | 'Y' :: _ :: _ => some y
  | _ => none

def tag (name : String) : Option Axis → String
  | none => name
  | some axis => name.push axis.letter

def untag? (name : String) : Option String :=
  (ofName? name).map fun _ => String.ofList name.toList.dropLast

end Axis

end Autoland
