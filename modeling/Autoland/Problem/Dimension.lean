import Autoland.Text.Blank

/-! How many axes a simulation moves along. -/

namespace Autoland.Problem

inductive Dimension where
  | one
  | two
  | three
  deriving DecidableEq, Repr

namespace Dimension

def name : Dimension → String
  | one => "1D"
  | two => "2D"
  | three => "3D"

def ofMarker? (name : String) : Option Dimension :=
  let marked := fun marker : String => Text.contains marker.toList name.toList
  if marked "_1D" then some one
  else if marked "_2D" then some two
  else if marked "_3D" then some three
  else none

def least : Dimension → Dimension → Dimension
  | one, _ => one
  | _, one => one
  | two, _ => two
  | _, two => two
  | three, three => three

end Dimension

end Autoland.Problem
