import Autoland.Error

/-! The learning methods and their names. -/

namespace Autoland.Problem

/-- How a definition learns: from whole flights at their end, or from each step to the next. -/
inductive Method where
  | monteCarlo
  | temporalDifference
  deriving DecidableEq, Repr

namespace Method

def name : Method → String
  | monteCarlo => "MC"
  | temporalDifference => "TD0"

def read (text : String) : Except Error Method :=
  let upper := String.ofList (text.toList.map Char.toUpper)
  match upper with
  | "MC" => .ok monteCarlo
  | "TD0" => .ok temporalDifference
  | _ => .error (.definition (.unknownMethod upper))

end Method

end Autoland.Problem
