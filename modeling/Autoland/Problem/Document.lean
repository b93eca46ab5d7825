import Autoland.Problem.Method
import Autoland.Problem.Params

/-! Decision problems as they are written down. -/

namespace Autoland.Problem

structure FieldSpec (ν : Type) where
  name : String
  min : ν
  max : ν
  precision : Option ν
  deriving DecidableEq, Repr

structure RuleSpec where
  condition : String
  child : String
  deriving DecidableEq, Repr

structure SelectorSpec where
  field : String
  options : List String
  rules : List RuleSpec
  deriving DecidableEq, Repr

structure FormulaSpec where
  name : String
  formula : String
  deriving DecidableEq, Repr

structure Bounds (ν : Type) where
  name : String
  min : ν
  max : ν
  deriving DecidableEq, Repr

def Bounds.contains {ν : Type} [Scalar ν] (bounds : Bounds ν) (value : ν) : Bool :=
  bounds.min ≤ value && value ≤ bounds.max

/-- Values of a field at which the last action is kept. -/
structure Hold (ν : Type) where
  name : String
  values : List ν
  deriving DecidableEq, Repr

/-- One decision problem. The definition with the least priority is the root. -/
structure Document (ν : Type) where
  name : String
  methods : List Method
  priority : Int
  reward : Option String
  terminalReward : Option String
  params : Params ν
  symmetryAxes : List String
  passDownSymmetry : Bool
  state : List (FieldSpec ν)
  action : List (FieldSpec ν)
  selectors : List SelectorSpec
  formulas : List FormulaSpec
  success : List (Bounds ν)
  holds : List (Hold ν)
  deriving DecidableEq, Repr

namespace Document

variable {ν : Type} [Scalar ν]

def blank : Document ν where
  name := ""
  methods := [.monteCarlo]
  priority := 0
  reward := none
  terminalReward := none
  params := .standard
  symmetryAxes := []
  passDownSymmetry := false
  state := []
  action := []
  selectors := []
  formulas := []
  success := []
  holds := []

/-- The selector of a tilt about one axis: it reaches for the target when far from it, and
stabilizes when near and upright. -/
def tiltSelector (axis : String) : SelectorSpec where
  field := "gimbalMDP" ++ axis
  options := ["stabilizer", "reacher"]
  rules := [
    ⟨"And(Gt(Abs(position" ++ axis ++ "),3.0),FALSE)", "reacher"⟩,
    ⟨"And(Le(Abs(position" ++ axis ++ "),3.0),Le(Abs(angle" ++ axis ++ "),Asin(Div(PI,16))))",
      "stabilizer"⟩]

def stock : Document ν :=
  { blank with
    name := "defaultLander"
    priority := 1
    reward := some "-Div(Abs(thrust),100.0)"
    terminalReward := some "-Abs(velocityZ)"
    state := [
      ⟨"angle", -(35.0), 35.0, some 5.0⟩,
      ⟨"log2PositionZ", 0.0, 5.6, some 0.3⟩,
      ⟨"log2VelocityZ", -(5.0), 2.3, some 0.3⟩]
    action := [⟨"thrust", 0.0, 1.0, some 0.25⟩]
    selectors := [tiltSelector "X", tiltSelector "Y"]
    formulas := [
      ⟨"position", "Add(Abs(positionX),Abs(positionY))"⟩,
      ⟨"angle", "Add(Abs(angleX),Abs(angleY))"⟩,
      ⟨"log2PositionZ", "Log2(Add(positionZ,1))"⟩,
      ⟨"log8PositionZ", "Log8(Add(positionZ,1))"⟩,
      ⟨"log2VelocityZ", "Mult(Signum(velocityZ),Log2(Add(Abs(velocityZ),1)))"⟩,
      ⟨"log8VelocityZ", "Mult(Signum(velocityZ),Log8(Add(Abs(velocityZ),1)))"⟩]
    success := [⟨"velocityZ", -(2.0), 2.0⟩] }

end Document

end Autoland.Problem
