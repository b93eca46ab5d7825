import Autoland.Axis
import Autoland.Formula.Expression
import Autoland.Grid.Layout
import Autoland.Grid.Quantizer
import Autoland.Problem.Document

/-! Definitions: documents that were checked, with formulas compiled and fields laid out. -/

namespace Autoland.Problem

structure Rule (ν : Type) where
  condition : Formula.Expression ν
  child : String

/-- An action field whose value is the id of a child. -/
structure Selector (ν : Type) where
  field : String
  options : List String
  /-- The ids of the options, each once. -/
  ids : List Int
  rules : List (Rule ν)
  /-- Whether the field is declared as an action field, and so is part of the table index. -/
  indexed : Bool

/-- The axis that a chosen child runs on: the one that the field ends in. Where symmetry is passed
down, the field takes the parent's axis first. -/
def Selector.childAxis {ν : Type} (selector : Selector ν) (parent : Option Axis)
    (passDown : Bool) : Option Axis :=
  Axis.ofName? (if passDown then Axis.tag selector.field parent else selector.field)

structure Definition (ν : Type) where
  name : String
  methods : List Method
  priority : Int
  params : Params ν
  reward : Option (Formula.Expression ν)
  terminalReward : Option (Formula.Expression ν)
  /-- The computed fields, in the order of their computation. -/
  formulas : List (String × Formula.Expression ν)
  symmetryAxes : List String
  passDownSymmetry : Bool
  state : List (FieldSpec ν)
  action : List (FieldSpec ν)
  /-- The grids of fields; of two with one name the first counts. -/
  quantizers : List (String × Grid.Quantizer ν)
  /-- The names of the children; the position of a name is its id. -/
  childNames : List String
  selectors : List (Selector ν)
  success : List (Bounds ν)
  holds : List (Hold ν)
  layout : Grid.Layout

def idOf? (names : List String) (name : String) : Option Int :=
  (names.findIdx? (· = name)).map fun position => position

namespace Definition

variable {ν : Type}

def uses (definition : Definition ν) (method : Method) : Bool := method ∈ definition.methods

def isSymmetryAxis (definition : Definition ν) (field : String) : Bool :=
  field ∈ definition.symmetryAxes

def isStateField (definition : Definition ν) (field : String) : Bool :=
  definition.state.any (·.name = field)

def isActionField (definition : Definition ν) (field : String) : Bool :=
  definition.action.any (·.name = field)

def selector? (definition : Definition ν) (field : String) : Option (Selector ν) :=
  definition.selectors.find? (·.field = field)

def childId? (definition : Definition ν) (name : String) : Option Int :=
  idOf? definition.childNames name

def childName? (definition : Definition ν) (id : Int) : Option String :=
  if 0 ≤ id then definition.childNames[id.toNat]? else none

def tableSize (definition : Definition ν) : Nat := definition.layout.total

/-- The grid of a field: its own, or that of its name without an axis, or the undeclared one. -/
def quantizer [Scalar ν] (definition : Definition ν) (field : String) : Grid.Quantizer ν :=
  match definition.quantizers.lookup field with
  | some quantizer => quantizer
  | none =>
    match (Axis.untag? field).bind (fun name => definition.quantizers.lookup name) with
    | some quantizer => quantizer
    | none => .undeclared

def describe (definition : Definition ν) : String :=
  definition.name ++ " (priority " ++ toString definition.priority ++ ", " ++
    toString definition.tableSize ++ " entries, " ++ definition.layout.backing.name ++ ")"

end Definition

end Autoland.Problem
