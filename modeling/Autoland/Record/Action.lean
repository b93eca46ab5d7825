import Autoland.Record.State

/-! What a definition decides. -/

namespace Autoland

open Problem

structure Action (ν : Type) where
  record : Record ν

namespace Action

variable {ν : Type}

def definition (action : Action ν) : Definition ν := action.record.definition

def axis (action : Action ν) : Option Axis := action.record.axis

def bucket? (action : Action ν) (field : String) : Option Int := action.record.bucket? field

def same (left right : Action ν) : Bool :=
  left.record.agreesOn right.record left.definition.action

def ofBuckets (definition : Definition ν) (buckets : List (String × Int)) (axis : Option Axis) :
    Action ν :=
  ⟨buckets.foldl (fun record (field, bucket) => record.setBucket field bucket)
    (Record.empty definition axis)⟩

variable [Scalar ν]

def ofValues (definition : Definition ν) (values : List (String × ν)) (axis : Option Axis) :
    Action ν :=
  ⟨(Record.empty definition axis).setAll values⟩

def moveTo (action : Action ν) (target : Definition ν) : Action ν := ⟨action.record.moveTo target⟩

/-- The values as the actuators take them: a symmetric field has the letter of the action's axis. -/
def commandFields (action : Action ν) : List (String × ν) :=
  action.record.values.map fun (field, value) =>
    (if action.definition.isSymmetryAxis field then Axis.tag field action.axis else field, value)

end Action

/-- The table index of a state and an action, which both belong to the definition. A declared field
that is not carried counts as its lowest bucket. -/
def Problem.Definition.indexOf {ν : Type} (definition : Definition ν) (state : State ν)
    (action : Action ν) : Except Error Nat :=
  if state.definition.name ≠ definition.name then
    .error (.definitionMismatch definition.name state.definition.name)
  else if action.definition.name ≠ definition.name then
    .error (.definitionMismatch definition.name action.definition.name)
  else
    .ok (definition.layout.index
      (definition.layout.state.map fun range => (state.bucket? range.name).getD range.min)
      (definition.layout.action.map fun range => (action.bucket? range.name).getD range.min))

end Autoland
