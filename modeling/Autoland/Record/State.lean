import Autoland.Flight.Snapshot
import Autoland.Record.Basic

/-! What a definition sees of the vehicle. -/

namespace Autoland

open Problem

structure State (ν : Type) where
  record : Record ν

namespace State

variable {ν : Type}

def definition (state : State ν) : Definition ν := state.record.definition

def axis (state : State ν) : Option Axis := state.record.axis

def bucket? (state : State ν) (field : String) : Option Int := state.record.bucket? field

def same (left right : State ν) : Bool :=
  left.record.agreesOn right.record left.definition.state

variable [Scalar ν]

/-- Sets each symmetric field to the part of it along the axis of the record, if that is carried. -/
def takeAxis (record : Record ν) : Record ν :=
  match record.axis with
  | none => record
  | some axis =>
    record.definition.symmetryAxes.foldl (fun record field =>
      match record.value? (Axis.tag field (some axis)) with
      | some value => record.set field value
      | none => record) record

/-- Computes the fields that have a formula, in order. In a record with an axis the symmetric fields
keep the part along that axis. -/
def compute (record : Record ν) : Record ν :=
  record.definition.formulas.foldl (fun record (name, formula) =>
    if record.axis.isSome && record.definition.isSymmetryAxis name then record
    else record.set name (formula.evaluate record.fields)) record

def derive (record : Record ν) : State ν := ⟨compute (takeAxis record)⟩

def ofValues (definition : Definition ν) (values : List (String × ν)) (axis : Option Axis) :
    State ν :=
  derive ((Record.empty definition axis).setAll values)

def ofSnapshot [Elementary ν] (definition : Definition ν) (snapshot : Flight.Snapshot ν)
    (axis : Option Axis) : State ν :=
  ofValues definition snapshot.fieldList axis

def moveTo (state : State ν) (target : Definition ν) : State ν :=
  derive (state.record.moveTo target)

def holds (state : State ν) : Bool :=
  state.definition.holds.any fun hold =>
    (state.bucket? hold.name).any fun bucket =>
      hold.values.any fun value =>
        (state.definition.quantizer hold.name).bucket value == bucket

def succeeds (state : State ν) : Bool :=
  state.definition.success.all fun bounds => bounds.contains (state.record.value bounds.name)

end State

end Autoland
