import Autoland.Problem.Definition

/-! Bucketed field values that belong to a definition. -/

namespace Autoland

open Problem

/-- Buckets by field name, for one definition and, in a symmetric one, for one axis. -/
structure Record (ν : Type) where
  definition : Definition ν
  axis : Option Axis
  buckets : List (String × Int)

namespace Record

variable {ν : Type}

def empty (definition : Definition ν) (axis : Option Axis) : Record ν := ⟨definition, axis, []⟩

def insertBucket (field : String) (bucket : Int) : List (String × Int) → List (String × Int)
  | [] => [(field, bucket)]
  | (name, old) :: rest =>
    if name = field then (field, bucket) :: rest
    else (name, old) :: insertBucket field bucket rest

def setBucket (record : Record ν) (field : String) (bucket : Int) : Record ν :=
  { record with buckets := insertBucket field bucket record.buckets }

def bucket? (record : Record ν) (field : String) : Option Int := record.buckets.lookup field

/-- Whether two records belong to definitions of one name and agree on fields. -/
def agreesOn (left right : Record ν) (fields : List (FieldSpec ν)) : Bool :=
  left.definition.name == right.definition.name &&
    fields.all fun field => left.bucket? field.name == right.bucket? field.name

variable [Scalar ν]

def set (record : Record ν) (field : String) (value : ν) : Record ν :=
  record.setBucket field ((record.definition.quantizer field).bucket value)

def setAll (record : Record ν) (values : List (String × ν)) : Record ν :=
  values.foldl (fun record (field, value) => record.set field value) record

def value? (record : Record ν) (field : String) : Option ν :=
  (record.bucket? field).map fun bucket => (record.definition.quantizer field).value bucket

/-- The value of a field; one that the record does not carry reads as zero. -/
def value (record : Record ν) (field : String) : ν := (record.value? field).getD 0.0

def fields (record : Record ν) : Formula.Fields ν := record.value?

def values (record : Record ν) : List (String × ν) :=
  record.buckets.map fun (field, _) => (field, record.value field)

def moveTo (record : Record ν) (target : Definition ν) : Record ν :=
  (empty target record.axis).setAll record.values

end Record

end Autoland
