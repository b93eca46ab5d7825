import Autoland.Grid.Layout
import Autoland.Number.Scalar
import Autoland.Table.Timestamp

/-! Copies of value tables, as they are stored and brought back. -/

namespace Autoland.Table

def formatVersion : Nat := 1

inductive Entries (φ : Type) where
  | dense (values : List φ)
  | sparse (pairs : List (Nat × φ))
  deriving DecidableEq, Repr

namespace Entries

variable {φ : Type}

def length : Entries φ → Nat
  | dense values => values.length
  | sparse pairs => pairs.length

def pairs : Entries φ → List (Nat × φ)
  | dense values => values.zipIdx.map fun (value, index) => (index, value)
  | sparse pairs => pairs

end Entries

structure Image (φ : Type) where
  version : Nat
  owner : String
  size : Nat
  backing : Grid.Backing
  savedAt : Timestamp
  entries : Entries φ
  deriving DecidableEq, Repr

namespace Image

variable {φ : Type}

def pairs (image : Image φ) : List (Nat × φ) := image.entries.pairs

def nonZero [TableValue φ] (image : Image φ) : Nat :=
  image.pairs.countP fun (_, value) => value != TableValue.zero

def checkShape (image : Image φ) (name : String) (size : Nat) : Except Error Unit :=
  let mismatch := fun fault => Except.error (Error.tableShape name fault)
  if image.version ≠ formatVersion then mismatch (.version formatVersion image.version)
  else if image.owner ≠ name then mismatch (.owner name image.owner)
  else if image.size ≠ size then mismatch (.size size image.size)
  else match image.entries with
    | .dense values =>
      if values.length = size then .ok () else mismatch (.valueCount size values.length)
    | .sparse pairs =>
      match pairs.find? fun (index, _) => size ≤ index with
      | some (index, _) => mismatch (.index size index)
      | none => .ok ()

end Image

end Autoland.Table
