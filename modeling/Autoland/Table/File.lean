import Autoland.Data.JsonReader
import Autoland.Data.JsonWriter
import Autoland.Table.Image

/-! Stored tables: the JSON form of a table's copy. -/

namespace Autoland.Table

def single? : Data → Option Float32
  | .int value =>
    let magnitude := Float32.ofScientific value.natAbs false 0
    some (if value < 0 then -magnitude else magnitude)
  | .real value => some (singleOfDouble value)
  | _ => none

def pair? : Data → Option (Nat × Float32)
  | .list [index, value] => do return (← index.word?, ← single? value)
  | _ => none

def Entries.ofData? (data : Data) : Option (Entries Float32) := do
  match ← data.single? with
  | ("dense", values) => return .dense (← values.listOf? single?)
  | ("sparse", pairs) => return .sparse (← pairs.listOf? pair?)
  | _ => none

def Image.ofData? (data : Data) : Option (Image Float32) := do
  let member ← data.record?
    ["format_version", "mdp_name", "size", "backing", "saved_at", "entries"]
  return {
    version := (← Data.required? member "format_version"
      (Data.int? 0 (Word.halfLimit - 1 : Nat))).toNat
    owner := ← Data.required? member "mdp_name" Data.text?
    size := ← Data.required? member "size" Data.word?
    backing := ← Grid.Backing.ofName? (← Data.required? member "backing" Data.name?)
    savedAt := ← Timestamp.read? (← Data.required? member "saved_at" Data.text?)
    entries := ← Data.required? member "entries" Entries.ofData? }

def Entries.toData : Entries Float32 → Data
  | .dense values => .object [("dense", .list (values.map .narrow))]
  | .sparse pairs =>
    .object [("sparse", .list (pairs.map fun (index, value) =>
      .list [.int index, .narrow value]))]

def Image.toData (image : Image Float32) : Data :=
  .object [
    ("format_version", .int image.version),
    ("mdp_name", .text image.owner),
    ("size", .int image.size),
    ("backing", .text image.backing.name),
    ("saved_at", .text (image.savedAt.writeMarked "Z")),
    ("entries", image.entries.toData)]

/-- The text of a stored table. A value that is no finite number is written as `null`. -/
def Image.toJson (image : Image Float32) : String := JsonWriter.compact image.toData

def Image.ofJson (text : String) : Except Error (Image Float32) :=
  match (JsonReader.readUnlimited? text).bind Image.ofData? with
  | some image => .ok image
  | none => .error .serialization

def Image.same (left right : Image Float32) : Bool :=
  left.version == right.version && left.owner == right.owner && left.size == right.size &&
    left.backing == right.backing && left.savedAt == right.savedAt &&
    match left.entries, right.entries with
    | .dense a, .dense b => a == b
    | .sparse a, .sparse b => a == b
    | _, _ => false

end Autoland.Table
