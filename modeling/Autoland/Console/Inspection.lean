import Autoland.Console.Listing
import Autoland.Table.Image

/-! What is told about a stored table. -/

namespace Autoland.Console

open Problem Table Text

def populatedEntries (image : Image Float32) : List (Nat × Float32) :=
  image.pairs.filter fun (_, value) => value != 0.0

def fourPlaces (shape : FloatShape) : String := shape.writePlaces 4

def spread (values : List Float32) : String :=
  let least := values.foldl (fun least value => if value < least then value else least) (1.0 / 0.0)
  let most := values.foldl (fun most value => if most < value then value else most) (-1.0 / 0.0)
  let mean := values.foldl (fun sum value => sum + doubleOfSingle value) 0.0 / values.length.toFloat
  fourPlaces (.ofSingle least) ++ " / " ++ fourPlaces (.ofDouble mean) ++ " / " ++
    fourPlaces (.ofSingle most)

/-- Whether an entry stands before another: the greater value first, then the lower index. -/
def ranksBefore (left right : Nat × Float32) : Bool :=
  right.2 < left.2 || (left.2 == right.2 && left.1 ≤ right.1)

def roundToMillionths (value : Float) : Float := (value * 1e6).round / 1e6

def fieldValues (definition : Definition Float) (ranges : List Grid.FieldRange)
    (buckets : List Int) : String :=
  " ".intercalate ((ranges.zip buckets).map fun (range, bucket) =>
    range.name ++ "=" ++
      shortNumber (roundToMillionths ((definition.quantizer range.name).value bucket)))

def situation (definition : Definition Float) (index : Nat) : String :=
  match definition.layout.decode? index with
  | none => ""
  | some (state, action) =>
    fieldValues definition definition.layout.state state ++ " | " ++
      fieldValues definition definition.layout.action action

def entryRow (index value situation : String) : String :=
  line (padEnd 12 index ++ " " ++ padStart 12 value ++ "  " ++ situation)

def entryTable (definition : Option (Definition Float)) (top : Nat)
    (entries : List (Nat × Float32)) : String :=
  let ranked := (entries.mergeSort ranksBefore).take top
  if ranked.isEmpty then ""
  else
    line "" ++ entryRow "INDEX" "VALUE" "STATE | ACTION" ++
      String.join (ranked.map fun (index, value) =>
        entryRow (toString index) (fourPlaces (.ofSingle value))
          ((definition.map fun definition => situation definition index).getD ""))

def verdictOn (image : Image Float32) (definition : Definition Float) : String :=
  match image.checkShape definition.name definition.tableSize with
  | .ok () => "Matches definition '" ++ definition.name ++ "'"
  | .error error => "Does not match definition: " ++ error.message

def inspection (image : Image Float32) (definition : Option (Definition Float)) (top : Nat) :
    String :=
  let entries := populatedEntries image
  line ("Table: " ++ image.owner) ++
    line ("Format version: " ++ toString image.version) ++
    line ("Saved at: " ++ image.savedAt.write) ++
    line ("Size: " ++ toString image.size ++ " (" ++ image.backing.name ++ ")") ++
    line ("Non-zero entries: " ++ toString entries.length) ++
    (if entries.isEmpty then ""
      else line ("Min / mean / max: " ++ spread (entries.map (·.2)))) ++
    String.join (definition.toList.map fun definition => line (verdictOn image definition)) ++
    entryTable definition top entries

end Autoland.Console
