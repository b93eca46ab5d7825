import Autoland.Axis
import Autoland.Data.Value
import Autoland.Problem.Dimension

/-! The settings of an engine. -/

namespace Autoland

open Problem

structure Config where
  dimension : Dimension
  /-- The horizontal axis of a simulation with two axes. -/
  planarAxis : Axis
  /-- The largest table that keeps every entry. -/
  denseCap : Nat
  /-- The number of shards of other tables. -/
  shards : Nat
  deriving DecidableEq, Repr

namespace Config

def standard : Config := ⟨.three, .x, 10000000, 64⟩

def dimensionName : Dimension → String
  | .one => "one_d"
  | .two => "two_d"
  | .three => "three_d"

def dimensionOfName? : String → Option Dimension
  | "one_d" => some .one
  | "two_d" => some .two
  | "three_d" => some .three
  | _ => none

def axisOfName? : String → Option Axis
  | "X" => some .x
  | "Y" => some .y
  | _ => none

def ofData? (data : Data) : Option Config := do
  let member ← data.record? ["dimension", "planar_axis", "dense_table_cap", "sparse_shards"]
  return {
    dimension := ← Data.optional? member "dimension" standard.dimension
      fun data => data.name?.bind dimensionOfName?
    planarAxis := ← Data.optional? member "planar_axis" standard.planarAxis
      fun data => data.name?.bind axisOfName?
    denseCap := ← Data.optional? member "dense_table_cap" standard.denseCap Data.word?
    shards := ← Data.optional? member "sparse_shards" standard.shards Data.word? }

end Config

end Autoland
