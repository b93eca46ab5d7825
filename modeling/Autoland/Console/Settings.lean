import Autoland.Data.Loose
import Autoland.Data.TomlWriter
import Autoland.Engine.Config

/-! The settings of all commands, and their written form. -/

namespace Autoland.Console

open Data

structure Logging where
  level : String
  json : Bool
  deriving DecidableEq, Repr

structure Training where
  /-- How many workers replay flights; zero stands for as many as can work at once. -/
  workers : Nat
  passes : Nat
  seed : Option Nat
  deriving DecidableEq, Repr

structure Storage where
  /-- The definitions file; without one the stock definition is used. -/
  definitions : Option String
  /-- The directory of stored tables. -/
  tables : String
  deriving DecidableEq, Repr

structure Settings where
  logging : Logging
  engine : Config
  training : Training
  storage : Storage
  /-- The file that they were read from. -/
  source : Option String
  deriving DecidableEq, Repr

def Logging.standard : Logging := ⟨"info", false⟩

def Training.standard : Training := ⟨0, 1, none⟩

def Storage.standard : Storage := ⟨none, "tables"⟩

def Settings.standard : Settings := ⟨.standard, .standard, .standard, .standard, none⟩

def Logging.ofData? (data : Data) : Option Logging := do
  let member ← Loose.record? ["level", "json"] data
  return {
    level := ← optional? member "level" standard.level Loose.text?
    json := ← optional? member "json" standard.json Loose.bool? }

def engineOfData? (data : Data) : Option Config := do
  let member ← Loose.record?
    ["dimension", "planar_axis", "dense_table_cap", "sparse_shards"] data
  let axis? := fun name : String =>
    Config.axisOfName? (String.ofList (name.toList.map Char.toUpper))
  return {
    dimension := ← optional? member "dimension" Config.standard.dimension
      fun data => (Loose.name? data).bind Config.dimensionOfName?
    planarAxis := ← optional? member "planar_axis" Config.standard.planarAxis
      fun data => (Loose.name? data).bind axis?
    denseCap := ← optional? member "dense_table_cap" Config.standard.denseCap Loose.word?
    shards := ← optional? member "sparse_shards" Config.standard.shards Loose.word? }

def Training.ofData? (data : Data) : Option Training := do
  let member ← Loose.record? ["workers", "passes", "seed"] data
  return {
    workers := ← optional? member "workers" standard.workers Loose.word?
    passes := ← optional? member "passes" standard.passes Loose.word?
    seed := ← optional? member "seed" standard.seed (orNull? Loose.word?) }

def Storage.ofData? (data : Data) : Option Storage := do
  let member ← Loose.record? ["definitions", "tables_dir"] data
  return {
    definitions := ← optional? member "definitions" standard.definitions (orNull? Loose.text?)
    tables := ← optional? member "tables_dir" standard.tables Loose.text? }

namespace Settings

def ofData? (source : Option String) (data : Data) : Option Settings := do
  let member ← Loose.record? ["logging", "engine", "training", "storage"] data
  return {
    logging := ← optional? member "logging" .standard Logging.ofData?
    engine := ← optional? member "engine" .standard engineOfData?
    training := ← optional? member "training" .standard Training.ofData?
    storage := ← optional? member "storage" .standard Storage.ofData?
    source }

def heading (settings : Settings) : String :=
  match settings.source with
  | some path => "# Config file: " ++ path ++ "\n\n"
  | none => "# No configuration file found. Using defaults.\n\n"

def number? (n : Nat) : Option String := if n < Word.signedLimit then some (toString n) else none

/-- The settings as a settings file, with an empty line after each table; nothing if a number is
too large for one. -/
def write? (settings : Settings) : Option String := do
  let logging := [
    ("level", TomlWriter.quote settings.logging.level),
    ("json", if settings.logging.json then "true" else "false")]
  let engine := [
    ("dimension", TomlWriter.quote (Config.dimensionName settings.engine.dimension)),
    ("planar_axis", TomlWriter.quote settings.engine.planarAxis.letter.toString),
    ("dense_table_cap", ← number? settings.engine.denseCap),
    ("sparse_shards", ← number? settings.engine.shards)]
  let seed ← settings.training.seed.mapM number?
  let training := [
    ("workers", ← number? settings.training.workers),
    ("passes", ← number? settings.training.passes)] ++ (seed.map fun n => ("seed", n)).toList
  let storage :=
    (settings.storage.definitions.map fun path => ("definitions", TomlWriter.quote path)).toList ++
      [("tables_dir", TomlWriter.quote settings.storage.tables)]
  return String.join ([("logging", logging), ("engine", engine), ("training", training),
    ("storage", storage)].map fun (name, members) => TomlWriter.table name members ++ "\n")

end Settings

end Autoland.Console
