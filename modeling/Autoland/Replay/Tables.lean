import Autoland.Engine.Basic
import Autoland.Table.File
import Autoland.Text.Path

/-! The tables of an engine as files in a directory, one for each definition. -/

namespace Autoland.Replay

variable {ν : Type}

def tablePath (directory name : String) : String := Path.join directory (name ++ ".table.json")

def attachText (engine : Engine ν Float32) (text : String) : Bool × Engine ν Float32 :=
  match Table.Image.ofJson text with
  | .error _ => (false, engine)
  | .ok image =>
    match engine.attachTable image with
    | (.error _, engine) => (false, engine)
    | (.ok (), engine) => (true, engine)

def attachEach (directory : String) (contents? : String → Option String) :
    List String → Engine ν Float32 → Nat × Engine ν Float32
  | [], engine => (0, engine)
  | name :: names, engine =>
    match contents? (tablePath directory name) with
    | none => attachEach directory contents? names engine
    | some text =>
      let (fits, engine) := attachText engine text
      let (count, engine) := attachEach directory contents? names engine
      (if fits then count + 1 else count, engine)

def tableNames (engine : Engine ν Float32) : List String := engine.definitions.map (·.name)

def attachTables (directory : String) (contents? : String → Option String)
    (engine : Engine ν Float32) : Nat × Engine ν Float32 :=
  attachEach directory contents? (tableNames engine) engine

def savedTables (directory : String) (time : Table.Timestamp) (engine : Engine ν Float32) :
    Except Error (List (String × String)) :=
  (tableNames engine).mapM fun name =>
    (engine.saveTable name time).map fun image => (tablePath directory name, image.toJson)

end Autoland.Replay
