import Autoland.Console.Failure
import Autoland.Console.Host
import Autoland.Console.Settings
import Autoland.Data.IniReader
import Autoland.Data.Json5Reader
import Autoland.Data.JsonReader
import Autoland.Data.Overlay
import Autoland.Data.RonReader
import Autoland.Data.TomlReader
import Autoland.Data.YamlReader
import Autoland.Text.Environment

/-!
Where settings come from: a file, and above it the environment variables, to which an environment
file may add some.
-/

namespace Autoland.Console

variable {m : Type → Type} [Monad m] [Host m]

def firstThere? : List String → m (Option String)
  | [] => return none
  | path :: paths => do if ← Host.isThere path then return some path else firstThere? paths

def home? (environment : List (String × String)) : Option String :=
  (environment.lookup "HOME").filter (!·.isEmpty)

def settingsHome? (environment : List (String × String)) : Option String :=
  match (environment.lookup "XDG_CONFIG_HOME").filter Path.isAbsolute with
  | some path => some path
  | none => (home? environment).map fun home => Path.join home ".config"

def environmentPaths (environment : List (String × String)) : List String :=
  "/usr/local/etc/lander/lander.env" ::
    ((settingsHome? environment).map fun path => Path.join path "lander/lander.env").toList ++
    ((home? environment).map fun path => Path.join path ".config/lander/lander.env").toList

def addVariables (environment : List (String × String)) :
    List (String × String) → List (String × String)
  | [] => environment
  | (name, value) :: rest =>
    addVariables (if environment.any (·.1 = name) then environment
      else environment ++ [(name, value)]) rest

def readVariables : m (List (String × String)) := do
  let environment ← Host.environment
  match ← firstThere? (environmentPaths environment) with
  | none => return environment
  | some path =>
    match ← Host.contents? path with
    | none => return environment
    | some text => return addVariables environment (Text.readEnvironment text)

def variableValue (text : String) : Data :=
  match Text.lower text with
  | "true" => .bool true
  | "false" => .bool false
  | _ =>
    match Numeral.readInteger? text.toList with
    | some value => .int value
    | none =>
      match Numeral.read? text.toList with
      | some numeral => .real numeral.toDouble
      | none => .text text

def pointUnderscores : List Char → List Char
  | '_' :: '_' :: rest => '.' :: pointUnderscores rest
  | c :: rest => c :: pointUnderscores rest
  | [] => []

def variableKey? (name : String) : Option String :=
  (Text.strip? "lander__".toList (Text.lower name).toList).map fun key =>
    String.ofList (pointUnderscores key)

def variableSettings (environment : List (String × String)) : List (String × Data) :=
  environment.filterMap fun (name, text) =>
    (variableKey? name).map fun key => (key, variableValue text)

def settingsReaders : List (String × (String → Option Data)) := [
  ("toml", TomlReader.read?),
  ("json", fun text => (JsonReader.readSound? text).map Data.lastOfEach),
  ("yaml", YamlReader.read?),
  ("yml", YamlReader.read?),
  ("ini", IniReader.read?),
  ("ron", RonReader.read?),
  ("json5", Json5Reader.read?)]

/-- Reads a settings file in the format of an extension. It may start with a byte order mark, and
holds an object. -/
def readSettingsText? (extension text : String) : Option (List (String × Data)) := do
  let read? ← settingsReaders.lookup extension
  let text := match text.toList with
    | '\uFEFF' :: rest => String.ofList rest
    | _ => text
  match ← read? text with
  | .object members => some members
  | _ => none

def firstFile? : List (String × String) → m (Option (String × String))
  | [] => return none
  | (path, extension) :: rest => do
    match ← Host.contents? path with
    | some text => return some (extension, text)
    | none => firstFile? rest

def readSettingsFile (path : String) : m (Option (List (String × Data))) := do
  let longer := settingsReaders.filterMap fun (extension, _) =>
    (Path.withExtension? path extension).map (·, extension)
  let file ← firstFile? ((path, (Path.extension? path).getD "") :: longer)
  return file.bind fun (extension, text) => readSettingsText? extension text

def settingsPaths (environment : List (String × String)) : List String :=
  (environment.lookup "LANDER_CONFIG").toList ++ "lander.toml" ::
    ((home? environment).map fun path => Path.join path ".config/lander/lander.toml").toList

def readSettings (named : Option String) (environment : List (String × String)) :
    ExceptT Failure m Settings := do
  let source ← match named with
    | some path => pure (some path)
    | none => (firstThere? (settingsPaths environment) : m _)
  let inFile ← match source with
    | none => pure []
    | some path =>
      match ← (readSettingsFile path : m _) with
      | some members => pure members
      | none => throw .settingsNotRead
  let given := Data.layer (Data.layer (.object []) inFile) (variableSettings environment)
  -- Once more, for the keys that only led to other keys.
  let data := Data.layer (.object []) given.members
  match Settings.ofData? source data with
  | some settings => return settings
  | none => throw .settingsOfWrongForm

end Autoland.Console
