import Autoland.Number.Binary
import Autoland.Text.Blank

/-! The commands with their options and arguments, as they are written and as help tells of them. -/

namespace Autoland.Console

structure ValueSpec where
  name : String
  accepts : String → Bool

structure OptionSpec where
  letter : Option Char
  word : String
  value : Option ValueSpec
  repeats : Bool
  about : String

structure ArgumentSpec where
  value : ValueSpec
  required : Bool
  about : String

structure CommandSpec where
  names : List String
  about : String
  options : List OptionSpec
  arguments : List ArgumentSpec

def isPath (text : String) : Bool := !text.isEmpty

def isWord (text : String) : Bool := (Numeral.readWord? text.toList).isSome

def readField? (text : String) : Option (String × Float) := do
  let (name, value) ← Text.cutAt? '=' text.toList
  let value ← Numeral.read? (Text.trim value)
  return (String.ofList (Text.trim name), value.toDouble)

def ValueSpec.path (name : String) : ValueSpec := ⟨name, isPath⟩

def ValueSpec.word (name : String) : ValueSpec := ⟨name, isWord⟩

def OptionSpec.valued (letter : Option Char) (word : String) (value : ValueSpec) (about : String) :
    OptionSpec :=
  ⟨letter, word, some value, false, about⟩

def OptionSpec.flag (letter : Option Char) (word about : String) : OptionSpec :=
  ⟨letter, word, none, false, about⟩

def sharedOptions : List OptionSpec := [
  .valued (some 'c') "config" (.path "CONFIG")
    "Configuration file (defaults to LANDER_CONFIG, ./lander.toml, ~/.config/lander/lander.toml)",
  .flag (some 'v') "verbose" "Enable verbose output"]

def helpOption : OptionSpec := .flag (some 'h') "help" "Print help"

def versionOption : OptionSpec := .flag (some 'V') "version" "Print version"

def commands : List CommandSpec := [
  ⟨["definition", "check"], "Validate a definitions file and describe the resulting tables", [],
    [⟨.path "PATH", false,
      "Definitions file (JSON or TOML); falls back to storage.definitions"⟩]⟩,
  ⟨["definition", "default"], "Print the stock lander definition as JSON", [], []⟩,
  ⟨["formula", "eval"], "Compile and evaluate a formula",
    [⟨some 'f', "field", some ⟨"FIELDS", fun text => (readField? text).isSome⟩, true,
      "Field value as name=value (repeatable)"⟩,
     .valued (some 's') "snapshot" (.path "SNAPSHOT")
      "Physical snapshot (JSON) consulted for fields not given with --field"],
    [⟨⟨"FORMULA", fun _ => true⟩, true,
      "Formula text, e.g. \"Add(Abs(positionX),Abs(positionY))\""⟩]⟩,
  ⟨["replay"], "Train value tables by replaying recorded episodes",
    [.valued (some 'd') "definitions" (.path "DEFINITIONS")
      "Definitions file; falls back to storage.definitions",
     .valued (some 'w') "workers" (.word "WORKERS")
      "Number of workers (overrides training.workers)",
     .valued (some 'p') "passes" (.word "PASSES")
      "Passes over the recording (overrides training.passes)",
     .valued none "seed" (.word "SEED")
      "Base seed for episode RNGs (overrides training.seed)",
     .valued none "tables-dir" (.path "TABLES_DIR")
      "Directory of stored tables (overrides storage.tables_dir)",
     .flag none "no-save" "Train without writing tables back"],
    [⟨.path "EPISODES", true, "Recorded episodes (JSON)"⟩]⟩,
  ⟨["table", "inspect"], "Summarize a stored table and list its highest values",
    [.valued (some 't') "top" (.word "TOP") "Number of entries to list [default: 10]",
     .valued (some 'd') "definitions" (.path "DEFINITIONS")
      "Definitions file used to decode entries; falls back to storage.definitions"],
    [⟨.path "PATH", true, "Table file written by \x60lander replay\x60"⟩]⟩,
  ⟨["config"], "Show the effective configuration", [], []⟩]

def groups : List (List String × String) := [
  ([], "Lander - tabular reinforcement learning for a rocket lander"),
  (["definition"], "Validate and describe MDP definitions"),
  (["formula"], "Formula operations"),
  (["table"], "Stored table operations")]

def command? (names : List String) : Option CommandSpec := commands.find? (·.names = names)

def optionsOf (names : List String) : List OptionSpec :=
  sharedOptions ++ ((command? names).map (·.options)).getD [] ++ [helpOption] ++
    if names.isEmpty then [versionOption] else []

def namesAfter (names : List String) : List String :=
  (commands.filterMap fun command =>
    if names.isPrefixOf command.names then command.names[names.length]? else none).eraseDups

/-- The name that asks for help. Every group of commands has it. -/
def helpName : String := "help"

def isHelp (names : List String) : Bool := names.getLast? = some helpName

def isGroup (names : List String) : Bool := (command? names).isNone && !isHelp names

def mayFollow (names : List String) (name : String) : Bool :=
  isGroup names && (name = helpName || name ∈ namesAfter names)

def aboutOf (names : List String) : String :=
  if isHelp names then "Print this message or the help of the given subcommand(s)"
  else match command? names with
    | some command => command.about
    | none => (groups.lookup names).getD ""

end Autoland.Console
