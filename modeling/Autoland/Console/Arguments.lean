import Autoland.Console.Grammar

/-! What a command line asks for. -/

namespace Autoland.Console

structure ReplayRequest where
  recording : String
  definitions : Option String
  workers : Option Nat
  passes : Option Nat
  seed : Option Nat
  tables : Option String
  keepsTables : Bool
  deriving DecidableEq, Repr

inductive Command where
  | check (definitions : Option String)
  | stock
  | evaluate (formula : String) (fields : List (String × Float)) (snapshot : Option String)
  | replay (request : ReplayRequest)
  | inspect (table : String) (top : Nat) (definitions : Option String)
  | settings

structure Invocation where
  settings : Option String
  command : Command

inductive Stop where
  | misuse
  /-- Help is asked for, on a command or a group of them. -/
  | help (names : List String)
  | version
  deriving DecidableEq, Repr

structure Parsing where
  names : List String
  /-- The option whose value comes next. -/
  waiting : Option OptionSpec
  /-- Whether only arguments follow. -/
  isBare : Bool
  /-- Whether the words name what help is asked for on. -/
  asksHelp : Bool
  /-- The options given since the last name. -/
  given : List String
  /-- All options with their values, the last one first. -/
  values : List (String × String)
  /-- The arguments, the last one first. -/
  arguments : List String

namespace Parsing

def start : Parsing := ⟨[], none, false, false, [], [], []⟩

def command? (parsing : Parsing) : Option CommandSpec := Console.command? parsing.names

def options (parsing : Parsing) : List OptionSpec := optionsOf parsing.names

def giveValue (parsing : Parsing) (option : OptionSpec) (value : String) : Except Stop Parsing :=
  if option.value.all fun spec => spec.accepts value then
    .ok { parsing with waiting := none, values := (option.word, value) :: parsing.values }
  else .error .misuse

/-- Takes in an option, which is given once only unless it repeats. -/
def useOption (parsing : Parsing) (option : OptionSpec) : Except Stop Parsing :=
  if option.word = "help" then .error (.help parsing.names)
  else if option.word = "version" then .error .version
  else if !option.repeats && option.word ∈ parsing.given then .error .misuse
  else .ok { parsing with given := option.word :: parsing.given }

/-- Reads letters after a minus sign. The first option that takes a value has the rest as its
value. -/
def readLetters : List Char → Parsing → Except Stop Parsing
  | [], parsing => .ok parsing
  | c :: rest, parsing =>
    match parsing.options.find? (·.letter = some c) with
    | none => .error .misuse
    | some option => do
      let parsing ← parsing.useOption option
      if option.value.isNone then readLetters rest { parsing with values :=
        (option.word, "") :: parsing.values }
      else match rest with
        | [] => .ok { parsing with waiting := some option }
        | '=' :: value => parsing.giveValue option (String.ofList value)
        | value => parsing.giveValue option (String.ofList value)

def readOption (text : List Char) (parsing : Parsing) : Except Stop Parsing :=
  let (word, value) := match Text.cutAt? '=' text with
    | some (word, value) => (word, some (String.ofList value))
    | none => (text, none)
  match parsing.options.find? (·.word.toList = word) with
  | none => .error .misuse
  | some option =>
    match option.value, value with
    | none, none => do
      let parsing ← parsing.useOption option
      return { parsing with values := (option.word, "") :: parsing.values }
    | none, some _ => .error .misuse
    | some _, none => do return { ← parsing.useOption option with waiting := some option }
    | some _, some value => do (← parsing.useOption option).giveValue option value

def readArgument (parsing : Parsing) (text : String) : Except Stop Parsing :=
  match parsing.command?.bind (·.arguments[parsing.arguments.length]?) with
  | none => .error .misuse
  | some spec =>
    if spec.value.accepts text then .ok { parsing with arguments := text :: parsing.arguments }
    else .error .misuse

def readTopic (parsing : Parsing) (name : String) : Except Stop Parsing :=
  if mayFollow parsing.names name then .ok { parsing with names := parsing.names ++ [name] }
  else .error .misuse

def readName (parsing : Parsing) (name : String) : Except Stop Parsing :=
  if name = helpName then .ok { parsing with asksHelp := true }
  else if mayFollow parsing.names name then
    .ok { parsing with names := parsing.names ++ [name], given := [] }
  else .error .misuse

def readPlain (parsing : Parsing) (text : String) : Except Stop Parsing :=
  match parsing.waiting with
  | some option => parsing.giveValue option text
  | none => if parsing.command?.isNone then parsing.readName text else parsing.readArgument text

def step (parsing : Parsing) (text : String) : Except Stop Parsing :=
  if parsing.asksHelp then parsing.readTopic text
  else if parsing.isBare then parsing.readArgument text
  else match text.toList with
    | '-' :: rest =>
      if rest.isEmpty then parsing.readPlain text
      else if parsing.waiting.isSome then .error .misuse
      else match rest with
        | '-' :: [] => .ok { parsing with isBare := true }
        | '-' :: word => parsing.readOption word
        | letters => parsing.readLetters letters
    | _ => parsing.readPlain text

/-- The value of an option; that of the last one counts. -/
def value? (parsing : Parsing) (word : String) : Option String := parsing.values.lookup word

def number? (parsing : Parsing) (word : String) : Option Nat :=
  (parsing.value? word).bind fun text => Numeral.readWord? text.toList

def build? (parsing : Parsing) : Option Command :=
  match parsing.names, parsing.arguments with
  | ["definition", "check"], arguments => some (.check arguments.head?)
  | ["definition", "default"], _ => some .stock
  | ["formula", "eval"], [formula] =>
    let fields := parsing.values.reverse.filterMap fun (word, value) =>
      if word = "field" then readField? value else none
    some (.evaluate formula fields (parsing.value? "snapshot"))
  | ["replay"], [recording] => some (.replay {
      recording
      definitions := parsing.value? "definitions"
      workers := parsing.number? "workers"
      passes := parsing.number? "passes"
      seed := parsing.number? "seed"
      tables := parsing.value? "tables-dir"
      keepsTables := (parsing.value? "no-save").isSome })
  | ["table", "inspect"], [table] =>
    some (.inspect table ((parsing.number? "top").getD 10) (parsing.value? "definitions"))
  | ["config"], _ => some .settings
  | _, _ => none

def finish (parsing : Parsing) : Except Stop Invocation :=
  if parsing.waiting.isSome then .error .misuse
  else if parsing.asksHelp then .error (.help parsing.names)
  else match parsing.build? with
    | some command => .ok ⟨parsing.value? "config", command⟩
    | none => .error .misuse

end Parsing

def readArguments (arguments : List String) : Except Stop Invocation :=
  (arguments.foldlM Parsing.step .start).bind Parsing.finish

end Autoland.Console
