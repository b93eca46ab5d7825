import Autoland.Console.Grammar

/-! Help on commands. -/

namespace Autoland.Console

open Text

def version : String := "lander 1.0.0\n"

def ValueSpec.write (value : ValueSpec) : String := "<" ++ value.name ++ ">"

def OptionSpec.write (option : OptionSpec) : String :=
  "--" ++ option.word ++ ((option.value.map fun value => " " ++ value.write).getD "")

def ArgumentSpec.write (argument : ArgumentSpec) : String :=
  if argument.required then argument.value.write else "[" ++ argument.value.name ++ "]"

/-- A heading with rows under it; nothing without rows. A row has a lead, a term and what is told
about it, and the terms fill a column. -/
def helpTable (heading : String) (rows : List (String × String × String)) : Option String :=
  let width := rows.foldl (fun width (_, term, _) => max width term.length) 0
  if rows.isEmpty then none
  else some (heading ++ ":\n" ++ String.join (rows.map fun (lead, term, about) =>
    "  " ++ lead ++ padEnd width term ++ "  " ++ about ++ "\n"))

def OptionSpec.lead (option : OptionSpec) : String :=
  match option.letter with
  | some letter => "-" ++ letter.toString ++ ", "
  | none => "    "

def OptionSpec.rank (option : OptionSpec) : String :=
  match option.letter with
  | some letter => letter.toString
  | none => option.word

def sharedPosition : Nat := 5

def standsBefore (left right : OptionSpec × Nat) : Bool :=
  left.2 < right.2 || (left.2 == right.2 && left.1.rank ≤ right.1.rank)

/-- The options in the order of help: those of the command, and the shared ones among them. -/
def listedOptions (names : List String) : List OptionSpec :=
  if isHelp names then []
  else
    let own := ((command? names).map (·.options)).getD []
    ((own.zipIdx ++ sharedOptions.zipIdx sharedPosition).mergeSort standsBefore).map (·.1) ++
      [helpOption] ++ if names.isEmpty then [versionOption] else []

def argumentRows (names : List String) : List (String × String) :=
  if isHelp names then [("[COMMAND]...", "Print help for the subcommand(s)")]
  else (((command? names).map (·.arguments)).getD []).map fun argument =>
    (argument.write, argument.about)

def usage (names : List String) : String :=
  let options := if isHelp names then [] else ["[OPTIONS]"]
  let rest := if isGroup names then ["<COMMAND>"] else (argumentRows names).map (·.1)
  "Usage: " ++ " ".intercalate ("lander" :: (names ++ options ++ rest)) ++ "\n"

def nameRows (names : List String) : List (String × String × String) :=
  if isGroup names then
    (namesAfter names ++ [helpName]).map fun name => ("", name, aboutOf (names ++ [name]))
  else []

def help (names : List String) : String :=
  let sections := [
    helpTable "Commands" (nameRows names),
    helpTable "Arguments" ((argumentRows names).map fun (term, about) => ("", term, about)),
    helpTable "Options" ((listedOptions names).map fun option =>
      (option.lead, option.write, option.about))]
  "\n".intercalate ((aboutOf names ++ "\n") :: usage names :: sections.filterMap id)

end Autoland.Console
