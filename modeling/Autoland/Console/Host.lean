import Autoland.Table.Timestamp
import Autoland.Text.Path

/-! The system that a command runs on, and one that is kept in memory. -/

namespace Autoland.Console

class Host (m : Type → Type) where
  /-- The text of a file, if there is one. -/
  contents? : String → m (Option String)
  /-- Whether a path leads to a file or a directory. -/
  isThere : String → m Bool
  /-- Writes a file and makes the directories on the way to it, if that is possible. -/
  write : String → String → m Bool
  /-- The environment variables with their values. -/
  environment : m (List (String × String))
  now : m Table.Timestamp
  /-- A seed that differs from run to run. -/
  entropy : m UInt64
  /-- How many workers can work at once. -/
  cores : m Nat

/-- Files, directories and environment variables in memory. The path of a file or a directory is
given by its parts from the working directory on. -/
structure Workspace where
  directory : String
  files : List (List String × String)
  /-- The directories that were made. Those that files are in need not be among them. -/
  made : List (List String)
  environment : List (String × String)

namespace Workspace

def ofFiles (directory : String) (files : List (String × String))
    (environment : List (String × String)) : Workspace :=
  ⟨directory, files.map fun (path, text) => (Path.parts path, text), [], environment⟩

def isFile (workspace : Workspace) (parts : List String) : Bool :=
  workspace.files.any (·.1 = parts)

def isDirectory (workspace : Workspace) (parts : List String) : Bool :=
  parts.isEmpty || parts ∈ workspace.made || workspace.files.any fun (path, _) =>
    parts.isPrefixOf path && parts.length < path.length

def nameLimit : Nat := 255

def pathLimit : Nat := 4095

/-- Goes one part of a path further, which only a directory allows. An empty part or a single point
stays there, and two points lead back unless out of the workspace. -/
def enter? (workspace : Workspace) (reached : List String) (part : String) :
    Option (List String) :=
  if !workspace.isDirectory reached then none
  else match part with
    | "" => some reached
    | "." => some reached
    | ".." => if reached.isEmpty then none else some reached.dropLast
    | name => if name.utf8ByteSize ≤ nameLimit then some (reached ++ [name]) else none

/-- The parts of a path after the working directory. An empty one at the end stands for a slash
there. -/
def partsOf? (workspace : Workspace) (path : String) : Option (List String) :=
  let parts := (Text.splitAt '/' path.toList).map String.ofList
  let home := (Text.splitAt '/' workspace.directory.toList).map String.ofList
  if path.isEmpty || '\x00' ∈ path.toList || pathLimit < path.utf8ByteSize then none
  else if home.isPrefixOf parts then some (parts.drop home.length)
  else if Path.isAbsolute path then none
  else some parts

def resolve? (workspace : Workspace) (path : String) : Option (List String) :=
  (workspace.partsOf? path).bind fun parts => parts.foldlM workspace.enter? []

def contents? (workspace : Workspace) (path : String) : Option String :=
  (workspace.resolve? path).bind fun parts => workspace.files.lookup parts

def isThere (workspace : Workspace) (path : String) : Bool :=
  (workspace.resolve? path).any fun parts =>
    workspace.isFile parts || workspace.isDirectory parts

def makeDirectories (workspace : Workspace) (reached : List String) :
    List String → Option (List String) × Workspace
  | [] => (some reached, workspace)
  | part :: parts =>
    match workspace.enter? reached part with
    | none => (none, workspace)
    | some next =>
      if workspace.isFile next then (none, workspace)
      else if workspace.isDirectory next then makeDirectories workspace next parts
      else makeDirectories { workspace with made := next :: workspace.made } next parts

def store (workspace : Workspace) (parts : List String) (text : String) : Bool × Workspace :=
  if workspace.isDirectory parts then (false, workspace)
  else (true, { workspace with
    files := (parts, text) :: workspace.files.filter fun (other, _) => other ≠ parts })

def write (workspace : Workspace) (path text : String) : Bool × Workspace :=
  match workspace.partsOf? path with
  | none => (false, workspace)
  | some parts =>
    match workspace.makeDirectories [] parts.dropLast with
    | (none, workspace) => (false, workspace)
    | (some reached, workspace) =>
      match parts.getLast?.bind (workspace.enter? reached) with
      | none => (false, workspace)
      | some place => workspace.store place text

end Workspace

instance : Host (StateM Workspace) where
  contents? path := return (← get).contents? path
  isThere path := return (← get).isThere path
  write path text := modifyGet fun workspace => workspace.write path text
  environment := return (← get).environment
  now := return .epoch
  entropy := return 0
  cores := return 1

end Autoland.Console
