import Autoland.Text.Blank

/-! Paths of files, whose parts stand between slashes. -/

namespace Autoland.Path

/-- The parts of a path. Empty parts do not count, nor does a single point after another part. -/
def parts (path : String) : List String :=
  let pieces := (Text.splitAt '/' path.toList).map String.ofList
  match pieces with
  | "." :: rest => "." :: rest.filter fun part => part ≠ "" ∧ part ≠ "."
  | pieces => pieces.filter fun part => part ≠ "" ∧ part ≠ "."

def isAbsolute (path : String) : Bool := path.toList.head? = some '/'

def fileName? (path : String) : Option String :=
  match (parts path).getLast? with
  | some "." => none
  | some ".." => none
  | name => name

def extension? (path : String) : Option String :=
  (fileName? path).bind fun name =>
    let reversed := name.toList.reverse
    match reversed.dropWhile (· ≠ '.') with
    | [] => none
    | [_] => none
    | _ => some (String.ofList (reversed.takeWhile (· ≠ '.')).reverse)

def dropMarks : List Char → List Char
  | '/' :: rest => dropMarks rest
  | '.' :: '/' :: rest => dropMarks rest
  | rest => rest

def withExtension? (path extension : String) : Option String :=
  (fileName? path).map fun _ =>
    String.ofList (dropMarks path.toList.reverse).reverse ++ "." ++ extension

def parent? (path : String) : Option String :=
  let directory := ((path.toList.reverse.dropWhile (· ≠ '/')).drop 1).reverse
  if directory.isEmpty then none else some (String.ofList directory)

def join (base path : String) : String :=
  if isAbsolute path || base.isEmpty then path
  else if base.toList.getLast? = some '/' then base ++ path
  else base ++ "/" ++ path

end Autoland.Path
