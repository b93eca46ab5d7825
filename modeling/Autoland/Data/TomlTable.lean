import Autoland.Data.Value

/-! Tables of TOML files while they grow, and the rules on who may add to which. -/

namespace Autoland

/-- How a table came to be: by its own header, by the header of a table inside it, or by a dotted
key. -/
inductive TomlOrigin where
  | declared
  | implied
  | dotted
  deriving DecidableEq, Repr

/-- A value, a table, or a list of tables that has at least one, the last of which is open. -/
inductive TomlItem where
  | value (data : Data)
  | table (origin : TomlOrigin) (members : List (String × TomlItem))
  | tables (last : List (String × TomlItem)) (earlier : List (List (String × TomlItem)))

abbrev TomlTable := List (String × TomlItem)

namespace TomlTable

def alter? (key : String) (work : Option TomlItem → Option TomlItem) : TomlTable → Option TomlTable
  | [] => (work none).map fun item => [(key, item)]
  | (name, item) :: rest =>
    if name = key then (work (some item)).map fun item => (name, item) :: rest
    else (alter? key work rest).map ((name, item) :: ·)

/-- Works on the table a path leads to, which is told its origin. Tables that are not there are
created with the given origin, and a dotted key does not lead through a declared table. -/
def within? (origin : TomlOrigin) (work : TomlOrigin → TomlTable → Option TomlTable) :
    List String → TomlOrigin → TomlTable → Option TomlTable
  | [], own, members => work own members
  | key :: path, _, members =>
    alter? key (fun
      | none => (within? origin work path origin []).map (.table origin)
      | some (.value _) => none
      | some (.table own inner) =>
        if origin = .dotted ∧ own = .declared then none
        else (within? origin work path own inner).map (.table own)
      | some (.tables last earlier) =>
        (within? origin work path .declared last).map (.tables · earlier)) members

/-- Adds a value under a dotted key. A key of several parts adds only to tables that dotted keys
made, and no key is there before. -/
def insert? (path : List String) (key : String) (data : Data) (members : TomlTable) :
    Option TomlTable :=
  let add := fun (own : TomlOrigin) (inner : TomlTable) =>
    if (own = .dotted) ↔ path.isEmpty then none
    else alter? key (fun found => if found.isSome then none else some (.value data)) inner
  within? .dotted add path .declared members

def declare? (path : List String) (key : String) (members : TomlTable) : Option TomlTable :=
  let declare := fun (_ : TomlOrigin) (inner : TomlTable) =>
    alter? key (fun
      | none => some (.table .declared [])
      | some (.table .implied found) => some (.table .declared found)
      | _ => none) inner
  within? .implied declare path .declared members

def append? (path : List String) (key : String) (members : TomlTable) : Option TomlTable :=
  let append := fun (_ : TomlOrigin) (inner : TomlTable) =>
    alter? key (fun
      | none => some (.tables [] [])
      | some (.tables last earlier) => some (.tables [] (last :: earlier))
      | _ => none) inner
  within? .implied append path .declared members

mutual

def itemData : TomlItem → Data
  | .value data => data
  | .table _ members => .object (memberData members)
  | .tables last earlier => .list ((.object (memberData last) :: listData earlier).reverse)

def memberData : List (String × TomlItem) → List (String × Data)
  | [] => []
  | (key, item) :: members => (key, itemData item) :: memberData members

def listData : List (List (String × TomlItem)) → List Data
  | [] => []
  | members :: tables => .object (memberData members) :: listData tables

end

def toData (members : TomlTable) : Data := .object (memberData members)

end TomlTable

end Autoland
