import Autoland.Data.Overlay
import Autoland.Data.YamlToken
import Autoland.Data.YamlWord

/-!
YAML texts read into data. A node may have no meaning, such as a word that is not of the type that
its tag names: as an item it is null, and as a key it leaves its place to the next node.
-/

namespace Autoland.YamlReader

abbrev Node := Option Data

/-- The tokens that are left, what the handle of tags stands for, and the anchors so far: the number
of each name, and the node of each number. -/
structure State where
  tokens : List YamlToken
  handles : List (String × String)
  numbers : List (String × Nat)
  nodes : List (Nat × Node)

abbrev Reader := StateT State Option

inductive Around where
  | brackets
  | list
  | mapping
  deriving DecidableEq, Repr

def next? : Reader (Option YamlToken) := return (← get).tokens.head?

def skip : Reader Unit := modify fun state => { state with tokens := state.tokens.drop 1 }

def accept (token : YamlToken) : Reader Bool := do
  if (← next?) = some token then
    skip
    return true
  else return false

def isBefore (tokens : List YamlToken) : Reader Bool := return (← next?).any (· ∈ tokens)

def ownTags : String := "tag:yaml.org,2002:"

def tagStart? (handles : List (String × String)) (handle : String) : Option String :=
  match handles.lookup handle with
  | some start => some start
  | none =>
    if handle = "!!" then some ownTags
    else if handle.length ≥ 2 then none
    else some handle

def tag? : Reader (Option (String × String)) := do
  match ← next? with
  | some (.tag handle suffix) =>
    let start ← (tagStart? (← get).handles handle : Option String)
    skip
    return some (start, suffix)
  | _ => return none

def anchor? : Reader (Option Nat) := do
  match ← next? with
  | some (.anchor name) =>
    skip
    let number := (← get).numbers.length
    modify fun state => { state with numbers := (name, number) :: state.numbers }
    return some number
  | _ => return none

def properties : Reader (Option Nat × Option (String × String)) := do
  match ← anchor? with
  | some number => return (some number, ← tag?)
  | none =>
    match ← tag? with
    | some tag => return (← anchor?, some tag)
    | none => return (none, none)

/-- The node of an anchor, which has no meaning within the node itself. -/
def ofAlias (name : String) : Reader Node := do
  let state ← get
  let number ← (state.numbers.lookup name : Option Nat)
  return (state.nodes.lookup number).join

def remember (number : Option Nat) (node : Node) : Reader Unit :=
  match number with
  | none => return
  | some number => modify fun state => { state with nodes := (number, node) :: state.nodes }

def ofText (isPlain : Bool) (tag : Option (String × String)) (text : String) : Node :=
  match tag with
  | none => if isPlain then YamlWord.value text else some (.text text)
  | some (start, type) =>
    if isPlain && start = ownTags then YamlWord.ofType? type text else some (.text text)

def ofItems (items : List Node) : Node := some (.list (items.map (·.getD .null)))

def keyText? : Data → Option String
  | .text text => some text
  | .int value => some (toString value)
  | _ => none

def pairs (key : Node) : List Node → List (Data × Data)
  | [] => []
  | node :: nodes =>
    match key with
    | none => pairs node nodes
    | some key => (key, node.getD .null) :: pairs none nodes

def ofNodes? (nodes : List Node) : Option Data := do
  let pairs := pairs none nodes
  let texts := (pairs.map (·.1)).filterMap Data.text?
  let numbers := (pairs.map (·.1)).filterMap (Data.int? (-Word.signedLimit) Word.signedLimit)
  let members ← pairs.mapM fun (key, value) => (keyText? key).map (·, value)
  if texts.Nodup ∧ numbers.Nodup then
    return .object (members.foldl (fun members (key, value) => Data.put key value members) [])
  else none

def blockEnds : List YamlToken := [.key, .value, .closeBlock]

def flowEnds (close : YamlToken) : List YamlToken := [.value, .comma, close]

mutual

def node? : Nat → Around → Reader Node
  | 0, _ => failure
  | left + 1, around => do
    match ← next? with
    | some (.alias name) =>
      skip
      ofAlias name
    | _ =>
      let (number, tag) ← properties
      let node ← content? left around (number.isSome || tag.isSome) tag
      remember number node
      return node

def content? : Nat → Around → Bool → Option (String × String) → Reader Node
  | 0, _, _, _ => failure
  | left + 1, around, mayBeEmpty, tag => do
    let empty : Reader Node := if mayBeEmpty then return ofText true tag "" else failure
    match ← next?, around with
    | some (.text isPlain text), _ =>
      skip
      return ofText isPlain tag text
    | some .openFlowList, _ =>
      skip
      return ofItems (← flowItems? left)
    | some .openFlowMapping, _ =>
      skip
      return some (← (ofNodes? (← flowMembers? left) : Option Data))
    | some .entry, .mapping => return ofItems (← looseItems? left)
    | _, .brackets => empty
    | some .openList, _ =>
      skip
      return ofItems (← blockItems? left)
    | some .openMapping, _ =>
      skip
      return some (← (ofNodes? (← blockMembers? left) : Option Data))
    | _, _ => empty

def nodeOrNull? : Nat → Around → List YamlToken → Reader Node
  | 0, _, _ => failure
  | left + 1, around, ends => do
    if ← isBefore ends then return some .null else node? left around

def pair? : Nat → Around → List YamlToken → Reader (List Node)
  | 0, _, _ => failure
  | left + 1, around, ends => do
    let key ← if ← accept .key then nodeOrNull? left around ends else pure (some .null)
    let value ← if ← accept .value then nodeOrNull? left around ends else pure (some .null)
    return [key, value]

def blockItems? : Nat → Reader (List Node)
  | 0 => failure
  | left + 1 => do
    if ← accept .closeBlock then return []
    else if ← accept .entry then
      let item ← nodeOrNull? left .list [.entry, .closeBlock]
      return item :: (← blockItems? left)
    else failure

/-- Reads the items of a list that is indented no further than the key before it. -/
def looseItems? : Nat → Reader (List Node)
  | 0 => failure
  | left + 1 => do
    if ← accept .entry then
      let item ← nodeOrNull? left .list (.entry :: blockEnds)
      return item :: (← looseItems? left)
    else return []

def blockMembers? : Nat → Reader (List Node)
  | 0 => failure
  | left + 1 => do
    if ← accept .closeBlock then return []
    else if ← isBefore [.key, .value] then
      let pair ← pair? left .mapping blockEnds
      return pair ++ (← blockMembers? left)
    else failure

/-- Reads the items of a list in brackets up to the last of them. A key and its value make a mapping
of their own. -/
def flowItems? : Nat → Reader (List Node)
  | 0 => failure
  | left + 1 => do
    if ← accept .closeFlowList then return []
    else
      let item ← if ← isBefore [.key, .value] then do
          let pair ← pair? left .brackets (flowEnds .closeFlowList)
          pure (some (← (ofNodes? pair : Option Data)))
        else node? left .brackets
      if ← accept .comma then return item :: (← flowItems? left)
      else if ← accept .closeFlowList then return [item]
      else failure

/-- Reads the keys and values of a mapping in brackets up to the last of them. A node without a
colon is a key without a value. -/
def flowMembers? : Nat → Reader (List Node)
  | 0 => failure
  | left + 1 => do
    if ← accept .closeFlowMapping then return []
    else
      let pair ← if ← isBefore [.key, .value] then
          pair? left .brackets (flowEnds .closeFlowMapping)
        else do
          let key ← node? left .brackets
          pure [key, some .null]
      if ← accept .comma then return pair ++ (← flowMembers? left)
      else if ← accept .closeFlowMapping then return pair
      else failure

end

/-- Passes over the lines about a document. Of the handles in them the last one counts, if nothing
follows it; a version is named once. -/
def skipDirectives? (isVersioned : Bool) (handles : List (String × String)) :
    List YamlToken → Option (List (String × String) × List YamlToken)
  | .version :: rest => if isVersioned then none else skipDirectives? true [] rest
  | .handle name meaning :: rest => skipDirectives? isVersioned [(name, meaning)] rest
  | rest => some (handles, rest)

def skipMark? (hasDirectives : Bool) : List YamlToken → Option (List YamlToken)
  | .documentStart :: rest => some rest
  | rest => if hasDirectives then none else some rest

def document? (tokens : List YamlToken) : Option Data := do
  match tokens.dropWhile (· = .documentEnd) with
  | [] => return .object []
  | tokens =>
    let (handles, body) ← skipDirectives? false [] tokens
    let body ← skipMark? (body.length < tokens.length) body
    let (node, state) ← (node? (4 * body.length + 4) .list).run ⟨body, handles, [], []⟩
    if state.tokens.all (· = .documentEnd) then node else none

def read? (contents : String) : Option Data :=
  ((YamlToken.lex? contents.toList).bind document?).filter Data.isSound

end Autoland.YamlReader
