import Autoland.Data.JsonToken

/-! JSON texts read into data. -/

namespace Autoland.JsonReader

/-- A list or an object that has not ended yet. Its last item comes first; an object also holds the
key of the value to come. Keys may be unreadable. -/
inductive Frame where
  | list (items : List Data)
  | object (members : List (Option String × Data)) (key : Option String)

inductive Stage where
  | value
  | firstItem
  | key
  | firstKey
  | colon
  | next
  | finished (value : Data)

structure Reading where
  stack : List Frame
  stage : Stage

def place (value : Data) : List Frame → Reading
  | [] => ⟨[], .finished value⟩
  | .list items :: outer => ⟨.list (value :: items) :: outer, .next⟩
  | .object members key :: outer => ⟨.object ((key, value) :: members) key :: outer, .next⟩

def closeList? : List Frame → Option Reading
  | .list items :: outer => some (place (.list items.reverse) outer)
  | _ => none

def objectOf (members : List (Option String × Data)) : Data :=
  match members.reverse.mapM fun (key, value) => key.map (·, value) with
  | some members => .object members
  | none => .unreadable

def closeObject? : List Frame → Option Reading
  | .object members _ :: outer => some (place (objectOf members) outer)
  | _ => none

/-- Reads a token where a value may begin, with at most `limit` containers around it. -/
def beginValue? (limit : Nat) (stack : List Frame) : JsonToken → Option Reading
  | .leaf value => some (place value stack)
  | .quoted text => some (place ((text.map .text).getD .unreadable) stack)
  | .openList => if stack.length < limit then some ⟨.list [] :: stack, .firstItem⟩ else none
  | .openObject => if stack.length < limit then some ⟨.object [] none :: stack, .firstKey⟩ else none
  | _ => none

def beginMember? : List Frame → JsonToken → Option Reading
  | .object members _ :: outer, .quoted key => some ⟨.object members key :: outer, .colon⟩
  | _, _ => none

def step? (limit : Nat) (reading : Reading) (token : JsonToken) : Option Reading :=
  match reading.stage, token with
  | .value, token => beginValue? limit reading.stack token
  | .firstItem, .closeList => closeList? reading.stack
  | .firstItem, token => beginValue? limit reading.stack token
  | .firstKey, .closeObject => closeObject? reading.stack
  | .firstKey, token => beginMember? reading.stack token
  | .key, token => beginMember? reading.stack token
  | .colon, .colon => some { reading with stage := .value }
  | .next, .closeList => closeList? reading.stack
  | .next, .closeObject => closeObject? reading.stack
  | .next, .comma =>
    match reading.stack with
    | .list _ :: _ => some { reading with stage := .value }
    | .object _ _ :: _ => some { reading with stage := .key }
    | [] => none
  | _, _ => none

def read? (limit : Nat) (text : String) : Option Data := do
  let tokens ← JsonToken.lex? text.toList
  match (← tokens.foldlM (step? limit) ⟨[], .value⟩).stage with
  | .finished value => some value
  | _ => none

def readUnlimited? (text : String) : Option Data := read? text.length text

/-- Reads a text in which every value counts: the nesting has its limit, and nothing is without its
value. -/
def readSound? (text : String) : Option Data := (read? 127 text).filter Data.isSound

end Autoland.JsonReader
