import Autoland.Data.Value

/-! Data written as JSON. -/

namespace Autoland.JsonWriter

def hexDigit (n : Nat) : Char := "0123456789abcdef".toList.getD n '0'

def escape (c : Char) : List Char :=
  match c with
  | '"' => ['\\', '"']
  | '\\' => ['\\', '\\']
  | '\x08' => ['\\', 'b']
  | '\x0c' => ['\\', 'f']
  | '\n' => ['\\', 'n']
  | '\r' => ['\\', 'r']
  | '\t' => ['\\', 't']
  | c =>
    if c.toNat < 0x20 then
      ['\\', 'u', '0', '0', hexDigit (c.toNat / 16), hexDigit (c.toNat % 16)]
    else [c]

def quote (text : String) : String :=
  String.ofList ('"' :: (text.toList.flatMap escape ++ ['"']))

/-- The layout of double precision: positional up to 16 digits before the point and 4 zeros after
it. A whole number ends in `.0`. -/
def doubleLayout : NumberLayout := ⟨some 16, some 4, ".0"⟩

def singleLayout : NumberLayout := ⟨some 13, some 5, ".0"⟩

/-- A number that is none or infinite is written as `null`. -/
def number (layout : NumberLayout) : FloatShape → String
  | .notANumber => "null"
  | .infinite _ => "null"
  | shape => layout.write shape

def newline (pretty : Bool) (depth : Nat) : String :=
  if pretty then "\n" ++ String.ofList (List.replicate (2 * depth) ' ') else ""

def appendKey (pretty : Bool) (depth : Nat) (out key : String) : String :=
  out ++ newline pretty depth ++ quote key ++ (if pretty then ": " else ":")

mutual

def append (pretty : Bool) (depth : Nat) (out : String) : Data → String
  | .null => out ++ "null"
  | .bool value => out ++ if value then "true" else "false"
  | .int value => out ++ toString value
  | .real value => out ++ number doubleLayout (.ofDouble value)
  | .narrow value => out ++ number singleLayout (.ofSingle value)
  | .text value => out ++ quote value
  | .moment text => out ++ quote text
  | .unreadable => out ++ "null"
  | .list [] => out ++ "[]"
  | .list (item :: items) =>
    let out := append pretty (depth + 1) (out ++ "[" ++ newline pretty (depth + 1)) item
    appendItems pretty (depth + 1) out items ++ newline pretty depth ++ "]"
  | .object [] => out ++ "\x7b\x7d"
  | .object ((key, value) :: members) =>
    let out := append pretty (depth + 1) (appendKey pretty (depth + 1) (out ++ "\x7b") key) value
    appendMembers pretty (depth + 1) out members ++ newline pretty depth ++ "\x7d"

def appendItems (pretty : Bool) (depth : Nat) (out : String) : List Data → String
  | [] => out
  | item :: items =>
    appendItems pretty depth (append pretty depth (out ++ "," ++ newline pretty depth) item) items

def appendMembers (pretty : Bool) (depth : Nat) (out : String) : List (String × Data) → String
  | [] => out
  | (key, value) :: members =>
    let out := append pretty depth (appendKey pretty depth (out ++ ",") key) value
    appendMembers pretty depth out members

end

def compact (data : Data) : String := append false 0 "" data

def pretty (data : Data) : String := append true 0 "" data

end Autoland.JsonWriter
