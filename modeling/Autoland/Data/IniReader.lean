import Autoland.Data.JsonToken
import Autoland.Data.Overlay

/-!
INI texts read into data: sections in brackets, and in them keys with values that are all texts.
-/

namespace Autoland.IniReader

def escaped (c : Char) : Char :=
  match c with
  | '0' => '\x00'
  | 'a' => '\x07'
  | 'b' => '\x08'
  | 't' => '\t'
  | 'r' => '\r'
  | 'n' => '\n'
  | c => c

def codePoint? (digits : List Char) : Option Char := do
  let digits ← digits.mapM JsonToken.hexValue?
  let code := digits.foldl (fun code digit => 16 * code + digit) 0
  if digits.length = 4 ∧ code.isValidChar then some (Char.ofNat code) else none

/-- Reads what a backslash begins: nothing at the end of a line, where the first character of the
next line is passed over too. -/
def escape? : List Char → Option (List Char × List Char)
  | '\n' :: rest => some ([], rest.drop 1)
  | 'x' :: rest => (codePoint? (rest.take 4)).map fun c => ([c], rest.drop 4)
  | c :: rest => some ([escaped c], rest)
  | [] => none

/-- Reads up to a character where it has to end; the end of the text is such a place only if it
`mayEnd` there. `left` bounds the number of steps. -/
def until? (stops : Char → Bool) (mayEnd : Bool) : Nat → List Char → Option (List Char × List Char)
  | _, [] => if mayEnd then some ([], []) else none
  | 0, _ => none
  | left + 1, c :: rest =>
    if stops c then some ([], c :: rest)
    else do
      let (piece, rest) ← if c = '\\' then escape? rest else some ([c], rest)
      (until? stops mayEnd left rest).map fun (text, rest) => (piece ++ text, rest)

def isBreak (c : Char) : Bool := c = '\n' || c = '\r'

def line? (text : List Char) : Option (List Char × List Char) :=
  until? isBreak true (text.length + 1) text

def quoted? (mark : Char) (text : List Char) : Option (List Char × List Char) := do
  let (quoted, rest) ← until? (· = mark) false (text.length + 1) text
  (line? (rest.drop 1)).map fun (more, rest) => (quoted ++ more, rest)

def value? (text : List Char) : Option (List Char × List Char) :=
  match text.dropWhile fun c => Text.isBlank c && !isBreak c with
  | '"' :: rest => quoted? '"' rest
  | '\'' :: rest => quoted? '\'' rest
  | rest => line? rest

structure Reading where
  root : List (String × Data)
  opened? : Option String

def Reading.openSection (reading : Reading) (name : String) : Reading :=
  ⟨Data.put name (.object []) reading.root, some name⟩

def Reading.put (reading : Reading) (key : String) (value : Data) : Reading :=
  match reading.opened? with
  | none => { reading with root := Data.put key value reading.root }
  | some name =>
    let members := ((reading.root.lookup name).getD .null).members
    { reading with root := Data.put name (.object (Data.put key value members)) reading.root }

def trimmed (text : List Char) : String := String.ofList (Text.trim text)

def statement? (reading : Reading) : List Char → Option (Reading × List Char)
  | '[' :: text => do
    let (name, rest) ← until? (· = ']') false (text.length + 1) text
    return (reading.openSection (trimmed name), rest.drop 1)
  | text => do
    let (key, rest) ← until? (fun c => c = '=' || c = ':') false (text.length + 1) text
    let (value, rest) ← value? (rest.drop 1)
    if (trimmed key).isEmpty then none
    else some (reading.put (trimmed key) (.text (trimmed value)), rest)

def skipBlanks (isStart : Bool) : List Char → Bool × List Char
  | [] => (isStart, [])
  | c :: rest => if Text.isBlank c then skipBlanks (c = '\n') rest else (isStart, c :: rest)

def statements? : Nat → Bool → Reading → List Char → Option Reading
  | 0, _, _, _ => none
  | left + 1, isStart, reading, text =>
    match skipBlanks isStart text with
    | (_, []) => some reading
    | (isStart, c :: rest) =>
      if c = ';' ∨ c = '#' then
        if isStart then
          statements? left true reading ((rest.dropWhile (· ≠ '\n')).drop 1)
        else none
      else do
        let (reading, rest) ← statement? reading (c :: rest)
        statements? left false reading rest

def read? (contents : String) : Option Data :=
  let text := contents.toList
  (statements? (text.length + 1) true ⟨[], none⟩ text).map fun reading => .object reading.root

end Autoland.IniReader
