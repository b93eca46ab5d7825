import Autoland.Data.Spacing
import Autoland.Data.TomlText
import Autoland.Data.Overlay
import Autoland.Number.Binary

/-! JSON5 texts read into data. -/

namespace Autoland.Json5Reader

def isBreak (c : Char) : Bool := c = '\n' || c = '\r' || c = '\u2028' || c = '\u2029'

/-- The White_Space characters but one, and the byte order mark. -/
def isBlank (c : Char) : Bool := c = '\uFEFF' || (Text.isBlank c && c ≠ '\u0085')

def spacing : Spacing := ⟨isBlank, isBreak, false⟩

def escaped? : Char → Option Char
  | '0' => some '\x00'
  | 'b' => some '\x08'
  | 't' => some '\t'
  | 'n' => some '\n'
  | 'v' => some '\x0b'
  | 'f' => some '\x0c'
  | 'r' => some '\r'
  | c => if c.isDigit then none else some c

def escape? : List Char → Option (List Char × List Char)
  | '\r' :: '\n' :: rest => some ([], rest)
  | 'x' :: rest => (TomlText.codePoint? 2 rest).map fun (c, rest) => ([c], rest)
  | 'u' :: rest => (TomlText.codePoint? 4 rest).map fun (c, rest) => ([c], rest)
  | c :: rest => if isBreak c then some ([], rest) else (escaped? c).map fun d => ([d], rest)
  | [] => none

def quoted? (mark : Char) : Nat → List Char → Option (List Char × List Char)
  | 0, _ => none
  | _, [] => none
  | left + 1, c :: rest =>
    if c = mark then some ([], rest)
    else if isBreak c then none
    else do
      let (piece, rest) ← if c = '\\' then escape? rest else some ([c], rest)
      (quoted? mark left rest).map fun (text, rest) => (piece ++ text, rest)

def text? (mark : Char) (text : List Char) : Option (String × List Char) :=
  (quoted? mark (text.length + 1) text).map fun (body, rest) => (String.ofList body, rest)

/-- Whether a name may begin with a character. Beyond ASCII that is so for all but blanks. -/
def isNameStart (c : Char) : Bool :=
  c.isAlpha || c = '$' || c = '_' || (0x80 ≤ c.toNat && !Text.isBlank c && !isBlank c)

def isNamePart (c : Char) : Bool := isNameStart c || c.isDigit

def name? : Nat → List Char → Option (List Char × List Char)
  | 0, _ => none
  | left + 1, '\\' :: 'u' :: rest => do
    let (c, rest) ← TomlText.codePoint? 4 rest
    (name? left rest).map fun (name, rest) => (c :: name, rest)
  | left + 1, c :: rest =>
    if isNamePart c then (name? left rest).map fun (name, rest) => (c :: name, rest)
    else some ([], c :: rest)
  | _, [] => some ([], [])

def key? : List Char → Option (String × List Char)
  | '"' :: rest => text? '"' rest
  | '\'' :: rest => text? '\'' rest
  | text => do
    let (name, rest) ← name? (text.length + 1) text
    if name.isEmpty || text.head?.any Char.isDigit then none else some (String.ofList name, rest)

def hexadecimal? (digits : List Char) : Option Data := do
  let values ← digits.mapM JsonToken.hexValue?
  let value := values.foldl (fun value digit => 16 * value + digit) 0
  if digits.isEmpty || Word.halfLimit ≤ value then none else some (.int value)

/-- A decimal number. A whole one fits 64 bits, and any other is not too large. -/
def decimal? (text : List Char) : Option Data := do
  let (negative, body) := Numeral.splitSign text
  let whole := body.takeWhile Char.isDigit
  if whole.head? = some '0' ∧ whole.length > 1 then none
  else if body.all Char.isDigit then (Numeral.readInteger? text).map .int
  else
    let value := (← Numeral.readUnsigned? negative body).toDouble
    if value.isFinite then some (.real value) else none

def word? (word : List Char) : Option Data :=
  match String.ofList word with
  | "null" => some .null
  | "true" => some (.bool true)
  | "false" => some (.bool false)
  | "Infinity" => some (.real (1.0 / 0.0))
  | "-Infinity" => some (.real (-(1.0 / 0.0)))
  | "NaN" => some (.real (0.0 / 0.0))
  | "-NaN" => some (.real (0.0 / 0.0))
  | _ =>
    match word with
    | '0' :: 'x' :: digits => hexadecimal? digits
    | '0' :: 'X' :: digits => hexadecimal? digits
    | word => decimal? word

def isWordPart (c : Char) : Bool := c.isAlphanum || c = '+' || c = '-' || c = '.'

def member? (value? : List Char → Option (Data × List Char)) (text : List Char) :
    Option ((String × Data) × List Char) := do
  let (key, rest) ← key? text
  let (value, rest) ← value? (← spacing.skip? (← spacing.after? ':' rest))
  return ((key, value), rest)

/-- Reads a value with fewer than `left` lists and objects inside each other. -/
def value? : Nat → List Char → Option (Data × List Char)
  | 0, _ => none
  | left + 1, text =>
    match text with
    | '"' :: rest => (text? '"' rest).map fun (text, rest) => (.text text, rest)
    | '\'' :: rest => (text? '\'' rest).map fun (text, rest) => (.text text, rest)
    | '[' :: rest =>
      (spacing.items? ']' (value? left) (rest.length + 1) rest).map fun (items, rest) =>
        (.list items, rest)
    | '\x7b' :: rest =>
      (spacing.items? '\x7d' (member? (value? left)) (rest.length + 1) rest).map
        fun (members, rest) => (.object members, rest)
    | text => (word? (text.takeWhile isWordPart)).map (·, text.dropWhile isWordPart)

def read? (contents : String) : Option Data :=
  let text := contents.toList
  (spacing.whole? (value? (text.length + 1)) text).map Data.lastOfEach

end Autoland.Json5Reader
