import Autoland.Data.Spacing
import Autoland.Data.TomlText
import Autoland.Data.Overlay
import Autoland.Number.Binary

/-!
RON texts read into data. Names before structures do not matter, and a name alone means nothing.
-/

namespace Autoland.RonReader

def isBlank (c : Char) : Bool := c = ' ' || c = '\t' || c = '\n' || c = '\r'

def spacing : Spacing := ⟨isBlank, (· = '\n'), true⟩

def isNameStart (c : Char) : Bool := c.isAlpha || c = '_'

def isNamePart (c : Char) : Bool := isNameStart c || c.isDigit

def isRawPart (c : Char) : Bool := isNamePart c || c = '.' || c = '+' || c = '-'

/-- Reads a name. One with other than letters and digits in it has to be marked. -/
def name? : List Char → Option (List Char × List Char)
  | 'r' :: '#' :: rest =>
    let name := rest.takeWhile isRawPart
    if name.isEmpty then none else some (name, rest.dropWhile isRawPart)
  | text =>
    let name := text.takeWhile isNamePart
    let rest := text.dropWhile isNamePart
    if !text.head?.any isNameStart || rest.head?.any isRawPart then none else some (name, rest)

def escaped? : Char → Option Char
  | '\'' => some '\''
  | '"' => some '"'
  | '\\' => some '\\'
  | 'n' => some '\n'
  | 'r' => some '\r'
  | 't' => some '\t'
  | '0' => some '\x00'
  | _ => none

def codeLimit : Nat := 6

def escape? : List Char → Option (Char × List Char)
  | 'x' :: rest => TomlText.codePoint? 2 rest
  | 'u' :: '\x7b' :: rest => do
    let count := (rest.takeWhile (· ≠ '\x7d')).length
    if count = 0 ∨ codeLimit < count then none
    else
      let (c, rest) ← TomlText.codePoint? count rest
      return (c, rest.drop 1)
  | c :: rest => (escaped? c).map (·, rest)
  | [] => none

def quoted? : Nat → List Char → Option (List Char × List Char)
  | 0, _ => none
  | _, [] => none
  | left + 1, c :: rest =>
    if c = '"' then some ([], rest)
    else do
      let (c, rest) ← if c = '\\' then escape? rest else some (c, rest)
      (quoted? left rest).map fun (text, rest) => (c :: text, rest)

def raw? (hashes : Nat) : List Char → Option (List Char × List Char)
  | [] => none
  | c :: rest =>
    if c = '"' ∧ rest.take hashes = List.replicate hashes '#' then some ([], rest.drop hashes)
    else (raw? hashes rest).map fun (text, rest) => (c :: text, rest)

def character? (text : List Char) : Option (Data × List Char) := do
  let (c, rest) ← match text with
    | '\\' :: rest => escape? rest
    | c :: rest => if c = '\'' then none else some (c, rest)
    | [] => none
  match rest with
  | '\'' :: rest => some (.text c.toString, rest)
  | _ => none

def isWholePart (c : Char) : Bool := (JsonToken.hexValue? c).isSome || c = '_'

def isRealPart (c : Char) : Bool :=
  c.isDigit || c = 'e' || c = 'E' || c = '.' || c = '+' || c = '-' || c = '_'

def base : List Char → Nat × List Char
  | '0' :: 'x' :: digits => (16, digits)
  | '0' :: 'o' :: digits => (8, digits)
  | '0' :: 'b' :: digits => (2, digits)
  | digits => (10, digits)

def magnitude? (text : List Char) : Option (Nat × List Char) := do
  let (base, body) := base text
  let run := body.takeWhile isWholePart
  let digits ← (run.filter (· ≠ '_')).mapM JsonToken.hexValue?
  if run.isEmpty || run.head? = some '_' || digits.any (base ≤ ·) then none
  else some (digits.foldl (fun value digit => base * value + digit) 0, body.dropWhile isWholePart)

/-- Reads a whole number of 64 bits after its sign. Without a sign it may be too large for one; it
is then no whole number any more. -/
def whole? (sign? : Option Char) (text : List Char) : Option (Data × List Char) := do
  let (magnitude, rest) ← magnitude? text
  let value : Int := if sign? = some '-' then -magnitude else magnitude
  if Word.isSigned value then some (.int value, rest)
  else if sign?.isNone ∧ magnitude < Word.limit then some (.real (doubleOfInt magnitude), rest)
  else none

def real? (negative : Bool) (text : List Char) : Option (Data × List Char) :=
  (Numeral.readUnsigned? negative (text.takeWhile isRealPart)).map fun numeral =>
    (.real numeral.toDouble, text.dropWhile isRealPart)

def unbounded? (negative : Bool) (text : List Char) : Option (Data × List Char) :=
  let rest := text.dropWhile isNamePart
  match String.ofList (text.takeWhile isNamePart) with
  | "inf" => some (.real (if negative then -(1.0 / 0.0) else 1.0 / 0.0), rest)
  | "NaN" => some (.real (0.0 / 0.0), rest)
  | _ => none

def number? (text : List Char) : Option (Data × List Char) :=
  let sign? := text.head?.filter fun c => c = '+' || c = '-'
  let (negative, body) := Numeral.splitSign text
  let isWhole :=
    (body.takeWhile isRealPart).length ≤ (body.takeWhile isWholePart).length
  (unbounded? negative body).or
    ((if isWhole then whole? sign? body else none).or (real? negative body))

def field? (value? : List Char → Option (Data × List Char)) (text : List Char) :
    Option ((String × Data) × List Char) := do
  let (name, rest) ← name? text
  let (value, rest) ← value? (← spacing.skip? (← spacing.after? ':' rest))
  return ((String.ofList name, value), rest)

def keyed? (value? : List Char → Option (Data × List Char)) (text : List Char) :
    Option ((String × Data) × List Char) := do
  let (key, rest) ← value? text
  let (value, rest) ← value? (← spacing.skip? (← spacing.after? ':' rest))
  return ((← key.text?, value), rest)

def hasField (text : List Char) : Bool :=
  (((spacing.skip? text).bind name?).bind fun (_, rest) => spacing.after? ':' rest).isSome

def list? (value? : List Char → Option (Data × List Char)) (close : Char) (text : List Char) :
    Option (Data × List Char) :=
  (spacing.items? close value? (text.length + 1) text).map fun (items, rest) => (.list items, rest)

def body? (value? : List Char → Option (Data × List Char)) (text : List Char) :
    Option (Data × List Char) :=
  if hasField text then
    (spacing.items? ')' (field? value?) (text.length + 1) text).map fun (members, rest) =>
      (.object members, rest)
  else list? value? ')' text

def named? (value? : List Char → Option (Data × List Char)) (text : List Char) :
    Option (Data × List Char) := do
  let (name, rest) ← name? text
  match String.ofList name with
  | "true" => return (.bool true, rest)
  | "false" => return (.bool false, rest)
  | "None" => return (.null, rest)
  | "Some" =>
    match ← list? value? ')' (← spacing.after? '(' rest) with
    | (.list [value], rest) => return (value, rest)
    | _ => none
  | _ =>
    match spacing.after? '(' rest with
    | some rest => body? value? rest
    | none => return (.null, rest)

def value? : Nat → List Char → Option (Data × List Char)
  | 0, _ => none
  | left + 1, text =>
    match text with
    | '"' :: rest => (quoted? (rest.length + 1) rest).map fun (text, rest) =>
      (.text (String.ofList text), rest)
    | '\'' :: rest => character? rest
    | '[' :: rest => list? (value? left) ']' rest
    | '\x7b' :: rest =>
      (spacing.items? '\x7d' (keyed? (value? left)) (rest.length + 1) rest).map
        fun (members, rest) => (.object members, rest)
    | '(' :: ')' :: rest => some (.null, rest)
    | '(' :: rest => body? (value? left) rest
    | text =>
      let hashes := (text.drop 1).takeWhile (· = '#')
      match text.head?, (text.drop 1).dropWhile (· = '#') with
      | some 'r', '"' :: rest => (raw? hashes.length rest).map fun (text, rest) =>
        (.text (String.ofList text), rest)
      | _, _ => (number? text).or (named? (value? left) text)

def features : List String := ["unwrap_newtypes", "implicit_some", "unwrap_variant_newtypes"]

def feature? (text : List Char) : Option (String × List Char) := do
  let (name, rest) ← name? text
  if String.ofList name ∈ features then some (String.ofList name, rest) else none

def skipFeatures? : Nat → List Char → Option (List Char)
  | 0, text => some text
  | left + 1, text => do
    match ← spacing.skip? text with
    | '#' :: rest =>
      let rest ← ["!", "[", "enable", "("].foldlM (fun rest piece =>
        (spacing.skip? rest).bind (Text.strip? piece.toList)) rest
      let (names, rest) ← spacing.items? ')' feature? (rest.length + 1) rest
      if names.isEmpty then none else skipFeatures? left (← spacing.after? ']' rest)
    | rest => some rest

def read? (contents : String) : Option Data := do
  let text := contents.toList
  let body ← skipFeatures? text.length text
  (spacing.whole? (value? (text.length + 1)) body).map Data.lastOfEach

end Autoland.RonReader
