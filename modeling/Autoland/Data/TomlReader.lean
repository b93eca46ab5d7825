import Autoland.Data.TomlTable
import Autoland.Data.TomlText
import Autoland.Data.TomlWord

/-! TOML texts read into data. -/

namespace Autoland.TomlReader

open TomlText

def skipGaps (text : List Char) : List Char := text.dropWhile isGap

def skipTrivia (comment : Bool) : List Char → List Char
  | [] => []
  | '\n' :: rest => skipTrivia false rest
  | '\r' :: '\n' :: rest => skipTrivia false rest
  | c :: rest =>
    if comment then if isPlain c then skipTrivia true rest else c :: rest
    else if isGap c then skipTrivia false rest
    else if c = '#' then skipTrivia true rest
    else c :: rest

def endLine? (text : List Char) : Option (List Char) :=
  let rest := match skipGaps text with
    | '#' :: comment => comment.dropWhile isPlain
    | rest => rest
  if rest.isEmpty then some [] else newline? rest

def isKeyPart (c : Char) : Bool := c.isAlphanum || c = '_' || c = '-'

def key? : List Char → Option (String × List Char)
  | '"' :: rest => short? '"' rest
  | '\'' :: rest => short? '\'' rest
  | text =>
    let key := text.takeWhile isKeyPart
    if key.isEmpty then none else some (String.ofList key, text.dropWhile isKeyPart)

def keys? : Nat → List Char → Option ((List String × String) × List Char)
  | 0, _ => none
  | left + 1, text => do
    let (key, rest) ← key? (skipGaps text)
    match skipGaps rest with
    | '.' :: rest =>
      let ((path, last), rest) ← keys? left rest
      return ((key :: path, last), rest)
    | rest => return (([], key), rest)

def keyLimit : Nat := 79

def depthLimit : Nat := 79

def assignment? (value? : List Char → Option (Data × List Char)) (text : List Char) :
    Option (((List String × String) × Data) × List Char) := do
  let (keys, rest) ← keys? keyLimit text
  let (value, rest) ← value? (skipGaps (← TomlWord.after? '=' rest))
  return ((keys, value), rest)

def items? (value? : List Char → Option (Data × List Char)) :
    Nat → List Char → Option (List Data × List Char)
  | 0, _ => none
  | left + 1, text =>
    match skipTrivia false text with
    | ']' :: rest => some ([], rest)
    | text => do
      let (item, rest) ← value? text
      match skipTrivia false rest with
      | ']' :: rest => return ([item], rest)
      | ',' :: rest =>
        let (items, rest) ← items? value? left rest
        return (item :: items, rest)
      | _ => none

def members? (value? : List Char → Option (Data × List Char)) :
    Nat → TomlTable → List Char → Option (TomlTable × List Char)
  | 0, _, _ => none
  | left + 1, members, text => do
    let (((path, key), value), rest) ← assignment? value? text
    let members ← members.insert? path key value
    match skipGaps rest with
    | '\x7d' :: rest => return (members, rest)
    | ',' :: rest => members? value? left members rest
    | _ => none

def value? : Nat → List Char → Option (Data × List Char)
  | _, '"' :: rest => (TomlText.read? '"' rest).map fun (text, rest) => (.text text, rest)
  | _, '\'' :: rest => (TomlText.read? '\'' rest).map fun (text, rest) => (.text text, rest)
  | depth + 1, '[' :: rest =>
    (items? (value? depth) (rest.length + 1) rest).map fun (items, rest) => (.list items, rest)
  | depth + 1, '\x7b' :: rest =>
    match skipGaps rest with
    | '\x7d' :: rest => some (.object [], rest)
    | rest => (members? (value? depth) (rest.length + 1) [] rest).map fun (members, rest) =>
      (members.toData, rest)
  | _, text => TomlWord.read? text

structure Reading where
  root : TomlTable
  path : List String

def closeHeader? : Nat → List Char → Option (List Char)
  | 0, text => some text
  | count + 1, text => (TomlWord.after? ']' text).bind (closeHeader? count)

def statement? (reading : Reading) : List Char → Option (Reading × List Char)
  | '[' :: '[' :: rest => do
    let ((path, key), rest) ← keys? keyLimit rest
    return (⟨← reading.root.append? path key, path ++ [key]⟩, ← closeHeader? 2 rest)
  | '[' :: rest => do
    let ((path, key), rest) ← keys? keyLimit rest
    return (⟨← reading.root.declare? path key, path ++ [key]⟩, ← closeHeader? 1 rest)
  | text => do
    let (((path, key), value), rest) ← assignment? (value? depthLimit) text
    let add := fun (_ : TomlOrigin) (members : TomlTable) => members.insert? path key value
    let root ← TomlTable.within? .implied add reading.path .declared reading.root
    return (⟨root, reading.path⟩, rest)

def lines? : Nat → Reading → List Char → Option Reading
  | _, reading, [] => some reading
  | 0, _, _ => none
  | left + 1, reading, text =>
    match endLine? text with
    | some rest => lines? left reading rest
    | none => do
      let (reading, rest) ← statement? reading (skipGaps text)
      lines? left reading (← endLine? rest)

def read? (contents : String) : Option Data :=
  let text := match contents.toList with
    | '\uFEFF' :: text => text
    | text => text
  (lines? (text.length + 1) ⟨[], []⟩ text).map fun reading => TomlTable.toData reading.root

end Autoland.TomlReader
