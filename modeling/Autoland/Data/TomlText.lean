import Autoland.Data.JsonToken

/-! Texts in quotes as TOML files write them. -/

namespace Autoland.TomlText

def isPlain (c : Char) : Bool := c = '\t' || (0x20 ≤ c.toNat && c.toNat ≠ 0x7F)

def isGap (c : Char) : Bool := c = ' ' || c = '\t'

def newline? : List Char → Option (List Char)
  | '\n' :: rest => some rest
  | '\r' :: '\n' :: rest => some rest
  | _ => none

def codePoint? (count : Nat) (text : List Char) : Option (Char × List Char) := do
  let digits ← (text.take count).mapM JsonToken.hexValue?
  let code := digits.foldl (fun code digit => 16 * code + digit) 0
  if digits.length = count ∧ code.isValidChar then some (Char.ofNat code, text.drop count) else none

def escape? : List Char → Option (Char × List Char)
  | 'u' :: rest => codePoint? 4 rest
  | 'U' :: rest => codePoint? 8 rest
  | '/' :: _ => none
  | c :: rest => (JsonToken.escaped? c).map (·, rest)
  | [] => none

def skipLines : List Char → List Char
  | '\n' :: rest => skipLines rest
  | '\r' :: '\n' :: rest => skipLines rest
  | c :: rest => if isGap c then skipLines rest else c :: rest
  | [] => []

/-- What follows a backslash at the end of a line: the next line that is not blank. -/
def continue? (text : List Char) : Option (List Char) :=
  (newline? (text.dropWhile isGap)).map skipLines

/-- Reads up to the closing quotes. Escapes belong to texts in double quotes, and line breaks to
long texts, in which one or two quotes may stand anywhere. `left` bounds the number of steps. -/
def body? (mark : Char) (long : Bool) : Nat → List Char → Option (List Char × List Char)
  | 0, _ => none
  | _, [] => none
  | left + 1, c :: rest =>
    if c = mark then
      let marks := (c :: rest).takeWhile (· = mark)
      let after := (c :: rest).dropWhile (· = mark)
      if !long then some ([], rest)
      else if marks.length < 3 then (body? mark long left after).map fun (text, rest) =>
        (marks ++ text, rest)
      else if marks.length ≤ 5 then some (marks.drop 3, after)
      else none
    else if c = '\\' && mark = '"' then
      match if long then continue? rest else none with
      | some rest => body? mark long left rest
      | none => do
        let (c, rest) ← escape? rest
        (body? mark long left rest).map fun (text, rest) => (c :: text, rest)
    else if isPlain c then (body? mark long left rest).map fun (text, rest) => (c :: text, rest)
    else if long then do
      let rest ← newline? (c :: rest)
      (body? mark long left rest).map fun (text, rest) => ('\n' :: text, rest)
    else none

def short? (mark : Char) (text : List Char) : Option (String × List Char) :=
  (body? mark false (text.length + 1) text).map fun (body, rest) => (String.ofList body, rest)

/-- Reads a text in three quotes on either side. A line break right after the first ones does not
count. -/
def long? (mark : Char) (text : List Char) : Option (String × List Char) :=
  let text := (newline? text).getD text
  (body? mark true (text.length + 1) text).map fun (body, rest) => (String.ofList body, rest)

def read? (mark : Char) : List Char → Option (String × List Char)
  | c :: d :: rest => if c = mark ∧ d = mark then long? mark rest else short? mark (c :: d :: rest)
  | rest => short? mark rest

end Autoland.TomlText
