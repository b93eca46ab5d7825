/-! A place in a YAML text, which knows its line and its column. -/

namespace Autoland

structure YamlCursor where
  rest : List Char
  line : Nat
  column : Nat
  /-- How many characters were passed. -/
  passed : Nat
  /-- Whether only blanks were passed on this line. -/
  isIndent : Bool
  deriving DecidableEq, Repr

namespace YamlCursor

def start (text : List Char) : YamlCursor := ⟨text, 0, 0, 0, true⟩

def isGap (c : Char) : Bool := c = ' ' || c = '\t'

def isBreak (c : Char) : Bool := c = '\n' || c = '\r'

def isFlowMark (c : Char) : Bool :=
  c = ',' || c = '[' || c = ']' || c = '\x7b' || c = '\x7d'

def isEnd (text : List Char) : Bool := text.head?.all fun c => isGap c || isBreak c

/-- Passes over one character. A line ends with a line feed, or with a carriage return that no line
feed follows. -/
def next (cursor : YamlCursor) : YamlCursor :=
  match cursor.rest with
  | [] => cursor
  | c :: rest =>
    if c = '\n' ∨ (c = '\r' ∧ rest.head? ≠ some '\n') then
      ⟨rest, cursor.line + 1, 0, cursor.passed + 1, true⟩
    else
      ⟨rest, cursor.line, cursor.column + 1, cursor.passed + 1,
        cursor.isIndent && (isGap c || c = '\r')⟩

def skip : Nat → YamlCursor → YamlCursor
  | 0, cursor => cursor
  | count + 1, cursor => skip count cursor.next

def skipWhile (p : Char → Bool) (cursor : YamlCursor) : YamlCursor :=
  cursor.skip (cursor.rest.takeWhile p).length

def skipBreak (cursor : YamlCursor) : YamlCursor :=
  match cursor.rest with
  | '\r' :: '\n' :: _ => cursor.skip 2
  | _ => cursor.next

def isAtLineEnd (cursor : YamlCursor) : Bool := cursor.rest.head?.all isBreak

def isAt (cursor : YamlCursor) (c : Char) : Bool := cursor.rest.head? = some c

def isAtThree (cursor : YamlCursor) (mark : Char) : Bool :=
  cursor.column = 0 && cursor.rest.take 3 = [mark, mark, mark] && isEnd (cursor.rest.drop 3)

def isAtDocument (cursor : YamlCursor) : Bool := cursor.isAtThree '-' || cursor.isAtThree '.'

def gap (cursor : YamlCursor) : List Char := cursor.rest.takeWhile isGap

def skipGap? (cursor : YamlCursor) : Option YamlCursor :=
  let after := cursor.skip cursor.gap.length
  if !after.isAt '#' then some after
  else if cursor.gap.isEmpty then none
  else some (after.skipWhile (!isBreak ·))

/-- Passes over what stands between two tokens: blanks, line breaks and comments. In a block, a line
that tabs indent has nothing else. -/
def skipTrivia? (indent : Int) (isBlock : Bool) : Nat → YamlCursor → Option YamlCursor
  | 0, cursor => some cursor
  | left + 1, cursor =>
    match cursor.rest with
    | '\t' :: _ =>
      if isBlock && cursor.isIndent && cursor.column < indent then
        match cursor.skipGap? with
        | some after => if after.isAtLineEnd then skipTrivia? indent isBlock left after else none
        | none => none
      else skipTrivia? indent isBlock left cursor.next
    | '#' :: _ => skipTrivia? indent isBlock left (cursor.skipWhile (!isBreak ·))
    | c :: _ => if c = ' ' || isBreak c then skipTrivia? indent isBlock left cursor.next
      else some cursor
    | [] => some cursor

/-- Passes over blanks and line breaks within a text: the blanks before the first break, and how
many breaks there are. Where tabs take part in the indentation, the line has to be empty, or there
are none if `isStrict`. -/
def skipBlanks? (indent : Int) (isStrict : Bool) :
    Nat → Bool → YamlCursor → Option (List Char × Nat × YamlCursor)
  | 0, _, _ => none
  | left + 1, isIndent, cursor =>
    match cursor.rest with
    | [] => some ([], 0, cursor)
    | c :: _ =>
      if isBreak c then
        (skipBlanks? indent isStrict left true cursor.skipBreak).map fun (_, breaks, cursor) =>
          ([], breaks + 1, cursor)
      else if !isGap c then some ([], 0, cursor)
      else if !isIndent then
        (skipBlanks? indent isStrict left false cursor.next).map fun (gap, rest) =>
          (c :: gap, rest)
      else if c = '\t' && cursor.column < indent then
        match if isStrict then none else cursor.skipGap? with
        | some after => if after.isAtLineEnd then skipBlanks? indent isStrict left true after
          else none
        | none => none
      else skipBlanks? indent isStrict left true cursor.next

end YamlCursor

end Autoland
