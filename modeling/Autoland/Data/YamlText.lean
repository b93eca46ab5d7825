import Autoland.Data.TomlText
import Autoland.Data.YamlCursor

/-! Texts as YAML files write them: in quotes, as plain words over several lines, or as a block. -/

namespace Autoland.YamlText

open YamlCursor

/-- What stands for blanks and line breaks within a text: the blanks, a single blank for one break,
and one break less for several. -/
def fold (gap : List Char) : Nat → List Char
  | 0 => gap
  | 1 => [' ']
  | breaks => List.replicate (breaks - 1) '\n'

def escaped? : Char → Option Char
  | '0' => some '\x00'
  | 'a' => some '\x07'
  | 'b' => some '\x08'
  | 't' => some '\t'
  | '\t' => some '\t'
  | 'n' => some '\n'
  | 'v' => some '\x0b'
  | 'f' => some '\x0c'
  | 'r' => some '\r'
  | 'e' => some '\x1b'
  | ' ' => some ' '
  | '"' => some '"'
  | '/' => some '/'
  | '\\' => some '\\'
  | 'N' => some '\u0085'
  | '_' => some '\u00a0'
  | 'L' => some '\u2028'
  | 'P' => some '\u2029'
  | _ => none

def digitsAfter : Char → Nat
  | 'x' => 2
  | 'u' => 4
  | 'U' => 8
  | _ => 0

def escape? (cursor : YamlCursor) : Option (Char × YamlCursor) :=
  match cursor.rest with
  | _ :: c :: digits =>
    if digitsAfter c = 0 then (escaped? c).map (·, cursor.skip 2)
    else (TomlText.codePoint? (digitsAfter c) digits).map fun (d, _) =>
      (d, cursor.skip (2 + digitsAfter c))
  | _ => none

/-- Reads up to the closing quote. No line begins before `indent`, and no document starts or ends in
between. A single quote is written twice, and double quotes know escapes. -/
def quoted? (mark : Char) (indent : Int) : Nat → YamlCursor → Option (List Char × YamlCursor)
  | 0, _ => none
  | left + 1, cursor =>
    let more? := fun (piece : List Char) (cursor : YamlCursor) =>
      (quoted? mark indent left cursor).map fun (text, cursor) => (piece ++ text, cursor)
    if cursor.isAtDocument || cursor.column < indent then none
    else match cursor.rest with
      | [] => none
      | c :: rest =>
        if c = mark then
          if mark = '\'' ∧ rest.head? = some '\'' then more? ['\''] (cursor.skip 2)
          else some ([], cursor.next)
        else if c = '\\' ∧ mark = '"' then
          if rest.head?.any isBreak then do
            let (_, breaks, cursor) ←
              skipBlanks? indent true (rest.length + 1) true cursor.next.skipBreak
            more? (List.replicate breaks '\n') cursor
          else do
            let (d, cursor) ← escape? cursor
            more? [d] cursor
        else if isGap c || isBreak c then do
          let (gap, breaks, cursor) ← skipBlanks? indent true (rest.length + 2) false cursor
          more? (fold gap breaks) cursor
        else more? [c] cursor.next

def isPlain (inFlow : Bool) : List Char → Bool
  | [] => false
  | ':' :: rest => !(isEnd rest || (inFlow && rest.head?.any isFlowMark))
  | c :: _ => !(inFlow && isFlowMark c)

def plainLength (inFlow : Bool) : List Char → Nat
  | [] => 0
  | c :: rest =>
    if isGap c || isBreak c || !isPlain inFlow (c :: rest) then 0 else plainLength inFlow rest + 1

/-- Reads a plain text. Outside of brackets it goes on only on lines that begin at `indent` or
after it. -/
def plain? (inFlow : Bool) (indent : Int) : Nat → YamlCursor → Option (List Char × YamlCursor)
  | 0, _ => none
  | left + 1, cursor =>
    if cursor.isAtDocument || cursor.isAt '#' then some ([], cursor)
    else if inFlow && cursor.isAt '-' && (cursor.rest.drop 1).head?.any isFlowMark then none
    else
      let length := plainLength inFlow cursor.rest
      let word := cursor.rest.take length
      let after := cursor.skip length
      if after.rest.isEmpty || !isEnd after.rest then some (word, after)
      else do
        let (gap, breaks, next) ←
          skipBlanks? indent false (after.rest.length + 1) after.isIndent after
        if !inFlow && next.column < indent then some (word, next)
        else
          let (text, cursor) ← plain? inFlow indent left next
          some (if text.isEmpty then word else word ++ fold gap breaks ++ text, cursor)

inductive Chomping where
  | strip
  | clip
  | keep
  deriving DecidableEq, Repr

def chomping? : Char → Option Chomping
  | '-' => some .strip
  | '+' => some .keep
  | _ => none

def header? (cursor : YamlCursor) : Option (Chomping × Nat × YamlCursor) :=
  let indent := fun (cursor : YamlCursor) =>
    match cursor.rest with
    | c :: _ =>
      if c = '0' then none
      else if c.isDigit then some (Numeral.digitValue c, cursor.next)
      else some (0, cursor)
    | [] => some (0, cursor)
  match cursor.rest.head?.bind chomping? with
  | some chomping => do
    let (indent, cursor) ← indent cursor.next
    return (chomping, indent, cursor)
  | none => do
    let (indent, after) ← indent cursor
    match if indent = 0 then none else after.rest.head?.bind chomping? with
    | some chomping => return (chomping, indent, after.next)
    | none => return (.clip, indent, after)

def skipIndent (indent : Nat) : Nat → YamlCursor → Nat × YamlCursor
  | 0, cursor => (0, cursor)
  | left + 1, cursor =>
    let blanks := (cursor.rest.takeWhile (· = ' ')).length
    let after := cursor.skip (min blanks (indent - cursor.column))
    if after.rest.head?.any isBreak then
      let (breaks, cursor) := skipIndent indent left after.skipBreak
      (breaks + 1, cursor)
    else (0, after)

def findIndent : Nat → YamlCursor → Nat × Nat × YamlCursor
  | 0, cursor => (0, 0, cursor)
  | left + 1, cursor =>
    let after := cursor.skipWhile (· = ' ')
    if after.rest.head?.any isBreak then
      let (indent, breaks, cursor) := findIndent left after.skipBreak
      (max after.column indent, breaks + 1, cursor)
    else (after.column, 0, after)

/-- The lines of a block so far: its text, whether the last line ended with a break, how many empty
lines follow it, and whether it began with a blank. -/
structure Block where
  text : List Char
  isBroken : Bool
  breaks : Nat
  isBlank : Bool

/-- What stands between a line and the next one, which begins with a blank or not. Only lines that
begin without one are folded. -/
def Block.between (block : Block) (isLiteral isBlank : Bool) : List Char :=
  if !isLiteral && block.isBroken && !block.isBlank && !isBlank then fold [] (block.breaks + 1)
  else (if block.isBroken then ['\n'] else []) ++ List.replicate block.breaks '\n'

def lines (isLiteral : Bool) (indent : Nat) : Nat → Block → YamlCursor → Block × YamlCursor
  | 0, block, cursor => (block, cursor)
  | left + 1, block, cursor =>
    if cursor.column ≠ indent ∨ cursor.rest.isEmpty ∨ (indent = 0 ∧ cursor.isAtThree '.') then
      (block, cursor)
    else
      let isBlank := cursor.rest.head?.any isGap
      let line := cursor.rest.takeWhile (!isBreak ·)
      let text := block.text ++ block.between isLiteral isBlank ++ line
      let after := cursor.skip line.length
      if after.rest.isEmpty then (⟨text, false, 0, isBlank⟩, after)
      else
        let (breaks, next) := skipIndent indent (after.rest.length + 1) after.skipBreak
        lines isLiteral indent left ⟨text, true, breaks, isBlank⟩ next

def emptyText (chomping : Chomping) (isBroken : Bool) (breaks : Nat) : List Char :=
  match chomping with
  | .strip => []
  | .clip => if isBroken then ['\n'] else []
  | .keep => if isBroken then List.replicate (max breaks 1) '\n' else []

def Block.close (block : Block) (chomping : Chomping) (indent : Nat) (cursor : YamlCursor) :
    List Char :=
  let tail := (if block.isBroken then ['\n'] else []) ++
    if cursor.rest.isEmpty ∧ max indent 1 ≤ cursor.column then ['\n'] else []
  block.text ++ match chomping with
    | .strip => []
    | .clip => tail
    | .keep => tail ++ List.replicate block.breaks '\n'

def block? (isLiteral : Bool) (outer : Int) (start : YamlCursor) :
    Option (List Char × YamlCursor) := do
  let (chomping, more, cursor) ← header? start.next
  let headed ← cursor.skipGap?
  if !headed.isAtLineEnd then none
  else
    let isBroken := !headed.rest.isEmpty
    let body := if isBroken then headed.skipBreak else headed
    if body.isAt '\t' then none
    else
      let fuel := body.rest.length + 1
      let (found, emptyLines, blanks) := findIndent fuel body
      let indent := if more = 0 then max found (outer + 1).toNat else (max outer 0).toNat + more
      let (breaks, cursor) := if more = 0 then (emptyLines, blanks) else skipIndent indent fuel body
      if cursor.rest.isEmpty then some (emptyText chomping isBroken breaks, cursor)
      else if cursor.column < indent ∧ outer < cursor.column then none
      else
        let (block, cursor) := lines isLiteral indent fuel ⟨[], false, breaks, false⟩ cursor
        some (block.close chomping indent cursor, cursor)

end Autoland.YamlText
