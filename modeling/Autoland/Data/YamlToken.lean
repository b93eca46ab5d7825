import Autoland.Data.YamlText

/-!
YAML texts as lists of tokens. A key is known by the colon after it, so that its token is put in
afterwards, before the candidate that it belongs to.
-/

namespace Autoland

open YamlCursor

inductive YamlToken where
  /-- A line that names a version. -/
  | version
  /-- A line that says what a handle of tags stands for. -/
  | handle (name meaning : String)
  | documentStart
  | documentEnd
  | openList
  | openMapping
  | closeBlock
  | openFlowList
  | closeFlowList
  | openFlowMapping
  | closeFlowMapping
  | comma
  | entry
  | key
  | value
  | alias (name : String)
  | anchor (name : String)
  | tag (handle suffix : String)
  | text (isPlain : Bool) (value : String)
  deriving DecidableEq, Repr

/-- An indentation that was entered: the one around it, and whether it is that of a list or a
mapping. -/
structure YamlIndent where
  outer : Int
  isBlock : Bool

/-- A token that may turn out to begin a key: its number, its place, and whether it has to. -/
structure YamlCandidate where
  number : Nat
  place : YamlCursor
  isRequired : Bool

structure YamlLexer where
  cursor : YamlCursor
  tokens : List YamlToken
  indent : Int
  indents : List YamlIndent
  /-- The brackets that are open, the innermost first: whether they hold a list. -/
  flows : List Bool
  /-- Whether a key may begin. -/
  mayBeKey : Bool
  /-- The last candidate of each bracket and of the block around them, the innermost first. -/
  candidates : List (Option YamlCandidate)
  /-- Where a colon stands for itself without a blank after it. -/
  adjacent : Nat
  /-- Whether the last token is an anchor or a tag at the start of a line. -/
  isMarked : Bool

namespace YamlLexer

def start (text : List Char) : YamlLexer :=
  ⟨.start text, [], -1, [], [], true, [none], 0, false⟩

def inFlow (lexer : YamlLexer) : Bool := !lexer.flows.isEmpty

def inFlowList (lexer : YamlLexer) : Bool := lexer.flows.head? = some true

def candidate? (lexer : YamlLexer) : Option YamlCandidate := lexer.candidates.head?.join

def setCandidate (candidate : Option YamlCandidate) (lexer : YamlLexer) : YamlLexer :=
  { lexer with candidates := candidate :: lexer.candidates.drop 1 }

def push (token : YamlToken) (lexer : YamlLexer) : YamlLexer :=
  { lexer with tokens := token :: lexer.tokens, isMarked := false }

def insert (number : Nat) (token : YamlToken) (lexer : YamlLexer) : YamlLexer :=
  { lexer with tokens := lexer.tokens.insertIdx (lexer.tokens.length - number) token }

def unrollFrom (column : Int) (lexer : YamlLexer) : List YamlIndent → YamlLexer
  | [] => lexer
  | top :: below =>
    if lexer.indent ≤ column then lexer
    else
      let left := { lexer with indent := top.outer, indents := below }
      unrollFrom column (if top.isBlock then left.push .closeBlock else left) below

def unroll (column : Int) (lexer : YamlLexer) : YamlLexer :=
  if lexer.inFlow then lexer else lexer.unrollFrom column lexer.indents

def unrollLoose (lexer : YamlLexer) : YamlLexer :=
  match lexer.indents.dropWhile (!·.isBlock), lexer.indents.takeWhile (!·.isBlock) with
  | below, loose =>
    { lexer with indent := (loose.getLast?.map (·.outer)).getD lexer.indent, indents := below }

/-- Enters a list or a mapping whose entries begin at a column, unless it is open already. Its token
stands before the one of the given number. -/
def roll (column number : Nat) (token : YamlToken) (lexer : YamlLexer) : YamlLexer :=
  if lexer.inFlow then lexer
  else
    let lexer := match lexer.indents with
      | top :: below =>
        if lexer.indent ≤ (column : Int) && !top.isBlock then
          { lexer with indent := top.outer, indents := below }
        else lexer
      | [] => lexer
    if lexer.indent < (column : Int) then
      ({ lexer with
        indent := column, indents := ⟨lexer.indent, true⟩ :: lexer.indents }).insert number token
    else lexer

def rollLoose (lexer : YamlLexer) : YamlLexer :=
  if !lexer.inFlow && lexer.indents.head?.any (·.isBlock) then
    { lexer with indent := lexer.indent + 1, indents := ⟨lexer.indent, false⟩ :: lexer.indents }
  else lexer

/-- Notes that the next token may begin a key. It has to where only keys can stand. -/
def saveKey (lexer : YamlLexer) : YamlLexer :=
  if lexer.mayBeKey then
    let isRequired := !lexer.inFlow && lexer.indent = lexer.cursor.column &&
      lexer.indents.head?.any (·.isBlock)
    lexer.setCandidate (some ⟨lexer.tokens.length, lexer.cursor, isRequired⟩)
  else lexer

def dropKey? (lexer : YamlLexer) : Option YamlLexer :=
  if lexer.candidate?.any (·.isRequired) then none else some (lexer.setCandidate none)

def keyLimit : Nat := 1024

def dropStaleKey? (lexer : YamlLexer) : Option YamlLexer :=
  let isStale := fun (candidate : YamlCandidate) =>
    candidate.place.line < lexer.cursor.line ||
      candidate.place.passed + keyLimit < lexer.cursor.passed
  if !lexer.inFlow && lexer.candidate?.any isStale then lexer.dropKey? else some lexer

def skip (count : Nat) (lexer : YamlLexer) : YamlLexer :=
  { lexer with cursor := lexer.cursor.skip count }

def skipGap? (lexer : YamlLexer) : Option YamlLexer :=
  lexer.cursor.skipGap?.map fun cursor => { lexer with cursor }

def skipTrivia? (lexer : YamlLexer) : Option YamlLexer := do
  let isBlock := !lexer.indents.isEmpty
  let after ← lexer.cursor.skipTrivia? lexer.indent isBlock (lexer.cursor.rest.length + 1)
  let isNewLine := lexer.cursor.line < after.line
  return { lexer with
    cursor := after, mayBeKey := lexer.mayBeKey || (isNewLine && !lexer.inFlow) }

def leaveDocument? (lexer : YamlLexer) : Option YamlLexer :=
  (lexer.unroll (-1)).dropKey?.map fun lexer => { lexer with mayBeKey := false }

def isNameLetter (c : Char) : Bool := c.isAlphanum || c = '_' || c = '-'

def isTagLetter (c : Char) : Bool :=
  c.isAlphanum || c ∈ "-#;/?:@&=+$_.~*'()%".toList

def version? (text : List Char) : Option (List Char) := do
  let number := fun (text : List Char) =>
    let digits := text.takeWhile Char.isDigit
    if digits.isEmpty || 9 < digits.length then none else some (text.dropWhile Char.isDigit)
  match ← number text with
  | '.' :: rest => number rest
  | _ => none

/-- The handle of a tag at the start of a text, and what follows it: letters between exclamation
marks, or the first of the marks with the letters after it. -/
def handle? : List Char → Option (List Char × List Char)
  | '!' :: rest =>
    let letters := rest.takeWhile isNameLetter
    match rest.dropWhile isNameLetter with
    | '!' :: after => some ('!' :: letters ++ ['!'], after)
    | after => some ('!' :: letters, after)
  | _ => none

def handleLine? (text : List Char) : Option (YamlToken × List Char) := do
  let (handle, rest) ← handle? (text.dropWhile isGap)
  let meaning := (rest.dropWhile isGap).takeWhile fun c => isTagLetter c || isFlowMark c || c = '!'
  let after := (rest.dropWhile isGap).dropWhile fun c => isTagLetter c || isFlowMark c || c = '!'
  if meaning.isEmpty || !isEnd after || (handle.length > 1 && handle.getLast? ≠ some '!') then none
  else some (.handle (String.ofList handle) (String.ofList meaning), after)

def directive? (lexer : YamlLexer) : Option YamlLexer := do
  let lexer ← lexer.leaveDocument?
  let text := lexer.cursor.rest.drop 1
  let name := text.takeWhile isNameLetter
  let after := text.dropWhile isNameLetter
  if name.isEmpty || !isEnd after then none
  else
    let (token, rest) ← match String.ofList name with
      | "YAML" => (version? (after.dropWhile isGap)).map (YamlToken.version, ·)
      | "TAG" => handleLine? after
      | _ => some (.handle "" "", after.dropWhile (!isBreak ·))
    let lexer ← (lexer.skip (lexer.cursor.rest.length - rest.length)).skipGap?
    if lexer.cursor.isAtLineEnd then some (lexer.push token) else none

def documentMark? (isStart : Bool) (lexer : YamlLexer) : Option YamlLexer := do
  let lexer := (← lexer.leaveDocument?).skip 3
  if isStart then some (lexer.push .documentStart)
  else
    let lexer ← (lexer.push .documentEnd).skipGap?
    if lexer.cursor.isAtLineEnd then some lexer else none

def flowLimit : Nat := 255

def openFlow? (isList : Bool) (lexer : YamlLexer) : Option YamlLexer := do
  if flowLimit ≤ lexer.flows.length then none
  else
    let lexer := lexer.saveKey.rollLoose
    let lexer := { lexer with
      flows := isList :: lexer.flows, candidates := none :: lexer.candidates, mayBeKey := true }
    let lexer ← (lexer.skip 1).skipGap?
    return lexer.push (if isList then .openFlowList else .openFlowMapping)

def closeFlow? (isList : Bool) (lexer : YamlLexer) : Option YamlLexer := do
  let lexer ← lexer.dropKey?
  let lexer := { lexer with
    flows := lexer.flows.drop 1, mayBeKey := false
    candidates := if lexer.inFlow then lexer.candidates.drop 1 else lexer.candidates }
  let lexer ← (lexer.skip 1).skipGap?
  let lexer := if lexer.inFlow then { lexer with adjacent := lexer.cursor.passed } else lexer
  return lexer.push (if isList then .closeFlowList else .closeFlowMapping)

def comma? (lexer : YamlLexer) : Option YamlLexer := do
  let lexer ← (← lexer.dropKey?).skip 1 |>.skipGap?
  return ({ lexer with mayBeKey := true }).push .comma

def dash? (lexer : YamlLexer) : Option YamlLexer := do
  let place := lexer.cursor
  let isMisplaced := lexer.isMarked && place.column = 0 && -1 < lexer.indent
  if lexer.inFlow || !lexer.mayBeKey || isMisplaced then none
  else
    let lexer := (lexer.skip 1).roll place.column lexer.tokens.length .openList
    let hasTab := '\t' ∈ lexer.cursor.gap
    let lexer ← lexer.skipGap?
    let rest := lexer.cursor.rest
    if hasTab && rest.head? = some '-' && isEnd (rest.drop 1) then none
    else
      let lexer := if rest.head?.any fun c => isBreak c || isFlowMark c then lexer.rollLoose
        else lexer
      return ({ ← lexer.dropKey? with mayBeKey := true }).push .entry

def key? (lexer : YamlLexer) : Option YamlLexer := do
  let place := lexer.cursor
  if !lexer.inFlow && !lexer.mayBeKey then none
  else
    let lexer ← (lexer.roll place.column lexer.tokens.length .openMapping).dropKey?
    let lexer := { lexer with mayBeKey := !lexer.inFlow }
    let lexer ← (lexer.skip 1).push .key |>.skipTrivia?
    if '\t' ∈ (place.rest.drop 1).takeWhile isGap then none else some lexer

/-- Whether what follows a colon stands too close to it: after nothing but tabs. -/
def isTooClose (cursor : YamlCursor) : Bool :=
  cursor.isAt '\t' && ' ' ∉ cursor.gap && (cursor.rest.dropWhile isGap).head?.any fun c =>
    isNameLetter c

def value? (lexer : YamlLexer) : Option YamlLexer := do
  let place := lexer.cursor
  let lexer := lexer.skip 1
  if isTooClose lexer.cursor then none
  else
    let lexer ← if lexer.cursor.isAt '\t' then lexer.skipGap? else some lexer
    match lexer.candidate? with
    | some candidate =>
      if lexer.inFlowList && candidate.place.line < place.line then none
      else
        let lexer := (lexer.insert candidate.number .key).roll candidate.place.column
          candidate.number .openMapping
        return ({ lexer.rollLoose.setCandidate none with mayBeKey := false }).push .value
    | none =>
      if !lexer.inFlow && !lexer.mayBeKey then none
      else
        let lexer := (lexer.roll place.column lexer.tokens.length .openMapping).rollLoose
        return ({ lexer with mayBeKey := !lexer.inFlow }).push .value

def name? (token : String → YamlToken) (lexer : YamlLexer) : Option YamlLexer :=
  let isMarked := lexer.cursor.column = 0
  let lexer := { lexer.saveKey with mayBeKey := false }
  let isLetter := fun c => !(isGap c || isBreak c || isFlowMark c || c = '\uFEFF')
  let name := (lexer.cursor.rest.drop 1).takeWhile isLetter
  if name.isEmpty then none
  else some { (lexer.skip (name.length + 1)).push (token (String.ofList name)) with isMarked }

def tagOf? (text : List Char) : Option (YamlToken × List Char) :=
  match text with
  | '!' :: '<' :: rest =>
    let isLetter := fun c => isTagLetter c || isFlowMark c || c = '!'
    match rest.dropWhile isLetter with
    | '>' :: after => some (.tag "" (String.ofList (rest.takeWhile isLetter)), after)
    | _ => none
  | text => do
    let (handle, rest) ← handle? text
    let suffix := rest.takeWhile isTagLetter
    let after := rest.dropWhile isTagLetter
    if handle.length ≥ 2 ∧ handle.getLast? = some '!' then
      if suffix.isEmpty then none
      else some (.tag (String.ofList handle) (String.ofList suffix), after)
    else
      let suffix := handle.drop 1 ++ suffix
      if suffix.isEmpty then some (.tag "" "!", after)
      else some (.tag "!" (String.ofList suffix), after)

def tag? (lexer : YamlLexer) : Option YamlLexer := do
  let isMarked := lexer.cursor.column = 0
  let lexer := { lexer.saveKey with mayBeKey := false }
  let (token, rest) ← tagOf? lexer.cursor.rest
  if isEnd rest || (lexer.inFlow && rest.head?.any isFlowMark) then
    some { (lexer.skip (lexer.cursor.rest.length - rest.length)).push token with isMarked }
  else none

/-- Reads a text in quotes. After it stands the end of the line, a mark that ends it in brackets, or
the colon after a key. -/
def quoted? (mark : Char) (lexer : YamlLexer) : Option YamlLexer := do
  let place := lexer.cursor
  let lexer := { lexer.saveKey with mayBeKey := false }
  let (text, cursor) ←
    YamlText.quoted? mark lexer.indent (place.rest.length + 1) lexer.cursor.next
  let lexer ← ({ lexer with cursor }).skipGap?
  let isLast := match lexer.cursor.rest with
    | [] => true
    | ':' :: _ => lexer.inFlow || place.line = lexer.cursor.line
    | c :: _ => isBreak c || (lexer.inFlow && (c = ',' || c = ']' || c = '\x7d'))
  if !isLast then none
  else
    let lexer ← lexer.skipTrivia?
    return ({ lexer with adjacent := lexer.cursor.passed }).push
      (.text false (String.ofList text))

def plain? (lexer : YamlLexer) : Option YamlLexer := do
  let place := lexer.cursor
  let lexer := ({ lexer.saveKey with mayBeKey := false }).unrollLoose
  let indent := lexer.indent + 1
  if lexer.inFlow && (place.column : Int) < indent then none
  else
    let (text, cursor) ← YamlText.plain? lexer.inFlow indent (place.rest.length + 1) place
    if text.isEmpty then none
    else some (({ lexer with cursor, mayBeKey := cursor.isIndent }).push
      (.text true (String.ofList text)))

def block? (isLiteral : Bool) (lexer : YamlLexer) : Option YamlLexer := do
  let lexer := ({ lexer.saveKey with mayBeKey := true }).unrollLoose
  let (text, cursor) ← YamlText.block? isLiteral lexer.indent lexer.cursor
  return ({ lexer with cursor }).push (.text false (String.ofList text))

def token? (lexer : YamlLexer) (c : Char) : Option YamlLexer :=
  let rest := lexer.cursor.rest.drop 1
  match c with
  | '[' => lexer.openFlow? true
  | '\x7b' => lexer.openFlow? false
  | ']' => lexer.closeFlow? true
  | '\x7d' => lexer.closeFlow? false
  | ',' => lexer.comma?
  | '*' => lexer.name? .alias
  | '&' => lexer.name? .anchor
  | '!' => lexer.tag?
  | '\'' => lexer.quoted? '\''
  | '"' => lexer.quoted? '"'
  | '-' => if isEnd rest then lexer.dash? else lexer.plain?
  | '?' => if isEnd rest then lexer.key? else lexer.plain?
  | ':' =>
    if isEnd rest || (lexer.inFlow &&
        (rest.head?.any isFlowMark || lexer.cursor.passed = lexer.adjacent)) then lexer.value?
    else lexer.plain?
  | '|' => if lexer.inFlow then lexer.plain? else lexer.block? true
  | '>' => if lexer.inFlow then lexer.plain? else lexer.block? false
  | '%' => none
  | '@' => none
  | '\x60' => none
  | _ => lexer.plain?

def finish? (lexer : YamlLexer) : Option (List YamlToken) :=
  if lexer.candidates.any fun candidate => candidate.any (·.isRequired) then none
  else some (lexer.unroll (-1)).tokens.reverse

def run? : Nat → YamlLexer → Option (List YamlToken)
  | 0, _ => none
  | left + 1, lexer => do
    let lexer ← (← lexer.skipTrivia?).dropStaleKey?
    let lexer := lexer.unroll lexer.cursor.column
    match lexer.cursor.rest with
    | [] => lexer.finish?
    | c :: _ =>
      if lexer.cursor.column = 0 ∧ c = '%' then run? left (← lexer.directive?)
      else if lexer.cursor.isAtThree '-' then run? left (← lexer.documentMark? true)
      else if lexer.cursor.isAtThree '.' then run? left (← lexer.documentMark? false)
      else if lexer.cursor.column < lexer.indent then none
      else run? left (← lexer.token? c)

end YamlLexer

def YamlToken.lex? (text : List Char) : Option (List YamlToken) :=
  let text := text.takeWhile (· ≠ '\x00')
  YamlLexer.run? (text.length + 2) (.start text)

end Autoland
