import Autoland.Data.JsonNumber

/-! JSON texts as lists of tokens, read character by character. -/

namespace Autoland

inductive JsonToken where
  | openList
  | closeList
  | openObject
  | closeObject
  | comma
  | colon
  /-- A text in quotes, unless a surrogate in it is unpaired. -/
  | quoted (text : Option String)
  | leaf (value : Data)

namespace JsonToken

/-- A character of a quoted text, or the code unit of a `\u` escape. -/
inductive Piece where
  | plain (c : Char)
  | unit (code : Nat)

/-- Joins the pieces; two units of a surrogate pair make one character. -/
def join? : List Piece → Option (List Char)
  | [] => some []
  | .plain c :: rest => (join? rest).map (c :: ·)
  | .unit high :: .unit low :: rest =>
    if 0xD800 ≤ high ∧ high < 0xDC00 then
      if 0xDC00 ≤ low ∧ low < 0xE000 then
        (join? rest).map (Char.ofNat (0x10000 + (high - 0xD800) * 0x400 + (low - 0xDC00)) :: ·)
      else none
    else if 0xDC00 ≤ high ∧ high < 0xE000 then none
    else (join? (.unit low :: rest)).map (Char.ofNat high :: ·)
  | .unit code :: rest =>
    if 0xD800 ≤ code ∧ code < 0xE000 then none else (join? rest).map (Char.ofNat code :: ·)

def hexValue? (c : Char) : Option Nat :=
  if c.isDigit then some (c.toNat - '0'.toNat)
  else if 'a' ≤ c ∧ c ≤ 'f' then some (c.toNat - 'a'.toNat + 10)
  else if 'A' ≤ c ∧ c ≤ 'F' then some (c.toNat - 'A'.toNat + 10)
  else none

def escaped? : Char → Option Char
  | '"' => some '"'
  | '\\' => some '\\'
  | '/' => some '/'
  | 'b' => some '\x08'
  | 'f' => some '\x0c'
  | 'n' => some '\n'
  | 'r' => some '\r'
  | 't' => some '\t'
  | _ => none

/-- What the characters since the last token belong to. The pieces, digits and letters seen last
come first. -/
inductive Mode where
  | between
  | quoted (pieces : List Piece)
  | escape (pieces : List Piece)
  | hex (pieces : List Piece) (count code : Nat)
  | number (chars : List Char)
  | word (chars : List Char)

structure Lexer where
  tokens : List JsonToken
  mode : Mode

def Lexer.finish? (lexer : Lexer) : Option (List JsonToken) :=
  match lexer.mode with
  | .between => some lexer.tokens
  | .number chars => (JsonNumber.read? chars.reverse).map (leaf · :: lexer.tokens)
  | .word chars =>
    match String.ofList chars.reverse with
    | "null" => some (leaf .null :: lexer.tokens)
    | "true" => some (leaf (.bool true) :: lexer.tokens)
    | "false" => some (leaf (.bool false) :: lexer.tokens)
    | _ => none
  | _ => none

def startToken? (tokens : List JsonToken) (c : Char) : Option Lexer :=
  match c with
  | ' ' | '\t' | '\n' | '\r' => some ⟨tokens, .between⟩
  | '[' => some ⟨openList :: tokens, .between⟩
  | ']' => some ⟨closeList :: tokens, .between⟩
  | '\x7b' => some ⟨openObject :: tokens, .between⟩
  | '\x7d' => some ⟨closeObject :: tokens, .between⟩
  | ',' => some ⟨comma :: tokens, .between⟩
  | ':' => some ⟨colon :: tokens, .between⟩
  | '"' => some ⟨tokens, .quoted []⟩
  | c =>
    if c.isDigit ∨ c = '-' then some ⟨tokens, .number [c]⟩
    else if c.isLower then some ⟨tokens, .word [c]⟩
    else none

def Lexer.step? (lexer : Lexer) (c : Char) : Option Lexer :=
  match lexer.mode with
  | .between => startToken? lexer.tokens c
  | .quoted pieces =>
    if c = '"' then
      some ⟨quoted ((join? pieces.reverse).map String.ofList) :: lexer.tokens, .between⟩
    else if c = '\\' then some { lexer with mode := .escape pieces }
    else if c.toNat < 0x20 then none
    else some { lexer with mode := .quoted (.plain c :: pieces) }
  | .escape pieces =>
    if c = 'u' then some { lexer with mode := .hex pieces 0 0 }
    else (escaped? c).map fun d => { lexer with mode := .quoted (.plain d :: pieces) }
  | .hex pieces count code => do
    let digit ← hexValue? c
    let code := 16 * code + digit
    if count = 3 then some { lexer with mode := .quoted (.unit code :: pieces) }
    else some { lexer with mode := .hex pieces (count + 1) code }
  | .number chars =>
    if c.isDigit ∨ c = '.' ∨ c = 'e' ∨ c = 'E' ∨ c = '+' ∨ c = '-' then
      some { lexer with mode := .number (c :: chars) }
    else lexer.finish?.bind (startToken? · c)
  | .word chars =>
    if c.isLower then some { lexer with mode := .word (c :: chars) }
    else lexer.finish?.bind (startToken? · c)

def lex? (text : List Char) : Option (List JsonToken) := do
  let lexer ← text.foldlM Lexer.step? ⟨[], .between⟩
  return (← lexer.finish?).reverse

end JsonToken

end Autoland
