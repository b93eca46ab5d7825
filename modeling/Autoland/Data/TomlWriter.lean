import Autoland.Data.JsonWriter
import Autoland.Data.TomlText

/-! Values written the way TOML files hold them. -/

namespace Autoland.TomlWriter

def longestRun (c : Char) (run : Nat) : List Char → Nat
  | [] => run
  | d :: rest => if c = d then longestRun c (run + 1) rest else max run (longestRun c 0 rest)

/-- How a text is quoted: by single or double quotes, and by one or by three of them on either
side. Only double quotes know escapes. -/
structure Quotation where
  mark : Char
  isLong : Bool
  deriving DecidableEq, Repr

namespace Quotation

def basic : Quotation := ⟨'"', false⟩

def literal : Quotation := ⟨'\'', false⟩

def longBasic : Quotation := ⟨'"', true⟩

def longLiteral : Quotation := ⟨'\'', true⟩

def mostMarks (quotation : Quotation) : Nat := if quotation.isLong then 2 else 0

def marks (quotation : Quotation) : List Char :=
  List.replicate (if quotation.isLong then 3 else 1) quotation.mark

def fits (quotation : Quotation) (text : List Char) : Bool :=
  text.all (fun c => TomlText.isPlain c || c = '\n') &&
    longestRun quotation.mark 0 text ≤ quotation.mostMarks &&
    (quotation.isLong || '\n' ∉ text) && (quotation.mark ≠ '"' || '\\' ∉ text)

def ofText (text : List Char) : Quotation :=
  ([basic, literal, longBasic, longLiteral].find? (·.fits text)).getD
    ⟨'"', '\n' ∈ text⟩

end Quotation

def upperHex (n : Nat) : Char := "0123456789ABCDEF".toList.getD n '0'

/-- A character in double quotes, quotes apart. Line breaks stand as they are in a text over several
lines. -/
def escape (long : Bool) (c : Char) : List Char :=
  match c with
  | '\x08' => ['\\', 'b']
  | '\t' => ['\\', 't']
  | '\n' => if long then ['\n'] else ['\\', 'n']
  | '\x0c' => ['\\', 'f']
  | '\r' => ['\\', 'r']
  | '\\' => ['\\', '\\']
  | c =>
    if TomlText.isPlain c then [c]
    else ['\\', 'u', '0', '0', upperHex (c.toNat / 16), upperHex (c.toNat % 16)]

/-- A text in double quotes. A quote is escaped where more of them stand in a row than may; `run`
counts those before it. -/
def escapeText (quotation : Quotation) (run : Nat) : List Char → List Char
  | [] => []
  | '"' :: rest =>
    if run < quotation.mostMarks then '"' :: escapeText quotation (run + 1) rest
    else '\\' :: '"' :: escapeText quotation 0 rest
  | c :: rest => escape quotation.isLong c ++ escapeText quotation 0 rest

def quote (text : String) : String :=
  let chars := text.toList
  let quotation := Quotation.ofText chars
  let start := if '\n' ∈ chars then ['\n'] else []
  let body := if quotation.mark = '"' then escapeText quotation 0 chars else chars
  String.ofList (quotation.marks ++ start ++ body ++ quotation.marks)

def table (name : String) (members : List (String × String)) : String :=
  "[" ++ name ++ "]\n" ++
    String.join (members.map fun (key, value) => key ++ " = " ++ value ++ "\n")

end Autoland.TomlWriter
