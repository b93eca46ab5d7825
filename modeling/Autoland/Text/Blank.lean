/-! White space, and the texts cut at it. -/

namespace Autoland.Text

/-- The White_Space characters: five controls, the space, and nineteen outside ASCII. -/
def isBlank (c : Char) : Bool :=
  let n := c.toNat
  (9 ≤ n && n ≤ 13) || n = 0x20 || n = 0x85 || n = 0xA0 || n = 0x1680 ||
    (0x2000 ≤ n && n ≤ 0x200A) || n = 0x2028 || n = 0x2029 || n = 0x202F || n = 0x205F || n = 0x3000

def squeeze (text : List Char) : List Char := text.filter (!isBlank ·)

def trimStart (text : List Char) : List Char := text.dropWhile isBlank

def trimEnd (text : List Char) : List Char := (text.reverse.dropWhile isBlank).reverse

def trim (text : List Char) : List Char := trimEnd (trimStart text)

def trimOf (c : Char) (text : List Char) : List Char :=
  ((text.dropWhile (· == c)).reverse.dropWhile (· == c)).reverse

def splitAt (c : Char) : List Char → List (List Char)
  | [] => [[]]
  | d :: rest =>
    if d = c then [] :: splitAt c rest
    else match splitAt c rest with
      | [] => [[d]]
      | piece :: pieces => (d :: piece) :: pieces

def dropReturn (line : List Char) : List Char :=
  if line.getLast? = some '\r' then line.dropLast else line

/-- The lines of a text. Each ends at a line feed, alone or after a carriage return; the last one
may also end with the text. -/
def lines (text : List Char) : List (List Char) :=
  let pieces := splitAt '\n' text
  let ended := (pieces.dropLast).map dropReturn
  match pieces.getLast? with
  | none | some [] => ended
  | some last => ended ++ [last]

def cutAt? (c : Char) : List Char → Option (List Char × List Char)
  | [] => none
  | d :: rest => if d = c then some ([], rest) else (cutAt? c rest).map fun (a, b) => (d :: a, b)

def strip? : List Char → List Char → Option (List Char)
  | [], text => some text
  | _ :: _, [] => none
  | c :: start, d :: rest => if c = d then strip? start rest else none

def contains (piece : List Char) : List Char → Bool
  | [] => piece.isEmpty
  | text@(_ :: rest) => (strip? piece text).isSome || contains piece rest

def padEnd (width : Nat) (text : String) : String :=
  text ++ String.ofList (List.replicate (width - text.length) ' ')

def padStart (width : Nat) (text : String) : String :=
  String.ofList (List.replicate (width - text.length) ' ') ++ text

end Autoland.Text
