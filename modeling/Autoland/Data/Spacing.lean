/-! What stands between the tokens of a data file, and lists of items in brackets. -/

namespace Autoland

/-- How a format sets its tokens apart: by blanks, by comments from two slashes to the end of the
line, and by comments between `/*` and `*/`, which may hold others if they nest. -/
structure Spacing where
  isBlank : Char → Bool
  isLineEnd : Char → Bool
  nests : Bool

namespace Spacing

/-- Where a character stands: between tokens, in the comment of a line, or in a comment between
marks that lies in `depth` others. -/
inductive Place where
  | between
  | inLine
  | inside (depth : Nat)

def Place.after : Nat → Place
  | 0 => between
  | depth + 1 => inside depth

def skipFrom? (spacing : Spacing) : Place → List Char → Option (List Char)
  | .inside _, [] => none
  | _, [] => some []
  | .between, '/' :: '/' :: rest => skipFrom? spacing .inLine rest
  | .between, '/' :: '*' :: rest => skipFrom? spacing (.inside 0) rest
  | .between, c :: rest =>
    if spacing.isBlank c then skipFrom? spacing .between rest else some (c :: rest)
  | .inLine, c :: rest => skipFrom? spacing (if spacing.isLineEnd c then .between else .inLine) rest
  | .inside depth, '*' :: '/' :: rest => skipFrom? spacing (.after depth) rest
  | .inside depth, '/' :: '*' :: rest =>
    if spacing.nests then skipFrom? spacing (.inside (depth + 1)) rest
    else skipFrom? spacing (.inside depth) ('*' :: rest)
  | .inside depth, _ :: rest => skipFrom? spacing (.inside depth) rest

def skip? (spacing : Spacing) (text : List Char) : Option (List Char) :=
  spacing.skipFrom? .between text

def after? (spacing : Spacing) (c : Char) (text : List Char) : Option (List Char) := do
  match ← spacing.skip? text with
  | d :: rest => if c = d then some rest else none
  | [] => none

/-- Reads items up to the mark that closes them. Commas stand between them, and perhaps after the
last one. `left` bounds their number. -/
def items? {α : Type} (spacing : Spacing) (close : Char)
    (item? : List Char → Option (α × List Char)) : Nat → List Char → Option (List α × List Char)
  | 0, _ => none
  | left + 1, text =>
    match spacing.after? close text with
    | some rest => some ([], rest)
    | none => do
      let (item, rest) ← item? (← spacing.skip? text)
      match spacing.after? close rest with
      | some rest => return ([item], rest)
      | none =>
        let (items, rest) ← items? spacing close item? left (← spacing.after? ',' rest)
        return (item :: items, rest)

def whole? {α : Type} (spacing : Spacing) (value? : List Char → Option (α × List Char))
    (text : List Char) : Option α := do
  let (value, rest) ← value? (← spacing.skip? text)
  if (← spacing.skip? rest).isEmpty then some value else none

end Spacing

end Autoland
