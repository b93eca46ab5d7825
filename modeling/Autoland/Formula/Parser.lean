import Autoland.Error
import Autoland.Text.Letters
import Autoland.Formula.Term

/-!
Formula texts without white space, read into trees. A term is a minus sign or none, followed by a
call `Name(term,…)`, a constant or a field name.
-/

namespace Autoland.Formula

/-- Checks that every parenthesis has its partner, with `depth` of them open before the text. -/
def checkBalance : Nat → List Char → Except FormulaFault Unit
  | 0, [] => .ok ()
  | _ + 1, [] => .error .unmatchedParentheses
  | depth, '(' :: rest => checkBalance (depth + 1) rest
  | 0, ')' :: _ => .error .surplusClose
  | depth + 1, ')' :: rest => checkBalance depth rest
  | depth, _ :: rest => checkBalance depth rest

/-- Cuts a text at the parenthesis that closes the one opened just before it. `depth` counts those
opened since. -/
def cutAtClose? : Nat → List Char → Option (List Char × List Char)
  | _, [] => none
  | depth, '(' :: rest =>
    (cutAtClose? (depth + 1) rest).map fun (inside, after) => ('(' :: inside, after)
  | 0, ')' :: rest => some ([], rest)
  | depth + 1, ')' :: rest =>
    (cutAtClose? depth rest).map fun (inside, after) => (')' :: inside, after)
  | depth, c :: rest => (cutAtClose? depth rest).map fun (inside, after) => (c :: inside, after)

def consFirst (c : Char) : List (List Char) → List (List Char)
  | [] => [[c]]
  | piece :: pieces => (c :: piece) :: pieces

def cutAtCommas : Nat → List Char → List (List Char)
  | _, [] => [[]]
  | depth, '(' :: rest => consFirst '(' (cutAtCommas (depth + 1) rest)
  | depth, ')' :: rest => consFirst ')' (cutAtCommas (depth - 1) rest)
  | 0, ',' :: rest => [] :: cutAtCommas 0 rest
  | depth, c :: rest => consFirst c (cutAtCommas depth rest)

def splitArguments (inside : List Char) : List (List Char) :=
  if inside.isEmpty then [] else cutAtCommas 0 inside

theorem length_of_cutAtClose? {depth : Nat} {text inside after : List Char}
    (found : cutAtClose? depth text = some (inside, after)) :
    inside.length + after.length < text.length := by
  fun_induction cutAtClose? depth text generalizing inside after <;>
    simp_all [Option.map_eq_some_iff] <;> grind

theorem length_of_mem_consFirst {c : Char} {pieces : List (List Char)} {piece : List Char}
    (member : piece ∈ consFirst c pieces) :
    piece = [c] ∨ (∃ tail ∈ pieces, piece = c :: tail) ∨ piece ∈ pieces := by
  cases pieces with
  | nil => exact .inl (by simpa [consFirst] using member)
  | cons first rest => simp only [consFirst, List.mem_cons] at member ⊢; grind

theorem length_of_mem_cutAtCommas {depth : Nat} {text piece : List Char}
    (member : piece ∈ cutAtCommas depth text) : piece.length ≤ text.length := by
  fun_induction cutAtCommas depth text generalizing piece with
  | case1 => simp_all
  | case2 _ _ ih => have := length_of_mem_consFirst member; grind
  | case3 _ _ ih => have := length_of_mem_consFirst member; grind
  | case4 _ ih => grind
  | case5 _ _ _ _ _ _ ih => have := length_of_mem_consFirst member; grind

theorem length_of_mem_splitArguments {inside piece : List Char}
    (member : piece ∈ splitArguments inside) : piece.length ≤ inside.length := by
  unfold splitArguments at member
  split at member
  · simp at member
  · exact length_of_mem_cutAtCommas member

theorem length_of_dropWhile {p : Char → Bool} {text rest : List Char} {c : Char}
    (found : text.dropWhile p = c :: rest) : rest.length < text.length := by
  have shorter := (List.dropWhile_sublist (l := text) p).length_le
  rw [found, List.length_cons] at shorter
  exact shorter

def splitMinus : List Char → Bool × List Char
  | '-' :: body => (true, body)
  | body => (false, body)

theorem length_of_splitMinus (input : List Char) :
    (splitMinus input).2.length ≤ input.length := by
  unfold splitMinus; split <;> simp

variable {ν : Type} [Scalar ν] [Elementary ν]

def constant? (text : String) : Option ν :=
  if text = "PI" then some Elementary.pi
  else if text = "E" then some Elementary.e
  else if text = "TRUE" then some 1.0
  else if text = "FALSE" then some 0.0
  else Scalar.read? text

/-- Reads a term without parentheses: what starts with a digit or is its own upper-case form is a
constant, and what else starts with a lower-case letter is a field. -/
def parseAtom (negated : Bool) (first : Char) (body : List Char) :
    Except FormulaFault (Term ν) :=
  let text := String.ofList body
  if body.any fun c => c = ',' || c = ')' then .error (.separator text)
  else if first.isDigit || Text.isUpperForm body then
    match constant? text with
    | some value => .ok (.literal text value negated)
    | none => .error (.unknownConstant text)
  else if Text.isLowercase first then .ok (.field text negated)
  else .error (.neitherFieldNorConstant text)

def makeCall (operators : Operators ν) (negated : Bool) (name : String) (args : List (Term ν)) :
    Except FormulaFault (Term ν) :=
  match operators.resolve? name with
  | none => .ok (.call name none args negated)
  | some operator =>
    if operator.arity = args.length then .ok (.call name (some operator) args negated)
    else .error (.argumentCount name operator.arity args.length)

def parseTerm (operators : Operators ν) (input : List Char) : Except FormulaFault (Term ν) :=
  match _body : (splitMinus input).2 with
  | [] => .error .emptyTerm
  | first :: tail =>
    let negated := (splitMinus input).1
    match _opened : (first :: tail).dropWhile (· ≠ '(') with
    | [] => parseAtom negated first (first :: tail)
    | _ :: rest =>
      let name := (first :: tail).takeWhile (· ≠ '(')
      if name.head?.any (!·.isUpper) then .error (.strayOperatorName (String.ofList name))
      else match _closed : cutAtClose? 0 rest with
        | none => .error .unclosed
        | some (inside, after) =>
          if !after.isEmpty then
            .error (.trailing (String.ofList (name ++ '(' :: (inside ++ [')']))))
          else do
            let args ← (splitArguments inside).attach.mapM fun ⟨piece, _member⟩ =>
              parseTerm operators piece
            makeCall operators negated (String.ofList name) args
termination_by input.length
decreasing_by
  have := length_of_splitMinus input
  have := length_of_dropWhile _opened
  have := length_of_cutAtClose? _closed
  have := length_of_mem_splitArguments _member
  simp_all; omega

def parseFormula (operators : Operators ν) (formula : List Char) :
    Except FormulaFault (Term ν) := do
  checkBalance 0 formula
  parseTerm operators formula

end Autoland.Formula
