import Autoland.Formula.Operator

/-! Formula trees: how they are written, what they read and what they are worth. -/

namespace Autoland.Formula

/-- A formula tree. A literal keeps the text it was written with. A call keeps the operator its name
stood for, or none if the name was unknown. -/
inductive Term (ν : Type) where
  | literal (text : String) (value : ν) (negated : Bool)
  | field (name : String) (negated : Bool)
  | call (name : String) (operator : Option (Operator ν)) (args : List (Term ν)) (negated : Bool)

def signChars (negated : Bool) : List Char := if negated then ['-'] else []

mutual

def Term.chars {ν : Type} : Term ν → List Char
  | .literal text _ negated => signChars negated ++ text.toList
  | .field name negated => signChars negated ++ name.toList
  | .call name _ args negated =>
    signChars negated ++ (name.toList ++ ('(' :: (Term.listChars args ++ [')'])))

def Term.listChars {ν : Type} : List (Term ν) → List Char
  | [] => []
  | [arg] => arg.chars
  | arg :: args => arg.chars ++ ',' :: Term.listChars args

end

namespace Term

variable {ν : Type}

def write (term : Term ν) : String := String.ofList term.chars

def isNegated : Term ν → Bool
  | literal _ _ negated => negated
  | field _ negated => negated
  | call _ _ _ negated => negated

mutual

/-- Adds the fields a term reads to those seen before, each once, from left to right. -/
def fieldsAfter (seen : List String) : Term ν → List String
  | literal .. => seen
  | field name _ => if name ∈ seen then seen else seen ++ [name]
  | call _ _ args _ => listFieldsAfter seen args

def listFieldsAfter (seen : List String) : List (Term ν) → List String
  | [] => seen
  | arg :: args => listFieldsAfter (fieldsAfter seen arg) args

end

def fields (term : Term ν) : List String := fieldsAfter [] term

variable [Scalar ν]

def unknownOperatorValue : ν := -(1.0)

def negateIf (negated : Bool) (value : ν) : ν := if negated then -value else value

mutual

def evaluate (fieldValue : String → ν) : Term ν → ν
  | literal _ value negated => negateIf negated value
  | field name negated => negateIf negated (fieldValue name)
  | call _ none _ negated => negateIf negated unknownOperatorValue
  | call _ (some operator) args negated =>
    negateIf negated (operator.apply (evaluateList fieldValue args))

def evaluateList (fieldValue : String → ν) : List (Term ν) → List ν
  | [] => []
  | arg :: args => evaluate fieldValue arg :: evaluateList fieldValue args

end

end Term

end Autoland.Formula
