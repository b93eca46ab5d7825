import Autoland.Number.Scalar

/-! The operators a formula may call. -/

namespace Autoland.Formula

structure Operator (ν : Type) where
  name : String
  arity : Nat
  apply : List ν → ν

structure Operators (ν : Type) where
  entries : List (Operator ν)

namespace Operators

variable {ν : Type}

def empty : Operators ν := ⟨[]⟩

def register (operators : Operators ν) (operator : Operator ν) : Operators ν :=
  ⟨operator :: operators.entries.filter (·.name ≠ operator.name)⟩

def names (operators : Operators ν) : List String :=
  (operators.entries.map (·.name)).mergeSort

end Operators

variable {ν : Type} [Scalar ν]

def Operator.unary (name : String) (f : ν → ν) : Operator ν :=
  ⟨name, 1, fun
    | a :: _ => f a
    | [] => 0.0⟩

def Operator.binary (name : String) (f : ν → ν → ν) : Operator ν :=
  ⟨name, 2, fun
    | a :: b :: _ => f a b
    | _ => 0.0⟩

namespace Operators

variable [Elementary ν]

/-- The logarithm whose base is the numeral after `Log`. The base is positive, finite and not 1. -/
def logarithm? (name : String) : Option (Operator ν) :=
  match name.toList with
  | 'L' :: 'o' :: 'g' :: numeral => do
    let base : ν ← Scalar.read? (String.ofList numeral)
    if base ≤ 0.0 || base == 1.0 || !Scalar.isFinite base then none
    else some (.unary name fun a => Elementary.log a / Elementary.log base)
  | _ => none

def resolve? (operators : Operators ν) (name : String) : Option (Operator ν) :=
  (operators.entries.find? (·.name = name)).or (logarithm? name)

/-- Identity (without a name), arithmetic, trigonometry, powers, logic and comparisons. -/
def standard : Operators ν where
  entries := [
    .unary "" id,
    .binary "Add" (· + ·),
    .binary "Sub" (· - ·),
    .binary "Mult" (· * ·),
    .binary "Div" (· / ·),
    .unary "Abs" Scalar.abs,
    .unary "Signum" Scalar.sign,
    .unary "Sin" Elementary.sin,
    .unary "Asin" Elementary.asin,
    .unary "Cos" Elementary.cos,
    .unary "Acos" Elementary.acos,
    .unary "Tan" Elementary.tan,
    .unary "Atan" Elementary.atan,
    .binary "Atan2" Elementary.atan2,
    .unary "Todeg" Scalar.degrees,
    .binary "Pow" Elementary.pow,
    .unary "Exp" Elementary.exp,
    .binary "And" fun a b => Scalar.ofBool (a != 0.0 && b != 0.0),
    .binary "Or" fun a b => Scalar.ofBool (a != 0.0 || b != 0.0),
    .binary "Lt" fun a b => Scalar.ofBool (a < b),
    .binary "Le" fun a b => Scalar.ofBool (a ≤ b),
    .binary "Gt" fun a b => Scalar.ofBool (b < a),
    .binary "Ge" fun a b => Scalar.ofBool (b ≤ a)]

end Operators

end Autoland.Formula
