import Autoland.Axis
import Autoland.Formula.Parser
import Autoland.Text.Blank

/-! Compiled formulas and their evaluation on named fields. -/

namespace Autoland.Formula

abbrev Fields (ν : Type) := String → Option ν

namespace Fields

variable {ν : Type}

def none : Fields ν := fun _ => Option.none

def ofFirst (pairs : List (String × ν)) : Fields ν := fun name => pairs.lookup name

def ofLast (pairs : List (String × ν)) : Fields ν := fun name => pairs.reverse.lookup name

def orElse (primary fallback : Fields ν) : Fields ν := fun name => (primary name).or (fallback name)

end Fields

structure Expression (ν : Type) where
  source : String
  root : Term ν

namespace Expression

variable {ν : Type}

def write (expression : Expression ν) : String := expression.root.write

/-- The fields the formula reads, in the order in which they are first named. -/
def fields (expression : Expression ν) : List String := expression.root.fields

/-- The source field of a bare assignment such as `(positionX)`. -/
def assignedField? (expression : Expression ν) : Option String :=
  match expression.root with
  | .call "" _ [.field name _] false => some name
  | _ => none

def assignedAxis? (expression : Expression ν) : Option Axis :=
  expression.assignedField?.bind Axis.ofName?

variable [Scalar ν]

def evaluate (expression : Expression ν) (fields : Fields ν) : ν :=
  expression.root.evaluate fun name => (fields name).getD 0.0

def evaluateOn (expression : Expression ν) (primary fallback : Fields ν) : ν :=
  expression.evaluate (primary.orElse fallback)

variable [Elementary ν]

def parse (operators : Operators ν) (formula : String) : Except Error (Expression ν) :=
  let source := Text.squeeze formula.toList
  match parseFormula operators source with
  | .ok root => .ok ⟨String.ofList source, root⟩
  | .error fault => .error (.malformedFormula (String.ofList source) fault)

end Expression

end Autoland.Formula
