import Autoland.Formula.Expression

/-! A compiler that keeps what it has compiled. -/

namespace Autoland.Formula

/-- A compiled formula that several places hold. Copies of one compilation have one serial
number. -/
structure Shared (ν : Type) where
  serial : Nat
  expression : Expression ν

/-- An operator set with the formulas compiled so far, by their text without white space. -/
structure Compiler (ν : Type) where
  operators : Operators ν
  known : List (String × Shared ν)
  /-- The serial number of the next compilation. -/
  next : Nat

namespace Compiler

variable {ν : Type}

def ofOperators (operators : Operators ν) : Compiler ν := ⟨operators, [], 0⟩

def size (compiler : Compiler ν) : Nat := compiler.known.length

def clear (compiler : Compiler ν) : Compiler ν := { compiler with known := [] }

variable [Scalar ν] [Elementary ν]

def standard : Compiler ν := ofOperators Operators.standard

/-- Compiles a formula, or hands out the kept one. A refused formula is not kept. -/
def compile (compiler : Compiler ν) (formula : String) :
    Except Error (Shared ν) × Compiler ν :=
  let key := String.ofList (Text.squeeze formula.toList)
  match compiler.known.lookup key with
  | some shared => (.ok shared, compiler)
  | none =>
    match Expression.parse compiler.operators key with
    | .error error => (.error error, compiler)
    | .ok expression =>
      let shared : Shared ν := ⟨compiler.next, expression⟩
      (.ok shared,
        { compiler with known := (key, shared) :: compiler.known, next := compiler.next + 1 })

end Compiler

end Autoland.Formula
