import Autoland.Error
import Autoland.Problem.Definition

/-! Definitions that are used together: their order, their names and the children they refer to. -/

namespace Autoland.Problem

variable {ν : Type}

def find? (definitions : List (Definition ν)) (name : String) : Option (Definition ν) :=
  definitions.find? (·.name = name)

/-- Puts a definition before the first that has no lower priority value. -/
def insertByPriority (definition : Definition ν) : List (Definition ν) → List (Definition ν)
  | [] => [definition]
  | other :: others =>
    if definition.priority ≤ other.priority then definition :: other :: others
    else other :: insertByPriority definition others

def byPriority (definitions : List (Definition ν)) : List (Definition ν) :=
  definitions.foldr insertByPriority []

def requireDistinct : List String → List (Definition ν) → Except Error Unit
  | _, [] => .ok ()
  | seen, definition :: definitions =>
    if definition.name ∈ seen then .error (.definition (.declaredTwice definition.name))
    else requireDistinct (definition.name :: seen) definitions

/-- Follows definitions one after the other by a given step, which adds to those that were followed
before. Names without a definition lead nowhere. -/
def followEach (definitions : List (Definition ν))
    (step : String → List String → Except Error (List String)) :
    List String → List String → Except Error (List String)
  | [], done => .ok done
  | name :: names, done =>
    if (find? definitions name).isSome then do
      let done ← step name done
      followEach definitions step names done
    else followEach definitions step names done

/-- Follows the children of a definition to the end. `path` holds the definitions on the way to it
and `done` those that were followed before; the answer adds to the latter. The number bounds the
length of the path. -/
def follow (definitions : List (Definition ν)) :
    Nat → List String → String → List String → Except Error (List String)
  | 0, _, _, done => .ok done
  | fuel + 1, path, name, done =>
    if name ∈ done then .ok done
    else if name ∈ path then .error (.definition (.cycle name path))
    else match find? definitions name with
      | none => .ok done
      | some definition => do
        let done ← followEach definitions (follow definitions fuel (path ++ [name]))
          definition.childNames done
        return name :: done

def rejectCycles (definitions : List (Definition ν)) : Except Error Unit :=
  (followEach definitions (follow definitions (definitions.length + 1) [])
    (definitions.map (·.name)) []).map fun _ => ()

end Autoland.Problem
