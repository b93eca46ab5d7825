import Autoland.Record.Action

/-! The decisions of one definition during a flight. -/

namespace Autoland.Learning

open Problem

structure Decision (ν : Type) where
  state : State ν
  action : Action ν
  index : Nat

/-- The decisions of a definition along one axis, the latest first. -/
structure Trajectory (ν : Type) where
  key : String
  definition : Definition ν
  history : List (Decision ν)

namespace Trajectory

variable {ν : Type}

def empty (key : String) (definition : Definition ν) : Trajectory ν := ⟨key, definition, []⟩

def decisions (trajectory : Trajectory ν) : List (Decision ν) := trajectory.history.reverse

def last? (trajectory : Trajectory ν) : Option (Decision ν) := trajectory.history.head?

def length (trajectory : Trajectory ν) : Nat := trajectory.history.length

/-- Adds a decision, and tells whether it did: a state like the last one is not added. -/
def record (trajectory : Trajectory ν) (state : State ν) (action : Action ν) :
    Except Error (Bool × Trajectory ν) :=
  match trajectory.definition.indexOf state action with
  | .error error => .error error
  | .ok index =>
    if trajectory.last?.any (·.state.same state) then .ok (false, trajectory)
    else .ok (true, { trajectory with history := ⟨state, action, index⟩ :: trajectory.history })

end Trajectory

end Autoland.Learning
