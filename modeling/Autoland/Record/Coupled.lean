import Autoland.Error

/-! The records of one step, the root's first. -/

namespace Autoland

/-- A list of records that grows until it is frozen. The names of its members, one after the other,
then identify it. -/
structure Coupled (α : Type) where
  members : List α
  identity : Option String

namespace Coupled

variable {α : Type}

def empty : Coupled α := ⟨[], none⟩

def push (coupled : Coupled α) (member : α) : Except Error (Coupled α) :=
  match coupled.identity with
  | some identity => .error (.frozen identity)
  | none => .ok { coupled with members := coupled.members ++ [member] }

def freeze (name : α → String) (coupled : Coupled α) : Coupled α :=
  { coupled with
    identity := some (coupled.identity.getD (String.join (coupled.members.map name))) }

def frozen (name : α → String) (members : List α) : Coupled α := freeze name ⟨members, none⟩

def isFrozen (coupled : Coupled α) : Bool := coupled.identity.isSome

def get? (coupled : Coupled α) (position : Nat) : Option α := coupled.members[position]?

def root? (coupled : Coupled α) : Option α := coupled.members.head?

end Coupled

end Autoland
