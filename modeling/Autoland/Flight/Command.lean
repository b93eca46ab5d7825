import Autoland.Number.Scalar

/-! The command the simulation is sent, by named slots. -/

namespace Autoland.Flight

structure Command (ν : Type) where
  thrust : ν
  gimbalX : ν
  gimbalY : ν
  lateralThrustX : ν
  lateralThrustY : ν
  deriving DecidableEq, Repr

namespace Command

variable {ν : Type}

def set? (command : Command ν) (field : String) (value : ν) : Option (Command ν) :=
  match field with
  | "thrust" => some { command with thrust := value }
  | "gimbalX" => some { command with gimbalX := value }
  | "gimbalY" => some { command with gimbalY := value }
  | "lateralThrustX" => some { command with lateralThrustX := value }
  | "lateralThrustY" => some { command with lateralThrustY := value }
  | _ => none

def set (command : Command ν) (field : String) (value : ν) : Command ν :=
  (command.set? field value).getD command

def get? (command : Command ν) (field : String) : Option ν :=
  match field with
  | "thrust" => some command.thrust
  | "gimbalX" => some command.gimbalX
  | "gimbalY" => some command.gimbalY
  | "lateralThrustX" => some command.lateralThrustX
  | "lateralThrustY" => some command.lateralThrustY
  | _ => none

def setAll (command : Command ν) (fields : List (String × ν)) : Command ν :=
  fields.foldl (fun command (field, value) => command.set field value) command

def zero [Scalar ν] : Command ν := ⟨0.0, 0.0, 0.0, 0.0, 0.0⟩

end Command

end Autoland.Flight
