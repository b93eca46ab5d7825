import Autoland.Error

/-! Why a command fails. -/

namespace Autoland.Console

inductive Failure where
  | misuse
  | settingsNotRead
  | settingsOfWrongForm
  | settingTooLarge
  | definitionsNotRead (path : String)
  | invalidDefinitions
  | snapshotNotRead (path : String)
  | invalidSnapshot
  | tableNotRead (path : String)
  | recordingNotRead (path : String)
  | invalidRecording
  | notWritten (path : String)
  | failed (error : Error)

def Failure.message : Failure → String
  | misuse => "the command line is not understood, try 'lander --help'"
  | settingsNotRead => "Failed to read configuration"
  | settingsOfWrongForm => "Failed to deserialize configuration"
  | settingTooLarge => "out-of-range value for u64 type"
  | definitionsNotRead path => "Failed to load definitions from " ++ path
  | invalidDefinitions => "Invalid definitions"
  | snapshotNotRead path => "Failed to read snapshot " ++ path
  | invalidSnapshot => "Invalid snapshot"
  | tableNotRead path => "Failed to read table " ++ path
  | recordingNotRead path => "Failed to read " ++ path
  | invalidRecording => "Invalid recording"
  | notWritten path => "Failed to write " ++ path
  | failed error => error.message

/-- A command line that is not understood is told from a command that fails. -/
def Failure.exitCode : Failure → Nat
  | misuse => 2
  | _ => 1

structure Answer where
  output : String
  failure : Option Failure

namespace Answer

def ofExcept : Except Failure String → Answer
  | .ok output => ⟨output, none⟩
  | .error failure => ⟨"", some failure⟩

def exitCode (answer : Answer) : Nat := (answer.failure.map (·.exitCode)).getD 0

def complaint? (answer : Answer) : Option String :=
  answer.failure.map fun failure => "Error: " ++ failure.message

end Answer

end Autoland.Console
