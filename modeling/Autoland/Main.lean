import Autoland.Console.Run
import Std.Time.DateTime.Timestamp

/-! The program: the commands on the files and the variables of a running system. -/

namespace Autoland.Console

def attempt? {α : Type} (action : IO α) : IO (Option α) :=
  try return some (← action) catch _ => return none

def processVariables : IO (List (String × String)) := do
  let text := (← attempt? (IO.FS.readFile "/proc/self/environ")).getD ""
  return (Text.splitAt '\x00' text.toList).filterMap fun pair =>
    (Text.cutAt? '=' pair).map fun (name, value) => (String.ofList name, String.ofList value)

def processorCount : IO Nat := do
  let text := (← attempt? (IO.FS.readFile "/proc/cpuinfo")).getD ""
  let count := (Text.lines text.toList).countP fun line =>
    (Text.strip? "processor".toList line).isSome
  return max count 1

instance : Host IO where
  contents? path := attempt? (IO.FS.readFile path)
  isThere path := return (← attempt? (IO.FS.realPath path)).isSome
  write path text := return (← attempt? do
    if let some directory := Path.parent? path then IO.FS.createDirAll directory
    IO.FS.writeFile path text).isSome
  environment := processVariables
  now := do
    let time ← Std.Time.Timestamp.now
    return ⟨time.toSecondsSinceUnixEpoch.val, time.val.nano.val.toNat⟩
  entropy := do
    let bytes ← IO.getRandomBytes 8
    return bytes.toList.foldl (fun word byte => 256 * word + byte.toUInt64) 0
  cores := processorCount

end Autoland.Console

open Autoland.Console in
def main (arguments : List String) : IO UInt32 := do
  let answer ← respond arguments
  IO.print answer.output
  if let some complaint := answer.complaint? then IO.eprintln complaint
  return answer.exitCode.toUInt32
