import Autoland.Engine.Basic
import Autoland.Formula.Compiler
import Autoland.Replay.Training

/-! What commands print: lines and aligned columns. -/

namespace Autoland.Console

open Problem Text

def line (text : String) : String := text ++ "\n"

def shortNumber (value : Float) : String := NumberLayout.plain.write (.ofDouble value)

def definitionRow (name priority entries backing methods children : String) : String :=
  line (padEnd 20 name ++ " " ++ padStart 8 priority ++ " " ++ padStart 12 entries ++ " " ++
    padEnd 8 backing ++ " " ++ padEnd 10 methods ++ " " ++ children)

section Definitions

variable {ν φ : Type}

def childList (engine : Engine ν φ) (definition : Definition ν) : String :=
  ", ".intercalate (definition.childNames.map fun name =>
    if engine.isActive name then name else name ++ " (not loaded)")

def definitionTable (engine : Engine ν φ) : String :=
  line ("Root: " ++ engine.root.name ++ "  Dimension: " ++ engine.dimension.name) ++ line "" ++
    definitionRow "NAME" "PRIORITY" "ENTRIES" "BACKING" "METHODS" "CHILDREN" ++
    line (String.ofList (List.replicate 80 '-')) ++
    String.join (engine.definitions.map fun definition =>
      definitionRow definition.name (toString definition.priority)
        (toString definition.tableSize) definition.layout.backing.name
        (",".intercalate (definition.methods.map (·.name))) (childList engine definition))

end Definitions

def formulaSummary (expression : Formula.Expression Float) (value : Float) : String :=
  line (expression.write ++ " = " ++ shortNumber value) ++
    (if expression.fields.isEmpty then ""
      else line ("fields: " ++ ", ".intercalate expression.fields)) ++
    String.join (expression.assignedAxis?.toList.map fun axis =>
      line ("assignment axis: " ++ axis.letter.toString))

def replaySummary (report : Replay.Report) (engine : Engine Float Float32) (written : Nat) :
    String :=
  let counters := engine.counters
  let rate : Float := counters.successRate * 100.0
  line "Replay complete" ++ line "===============" ++ line "" ++
    line ("Episodes:       " ++ toString report.episodes ++
      " (" ++ toString report.skipped ++ " skipped)") ++
    line ("Successes:      " ++ toString report.successes ++
      " (" ++ (FloatShape.ofDouble rate).writePlaces 1 ++ "%)") ++
    line ("Steps:          " ++ toString counters.steps) ++
    line ("Decisions:      " ++ toString counters.decisions) ++
    line ("TD updates:     " ++ toString counters.stepUpdates) ++
    line ("MC updates:     " ++ toString counters.flightUpdates) ++
    line ("Populated:      " ++ toString engine.populated) ++
    line ("Tables written: " ++ toString written)

end Autoland.Console
