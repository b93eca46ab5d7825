import Autoland.Console.Arguments
import Autoland.Console.Help
import Autoland.Console.Inspection
import Autoland.Console.Sources
import Autoland.Data.JsonWriter
import Autoland.Problem.DocumentFile
import Autoland.Replay.Tables

/-! The commands. -/

namespace Autoland.Console

open Problem

variable {m : Type → Type} [Monad m] [Host m]

def requireFile (path : String) (failure : Failure) : ExceptT Failure m String := do
  match ← (Host.contents? path : m _) with
  | some text => return text
  | none => throw failure

/-- The documents of a file: the named one, or that of the settings. Without either there is the
stock document. -/
def loadDocuments (settings : Settings) (named : Option String) :
    ExceptT Failure m (List (Document Float)) := do
  match named.or settings.storage.definitions with
  | none => return [Document.stock]
  | some path =>
    let text ← requireFile path (.definitionsNotRead path)
    match readDocuments (.ofPath path) text with
    | .ok documents => return documents
    | .error _ => throw (.definitionsNotRead path)

def loadEngine (settings : Settings) (named : Option String) :
    ExceptT Failure m (Engine Float Float32) := do
  match Engine.build (← loadDocuments settings named) settings.engine with
  | .ok engine => return engine
  | .error _ => throw .invalidDefinitions

def checkDefinitions (settings : Settings) (named : Option String) :
    ExceptT Failure m String :=
  return definitionTable (← loadEngine settings named)

def stockDocuments : String :=
  line (JsonWriter.pretty (.list [(Document.stock : Document Float).toData]))

def loadSnapshot : Option String → ExceptT Failure m (Flight.Snapshot Float)
  | none => return Flight.Snapshot.atRest
  | some path => do
    let text ← requireFile path (.snapshotNotRead path)
    match (JsonReader.readUnlimited? text).bind Flight.Snapshot.ofData? with
    | some snapshot => return snapshot
    | none => throw .invalidSnapshot

def evaluateFormula (formula : String) (fields : List (String × Float))
    (snapshot : Option String) : ExceptT Failure m String := do
  let snapshot ← loadSnapshot snapshot
  match Formula.Expression.parse .standard formula with
  | .error error => throw (.failed error)
  | .ok expression =>
    return formulaSummary expression
      (expression.evaluateOn (Formula.Fields.ofLast fields) snapshot.fields)

def inspectTable (settings : Settings) (path : String) (top : Nat) (named : Option String) :
    ExceptT Failure m String := do
  let text ← requireFile path (.tableNotRead path)
  match Table.Image.ofJson text with
  | .error _ => throw (.tableNotRead path)
  | .ok image =>
    let engine ← ExceptT.lift (loadEngine settings named).run
    let definition := engine.toOption.bind fun engine => (engine.definition image.owner).toOption
    return inspection image definition top

def applyRequest (settings : Settings) (request : ReplayRequest) : Settings :=
  { settings with
    training := {
      workers := request.workers.getD settings.training.workers
      passes := request.passes.getD settings.training.passes
      seed := request.seed.or settings.training.seed }
    storage := { settings.storage with
      tables := request.tables.getD settings.storage.tables } }

def planOf (training : Training) : m Replay.Plan := do
  let workers ← if training.workers = 0 then Host.cores else pure training.workers
  return ⟨training.passes, workers, training.seed.map (·.toUInt64)⟩

/-- What the jobs of a plan draw from: without seeds the system gives each job one. -/
def drawSources (plan : Replay.Plan) (flights : Nat) : m (Nat → Source) := do
  let drawn := if plan.seed.isSome then 0 else plan.jobCount flights
  let seeds ← (List.range drawn).mapM fun _ => (Host.entropy : m UInt64)
  let sources := seeds.toArray.map Source.ofSeed
  return fun job => sources[job]?.getD (.ofWords [])

def withStoredTables (directory : String) (engine : Engine Float Float32) :
    m (Engine Float Float32) := do
  let files ← (Replay.tableNames engine).mapM fun name => do
    let path := Replay.tablePath directory name
    return (path, ← Host.contents? path)
  return (Replay.attachTables directory (fun path => (files.lookup path).join) engine).2

def writeFiles : List (String × String) → ExceptT Failure m Unit
  | [] => return
  | (path, text) :: files => do
    if ← (Host.write path text : m _) then writeFiles files else throw (.notWritten path)

def storeTables (directory : String) (engine : Engine Float Float32) :
    ExceptT Failure m Nat := do
  match Replay.savedTables directory (← (Host.now : m _)) engine with
  | .error error => throw (.failed error)
  | .ok files =>
    writeFiles files
    return files.length

def replayRecording (settings : Settings) (request : ReplayRequest) :
    ExceptT Failure m String := do
  let settings := applyRequest settings request
  let engine ← loadEngine settings request.definitions
  let engine ← (withStoredTables settings.storage.tables engine : m _)
  let text ← requireFile request.recording (.recordingNotRead request.recording)
  let some flights := Replay.readRecording? text | throw .invalidRecording
  let plan ← (planOf settings.training : m _)
  let sources ← (drawSources plan flights.length : m _)
  match Replay.train flights plan sources engine with
  | (.error error, _) => throw (.failed error)
  | (.ok report, engine) =>
    let written ← if request.keepsTables then pure 0
      else storeTables settings.storage.tables engine
    return replaySummary report engine written

def showSettings (settings : Settings) : Answer :=
  match settings.write? with
  | some text => ⟨settings.heading ++ text, none⟩
  | none => ⟨settings.heading, some .settingTooLarge⟩

def runCommand (settings : Settings) : Command → m Answer
  | .check named => return .ofExcept (← (checkDefinitions settings named).run)
  | .stock => return ⟨stockDocuments, none⟩
  | .evaluate formula fields snapshot =>
    return .ofExcept (← (evaluateFormula formula fields snapshot).run)
  | .replay request => return .ofExcept (← (replayRecording settings request).run)
  | .inspect path top named => return .ofExcept (← (inspectTable settings path top named).run)
  | .settings => return showSettings settings

def serve (invocation : Invocation) : m Answer := do
  let environment ← readVariables
  match ← (readSettings invocation.settings environment).run with
  | .error failure => return ⟨"", some failure⟩
  | .ok settings => runCommand settings invocation.command

def respond (arguments : List String) : m Answer :=
  match readArguments arguments with
  | .ok invocation => serve invocation
  | .error (.help names) => return ⟨help names, none⟩
  | .error .version => return ⟨version, none⟩
  | .error .misuse => return ⟨"", some .misuse⟩

end Autoland.Console
