import Autoland.Data.JsonReader
import Autoland.Data.TomlReader
import Autoland.Problem.Document
import Autoland.Text.Path

/-! Documents in definitions files: a list of them, or an object that holds one. -/

namespace Autoland.Problem

def Method.ofData? (data : Data) : Option Method :=
  match data.name? with
  | some "MC" => some .monteCarlo
  | some "mc" => some .monteCarlo
  | some "TD0" => some .temporalDifference
  | some "td0" => some .temporalDifference
  | _ => none

def FieldSpec.ofData? (data : Data) : Option (FieldSpec Float) := do
  let member ← data.record? ["name", "min", "max", "precision"]
  return {
    name := ← Data.required? member "name" Data.text?
    min := ← Data.required? member "min" Data.real?
    max := ← Data.required? member "max" Data.real?
    precision := ← Data.optional? member "precision" none (Data.orNull? Data.real?) }

def RuleSpec.ofData? (data : Data) : Option RuleSpec := do
  let member ← data.record? ["when", "child"]
  return {
    condition := ← Data.required? member "when" Data.text?
    child := ← Data.required? member "child" Data.text? }

def SelectorSpec.ofData? (data : Data) : Option SelectorSpec := do
  let member ← data.record? ["field", "options", "rules"]
  return {
    field := ← Data.required? member "field" Data.text?
    options := ← Data.required? member "options" (Data.listOf? Data.text?)
    rules := ← Data.optional? member "rules" [] (Data.listOf? RuleSpec.ofData?) }

def FormulaSpec.ofData? (data : Data) : Option FormulaSpec := do
  let member ← data.record? ["name", "formula"]
  return {
    name := ← Data.required? member "name" Data.text?
    formula := ← Data.required? member "formula" Data.text? }

def Bounds.ofData? (data : Data) : Option (Bounds Float) := do
  let member ← data.record? ["name", "min", "max"]
  return {
    name := ← Data.required? member "name" Data.text?
    min := ← Data.required? member "min" Data.real?
    max := ← Data.required? member "max" Data.real? }

def Hold.ofData? (data : Data) : Option (Hold Float) := do
  let member ← data.record? ["name", "values"]
  return {
    name := ← Data.required? member "name" Data.text?
    values := ← Data.required? member "values" (Data.listOf? Data.real?) }

namespace Document

def fieldNames : List String :=
  ["name", "methods", "priority", "reward", "terminal_reward", "discount", "step_discount", "alpha",
   "exploration", "symmetry_axes", "pass_down_symmetry", "state", "action", "children", "formulas",
   "success", "no_action"]

def ofData? (data : Data) : Option (Document Float) := do
  let member ← data.record? fieldNames
  let blank : Document Float := blank
  return {
    name := ← Data.optional? member "name" blank.name Data.text?
    methods := ← Data.optional? member "methods" blank.methods (Data.listOf? Method.ofData?)
    priority := ← Data.optional? member "priority" blank.priority
      (Data.int? (-Word.signedHalfLimit) (Word.signedHalfLimit - 1 : Nat))
    reward := ← Data.optional? member "reward" none (Data.orNull? Data.text?)
    terminalReward := ← Data.optional? member "terminal_reward" none (Data.orNull? Data.text?)
    params := {
      discount := ← Data.optional? member "discount" blank.params.discount Data.real?
      stepDiscount := ← Data.optional? member "step_discount" blank.params.stepDiscount Data.real?
      alpha := ← Data.optional? member "alpha" blank.params.alpha Data.real?
      exploration := ← Data.optional? member "exploration" blank.params.exploration Data.real? }
    symmetryAxes := ← Data.optional? member "symmetry_axes" [] (Data.listOf? Data.text?)
    passDownSymmetry := ← Data.optional? member "pass_down_symmetry" false Data.bool?
    state := ← Data.optional? member "state" [] (Data.listOf? FieldSpec.ofData?)
    action := ← Data.optional? member "action" [] (Data.listOf? FieldSpec.ofData?)
    selectors := ← Data.optional? member "children" [] (Data.listOf? SelectorSpec.ofData?)
    formulas := ← Data.optional? member "formulas" [] (Data.listOf? FormulaSpec.ofData?)
    success := ← Data.optional? member "success" [] (Data.listOf? Bounds.ofData?)
    holds := ← Data.optional? member "no_action" [] (Data.listOf? Hold.ofData?) }

def text (value : String) : Data := .text value

def real (value : Float) : Data := .real value

def orNull (value : Option String) : Data :=
  match value with
  | some value => text value
  | none => .null

def toData (document : Document Float) : Data :=
  let field := fun (spec : FieldSpec Float) => Data.object
    ([("name", text spec.name), ("min", real spec.min), ("max", real spec.max)] ++
      (spec.precision.map fun value => ("precision", real value)).toList)
  let selector := fun (spec : SelectorSpec) => Data.object
    ([("field", text spec.field), ("options", .list (spec.options.map text))] ++
      (if spec.rules.isEmpty then [] else [("rules", .list (spec.rules.map fun rule =>
        .object [("when", text rule.condition), ("child", text rule.child)]))]))
  .object [
    ("name", text document.name),
    ("methods", .list (document.methods.map fun method => text method.name)),
    ("priority", .int document.priority),
    ("reward", orNull document.reward),
    ("terminal_reward", orNull document.terminalReward),
    ("discount", real document.params.discount),
    ("step_discount", real document.params.stepDiscount),
    ("alpha", real document.params.alpha),
    ("exploration", real document.params.exploration),
    ("symmetry_axes", .list (document.symmetryAxes.map text)),
    ("pass_down_symmetry", .bool document.passDownSymmetry),
    ("state", .list (document.state.map field)),
    ("action", .list (document.action.map field)),
    ("children", .list (document.selectors.map selector)),
    ("formulas", .list (document.formulas.map fun spec =>
      .object [("name", text spec.name), ("formula", text spec.formula)])),
    ("success", .list (document.success.map fun bounds =>
      .object [("name", text bounds.name), ("min", real bounds.min), ("max", real bounds.max)])),
    ("no_action", .list (document.holds.map fun hold =>
      .object [("name", text hold.name), ("values", .list (hold.values.map real))]))]

end Document

inductive FileFormat where
  | json
  | toml
  deriving DecidableEq, Repr

def FileFormat.name : FileFormat → String
  | json => "json"
  | toml => "toml"

def FileFormat.ofPath (path : String) : FileFormat :=
  if (Path.extension? path).any fun ending => ending.toList.map Char.toLower = "toml".toList then
    toml
  else json

def documentsOfData? (data : Data) : Option (List (Document Float)) :=
  match data with
  | .list items => items.mapM Document.ofData?
  | .object members => do
    let member ← (Data.object members).record? ["definitions"]
    Data.required? member "definitions" (Data.listOf? Document.ofData?)
  | _ => none

def readDocuments (format : FileFormat) (contents : String) :
    Except Error (List (Document Float)) :=
  match format with
  | .json =>
    match (JsonReader.readSound? contents).bind documentsOfData? with
    | some documents => .ok documents
    | none => .error .serialization
  | .toml =>
    match (TomlReader.read? contents).bind documentsOfData? with
    | some documents => .ok documents
    | none => .error (.definition .unreadableToml)

end Autoland.Problem
