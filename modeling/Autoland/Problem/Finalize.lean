import Autoland.Formula.Compiler
import Autoland.Grid.Degrees
import Autoland.Problem.Definition

/-!
Documents made into definitions. The fields that a document declares are checked first. Its formulas
are then compiled, and one that does not compile counts as absent. What it takes for success and the
size of its table come last.
-/

namespace Autoland.Problem

variable {ν : Type}

structure Declared (ν : Type) where
  field : FieldSpec ν
  quantizer : Grid.Quantizer ν
  range : Grid.FieldRange

structure Declarations (ν : Type) where
  childNames : List String
  state : List (Declared ν)
  action : List (Declared ν)

/-- What a document declares, apart from its formulas. -/
structure Outline (ν : Type) extends Declarations ν where
  success : List (Bounds ν)
  layout : Grid.Layout

structure Compiled (ν : Type) where
  formulas : List (String × Formula.Expression ν)
  reward : Option (Formula.Expression ν)
  terminalReward : Option (Formula.Expression ν)

namespace Document

def childNames (document : Document ν) : List String :=
  (document.selectors.flatMap (·.options)).foldl
    (fun names option => if option ∈ names then names else names ++ [option]) []

def optionIds (names options : List String) : List Int :=
  (options.filterMap (idOf? names)).foldl
    (fun ids id => if id ∈ ids then ids else ids ++ [id]) []

variable [Scalar ν]

/-- The field of a selector that is declared as an action field: it runs over the ids of the
options. -/
def selectorField (names : List String) (selector : SelectorSpec) :
    Except DocumentFault (FieldSpec ν) :=
  let ids := selector.options.filterMap (idOf? names)
  match ids.min?, ids.max? with
  | some least, some most =>
    .ok ⟨selector.field, Scalar.ofInt least, Scalar.ofInt most, some 1.0⟩
  | _, _ => .error (.noOptions selector.field)

def declare (field : FieldSpec ν) : Declared ν :=
  let quantizer := Grid.Quantizer.forRange field.min (field.precision.getD 1.0)
  ⟨field, quantizer, ⟨field.name, quantizer.bucket field.min, quantizer.bucket field.max⟩⟩

variable [Elementary ν]

def checkField (spec : FieldSpec ν) : Except DocumentFault (FieldSpec ν) :=
  match spec.precision with
  | none => .error (.noPrecision spec.name)
  | some precision =>
    if !((0.0 : ν) < precision && Scalar.isFinite precision) then
      .error (.badPrecision spec.name (Scalar.write precision))
    else if !Scalar.isFinite spec.min || !Scalar.isFinite spec.max || spec.max < spec.min then
      .error (.badBounds spec.name (Scalar.write spec.min) (Scalar.write spec.max))
    else if Grid.isAngleName spec.name && Grid.givenInDegrees spec.min spec.max spec.precision then
      .ok ⟨spec.name, Scalar.radians spec.min, Scalar.radians spec.max,
        some (Scalar.radians precision)⟩
    else .ok spec

def declareAll (document : Document ν) (isAction : Bool) :
    List String → List (FieldSpec ν) → Except DocumentFault (List (Declared ν))
  | _, [] => .ok []
  | seen, spec :: specs => do
    if spec.name ∈ seen then .error (.duplicateField spec.name)
    else
      let field ← match document.selectors.find? (·.field = spec.name) with
        | some selector =>
          if isAction then selectorField document.childNames selector else checkField spec
        | none => checkField spec
      let rest ← declareAll document isAction (spec.name :: seen) specs
      return declare field :: rest

def fields (document : Document ν) : Except DocumentFault (Declarations ν) := do
  document.params.validate
  let state ← document.declareAll false [] document.state
  let action ← document.declareAll true (document.state.map (·.name)).reverse document.action
  return ⟨document.childNames, state, action⟩

def checkSuccess (bounds : Bounds ν) : Except DocumentFault (Bounds ν) :=
  if bounds.max < bounds.min then .error (.reversedSuccess bounds.name)
  else if Grid.isAngleName bounds.name && Grid.givenInDegrees bounds.min bounds.max none then
    .ok ⟨bounds.name, Scalar.radians bounds.min, Scalar.radians bounds.max⟩
  else .ok bounds

def outline (document : Document ν) (fields : Declarations ν) (denseCap : Nat) :
    Except DocumentFault (Outline ν) := do
  let success ← document.success.mapM checkSuccess
  match Grid.Layout.build (fields.state.map (·.range)) (fields.action.map (·.range)) denseCap with
  | .error fault => .error (.layout fault)
  | .ok layout => .ok { fields with success, layout }

/-- The names under which the grid of a declared field is found: its own, and those of its parts
along the axes if it is symmetric. -/
def gridNames (document : Document ν) (name : String) : List String :=
  if name ∈ document.symmetryAxes then [name, name ++ "X", name ++ "Y", name ++ "Z"] else [name]

/-- The grids of the fields and of the selectors that are not among them, the last declared one
first. -/
def quantizers (document : Document ν) (outline : Outline ν) :
    List (String × Grid.Quantizer ν) :=
  let declared := (outline.state ++ outline.action).flatMap fun declared =>
    (document.gridNames declared.field.name).map fun name => (name, declared.quantizer)
  let choices := (document.selectors.filter fun selector =>
    !outline.action.any (·.field.name = selector.field)).map fun selector =>
      (selector.field, (⟨1.0, 0.0⟩ : Grid.Quantizer ν))
  (declared ++ choices).reverse

def compile? (formula : String) : StateM (Formula.Compiler ν) (Option (Formula.Expression ν)) :=
  fun compiler =>
    match compiler.compile formula with
    | (.ok shared, compiler) => (some shared.expression, compiler)
    | (.error _, compiler) => (none, compiler)

def compileEach {α β : Type} (formula : α → String) (build : α → Formula.Expression ν → β) :
    List α → StateM (Formula.Compiler ν) (List β)
  | [] => pure []
  | item :: items => do
    let compiled ← compile? (formula item)
    let rest ← compileEach formula build items
    return (compiled.map (build item)).toList ++ rest

def compileOptional? : Option String →
    StateM (Formula.Compiler ν) (Option (Formula.Expression ν))
  | none => pure none
  | some formula => compile? formula

def selectorOf (fields : Declarations ν) (spec : SelectorSpec) (rules : List (Rule ν)) :
    Selector ν where
  field := spec.field
  options := spec.options
  ids := optionIds fields.childNames spec.options
  rules := rules
  indexed := fields.action.any (·.field.name = spec.field)

def compileRules (spec : SelectorSpec) : StateM (Formula.Compiler ν) (List (Rule ν)) :=
  compileEach RuleSpec.condition (fun rule condition => ⟨condition, rule.child⟩) spec.rules

def compileSelectors (fields : Declarations ν) :
    List SelectorSpec → Formula.Compiler ν →
      Except DocumentFault (List (Selector ν)) × Formula.Compiler ν
  | [], compiler => (.ok [], compiler)
  | spec :: specs, compiler =>
    if spec.options.isEmpty then (.error (.noOptions spec.field), compiler)
    else
      let (rules, compiler) := compileRules spec compiler
      match compileSelectors fields specs compiler with
      | (.error fault, compiler) => (.error fault, compiler)
      | (.ok selectors, compiler) => (.ok (selectorOf fields spec rules :: selectors), compiler)

def compileFormulas (document : Document ν) : StateM (Formula.Compiler ν) (Compiled ν) := do
  let formulas ← compileEach FormulaSpec.formula (fun spec formula => (spec.name, formula))
    document.formulas
  let reward ← compileOptional? document.reward
  let terminalReward ← compileOptional? document.terminalReward
  return { formulas, reward, terminalReward }

def define (document : Document ν) (outline : Outline ν) (selectors : List (Selector ν))
    (compiled : Compiled ν) : Definition ν where
  name := document.name
  methods := document.methods
  priority := document.priority
  params := document.params
  reward := compiled.reward
  terminalReward := compiled.terminalReward
  formulas := compiled.formulas
  symmetryAxes := document.symmetryAxes
  passDownSymmetry := document.passDownSymmetry
  state := outline.state.map (·.field)
  action := outline.action.map (·.field)
  quantizers := document.quantizers outline
  childNames := outline.childNames
  selectors := selectors
  success := outline.success
  holds := document.holds
  layout := outline.layout

def assemble (document : Document ν) (compiler : Formula.Compiler ν) (denseCap : Nat) :
    Except DocumentFault (Definition ν) × Formula.Compiler ν :=
  match document.fields with
  | .error fault => (.error fault, compiler)
  | .ok fields =>
    match compileSelectors fields document.selectors compiler with
    | (.error fault, compiler) => (.error fault, compiler)
    | (.ok selectors, compiler) =>
      -- compiled also where the bounds or the layout are refused after it
      let (compiled, compiler) := document.compileFormulas compiler
      match document.outline fields denseCap with
      | .error fault => (.error fault, compiler)
      | .ok outline => (.ok (document.define outline selectors compiled), compiler)

/-- Makes a definition of a document. The compiler keeps the formulas it has compiled, also those
of a document that is refused. -/
def finalize (document : Document ν) (compiler : Formula.Compiler ν) (denseCap : Nat) :
    Except Error (Definition ν) × Formula.Compiler ν :=
  if (Text.trim document.name.toList).isEmpty then (.error (.definition .noName), compiler)
  else match document.assemble compiler denseCap with
    | (.error fault, compiler) => (.error (.definition (.document document.name fault)), compiler)
    | (.ok definition, compiler) => (.ok definition, compiler)

end Document

def finalizeAll [Scalar ν] [Elementary ν] (denseCap : Nat) :
    List (Document ν) → Formula.Compiler ν → Except Error (List (Definition ν)) × Formula.Compiler ν
  | [], compiler => (.ok [], compiler)
  | document :: documents, compiler =>
    match document.finalize compiler denseCap with
    | (.error error, compiler) => (.error error, compiler)
    | (.ok definition, compiler) =>
      match finalizeAll denseCap documents compiler with
      | (.error error, compiler) => (.error error, compiler)
      | (.ok definitions, compiler) => (.ok (definition :: definitions), compiler)

end Autoland.Problem
