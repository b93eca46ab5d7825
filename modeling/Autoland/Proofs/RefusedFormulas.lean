import Autoland.Proofs.Finalization
import Autoland.Proofs.KeptFormulas

/-! Formulas that do not compile. A document is finalized as it is without them: it is refused with
the same error, or makes the same definition. No other formula decides on an error either, or shows
in anything but its own place. -/

namespace Autoland

namespace Formula.Compiler

variable {ν : Type} [Scalar ν] [Elementary ν]

def reads? (compiler : Compiler ν) (formula : String) : Option (Expression ν) :=
  (compiler.compile formula).1.toOption.map (·.expression)

def accepts (compiler : Compiler ν) (formula : String) : Bool :=
  (compiler.reads? formula).isSome

theorem reads?_eq (compiler : Compiler ν) (formula : String) :
    compiler.reads? formula =
      match compiler.known.lookup (stripped formula) with
      | some shared => some shared.expression
      | none => (Expression.parse compiler.operators formula).toOption := by
  unfold reads?
  rcases compile_cases compiler formula with
    ⟨shared, held, kept⟩ | ⟨unknown, ⟨error, refused, kept⟩ | ⟨expression, fresh, kept⟩⟩
  · rw [kept, held]
    rfl
  · rw [kept, unknown, refused]
    rfl
  · rw [kept, unknown, fresh]
    rfl

/-- What is compiled before a formula shows in nothing that the formula compiles to. -/
theorem reads?_compile (compiler : Compiler ν) (before : String) :
    (compiler.compile before).2.reads? = compiler.reads? := by
  funext formula
  rcases compile_cases compiler before with
    ⟨_, _, kept⟩ | ⟨unknown, ⟨_, _, kept⟩ | ⟨expression, fresh, kept⟩⟩
  · rw [kept]
  · rw [kept]
  · rw [kept, reads?_eq, reads?_eq]
    dsimp only
    rw [Autoland.lookup_cons_eq]
    by_cases same : stripped formula = stripped before
    · rw [if_pos same, same, unknown, ← parse_stripped, same, parse_stripped, fresh]
      rfl
    · rw [if_neg same]

theorem accepts_compile (compiler : Compiler ν) (before : String) :
    (compiler.compile before).2.accepts = compiler.accepts := by
  funext formula
  rw [accepts, accepts, reads?_compile]

end Formula.Compiler

namespace Problem

variable {ν : Type}

def SelectorSpec.keeping (keeps : String → Bool) (spec : SelectorSpec) : SelectorSpec :=
  { spec with rules := spec.rules.filter fun rule => keeps rule.condition }

/-- A document without the formulas that fail a test: rewards are left out, and computed fields and
rules are dropped. -/
def Document.keeping (keeps : String → Bool) (document : Document ν) : Document ν :=
  { document with
    reward := document.reward.filter keeps
    terminalReward := document.terminalReward.filter keeps
    selectors := document.selectors.map (SelectorSpec.keeping keeps)
    formulas := document.formulas.filter fun spec => keeps spec.formula }

def Definition.bare (definition : Definition ν) : Definition ν :=
  { definition with
    reward := none
    terminalReward := none
    formulas := []
    selectors := definition.selectors.map fun selector => { selector with rules := [] } }

namespace Document

section Outline

variable (keeps : String → Bool) (document : Document ν)

theorem childNames_keeping : (document.keeping keeps).childNames = document.childNames := by
  rw [childNames, childNames, keeping, List.flatMap_map]
  rfl

theorem find?_keeping (specs : List SelectorSpec) (test : SelectorSpec → Bool)
    (blind : ∀ spec, test (spec.keeping keeps) = test spec) :
    (specs.map (SelectorSpec.keeping keeps)).find? test =
      (specs.find? test).map (SelectorSpec.keeping keeps) := by
  rw [List.find?_map, show test ∘ SelectorSpec.keeping keeps = test from funext blind]

variable [Scalar ν]

theorem quantizers_keeping (outline : Outline ν) :
    (document.keeping keeps).quantizers outline = document.quantizers outline := by
  simp only [quantizers, keeping, List.filter_map, List.map_map]
  rfl

variable [Elementary ν]

theorem declaredField_keeping (isAction : Bool) (spec : FieldSpec ν) :
    (document.keeping keeps).declaredField isAction spec =
      document.declaredField isAction spec := by
  have selectors : (document.keeping keeps).selectors =
      document.selectors.map (SelectorSpec.keeping keeps) := rfl
  rw [declaredField, declaredField, childNames_keeping, selectors,
    find?_keeping _ _ _ fun _ => rfl]
  cases document.selectors.find? (·.field = spec.name) <;> rfl

theorem declareAll_keeping (isAction : Bool) (seen : List String) (specs : List (FieldSpec ν)) :
    (document.keeping keeps).declareAll isAction seen specs =
      document.declareAll isAction seen specs := by
  induction specs generalizing seen with
  | nil => rfl
  | cons spec specs ih =>
      by_cases fresh : spec.name ∈ seen
      · rw [declareAll, declareAll, if_pos fresh, if_pos fresh]
      · rw [declareAll_cons _ _ _ _ _ fresh, declareAll_cons _ _ _ _ _ fresh,
          declaredField_keeping, ih]

theorem fields_keeping : (document.keeping keeps).fields = document.fields := by
  unfold fields
  rw [declareAll_keeping, declareAll_keeping, childNames_keeping]
  rfl

theorem outline_keeping (fields : Declarations ν) (denseCap : Nat) :
    (document.keeping keeps).outline fields denseCap = document.outline fields denseCap := rfl

omit [Elementary ν] in
theorem define_keeping (outline : Outline ν) (selectors : List (Selector ν))
    (compiled : Compiled ν) :
    (document.keeping keeps).define outline selectors compiled =
      document.define outline selectors compiled := by
  rw [define, define, quantizers_keeping]
  rfl

end Outline

section Compile

variable [Scalar ν] [Elementary ν]

theorem compile?_eq (formula : String) (compiler : Formula.Compiler ν) :
    compile? formula compiler = (compiler.reads? formula, (compiler.compile formula).2) := by
  unfold compile? Formula.Compiler.reads?
  rcases compiler.compile formula with ⟨result, after⟩
  cases result <;> rfl

theorem compile?_of_refused (formula : String) (compiler : Formula.Compiler ν)
    (refused : compiler.accepts formula = false) :
    compile? formula compiler = (none, compiler) := by
  have unread : compiler.reads? formula = none := by
    simpa [Formula.Compiler.accepts] using refused
  rw [compile?_eq, unread]
  rcases compiler.compile_cases formula with
    ⟨_, _, kept⟩ | ⟨_, ⟨_, _, kept⟩ | ⟨_, _, kept⟩⟩
  · rw [kept]
  · rw [kept]
  · rw [Formula.Compiler.reads?, kept] at unread
    cases unread

section Each

variable {α β : Type} (formula : α → String) (build : α → Formula.Expression ν → β)

theorem compileEach_cons (item : α) (items : List α) (compiler : Formula.Compiler ν) :
    compileEach formula build (item :: items) compiler =
      let compiled := compile? (formula item) compiler
      let rest := compileEach formula build items compiled.2
      ((compiled.1.map (build item)).toList ++ rest.1, rest.2) := rfl

/-- Each formula is compiled as it would be on its own. -/
theorem compileEach_spec (items : List α) (compiler : Formula.Compiler ν) :
    (compileEach formula build items compiler).1 =
        items.filterMap (fun item => (compiler.reads? (formula item)).map (build item)) ∧
      (compileEach formula build items compiler).2.reads? = compiler.reads? := by
  induction items generalizing compiler with
  | nil => exact ⟨rfl, rfl⟩
  | cons item items ih =>
      -- Compiling changes what the compiler remembers, but not what it reads.
      have rest := ih (compiler.compile (formula item)).2
      rw [compiler.reads?_compile] at rest
      rw [compileEach_cons, compile?_eq]
      dsimp only
      rw [rest.1]
      refine ⟨?_, rest.2⟩
      rw [List.filterMap_cons]
      cases compiler.reads? (formula item) <;> rfl

theorem compileEach_filter (keeps : String → Bool) (items : List α) (compiler : Formula.Compiler ν)
    (all : ∀ text, compiler.accepts text = true → keeps text = true) :
    compileEach formula build (items.filter fun item => keeps (formula item)) compiler =
      compileEach formula build items compiler := by
  induction items generalizing compiler with
  | nil => rfl
  | cons item items ih =>
      rw [List.filter_cons]
      split
      · rename_i kept
        have rest := ih (compiler.compile (formula item)).2 (by rwa [compiler.accepts_compile])
        rw [compileEach_cons, compileEach_cons, compile?_eq]
        dsimp only
        rw [rest]
      · -- what is left out does not compile, and so leaves the compiler to the others as it is
        rename_i dropped
        have refused : compiler.accepts (formula item) = false :=
          Bool.eq_false_iff.mpr fun accepted => dropped (all _ accepted)
        rw [compileEach_cons, compile?_of_refused _ _ refused]
        exact ih compiler all

end Each

section Selectors

def readRules (reads? : String → Option (Formula.Expression ν)) (spec : SelectorSpec) :
    List (Rule ν) :=
  spec.rules.filterMap fun rule => (reads? rule.condition).map fun condition =>
    ⟨condition, rule.child⟩

theorem compileRules_spec (spec : SelectorSpec) (compiler : Formula.Compiler ν) :
    (compileRules spec compiler).1 = readRules compiler.reads? spec ∧
      (compileRules spec compiler).2.reads? = compiler.reads? :=
  compileEach_spec _ _ spec.rules compiler

def checkSelectors (specs : List SelectorSpec) : Except DocumentFault Unit :=
  match specs.find? (·.options.isEmpty) with
  | some spec => .error (.noOptions spec.field)
  | none => .ok ()

theorem checkSelectors_cons (spec : SelectorSpec) (specs : List SelectorSpec)
    (filled : spec.options.isEmpty = false) :
    checkSelectors (spec :: specs) = checkSelectors specs := by
  rw [checkSelectors, checkSelectors, List.find?_cons, filled]

theorem checkSelectors_keeping (keeps : String → Bool) (specs : List SelectorSpec) :
    checkSelectors (specs.map (SelectorSpec.keeping keeps)) = checkSelectors specs := by
  rw [checkSelectors, checkSelectors, find?_keeping _ _ _ fun _ => rfl]
  cases specs.find? (·.options.isEmpty) <;> rfl

variable (fields : Declarations ν)

theorem compileSelectors_refused (spec : SelectorSpec) (specs : List SelectorSpec)
    (compiler : Formula.Compiler ν) (empty : spec.options.isEmpty = true) :
    compileSelectors fields (spec :: specs) compiler =
      (.error (.noOptions spec.field), compiler) := by
  rw [compileSelectors, if_pos empty]

theorem compileSelectors_cons (spec : SelectorSpec) (specs : List SelectorSpec)
    (compiler : Formula.Compiler ν) (filled : spec.options.isEmpty = false) :
    compileSelectors fields (spec :: specs) compiler =
      let rules := compileRules spec compiler
      let rest := compileSelectors fields specs rules.2
      (rest.1.map (selectorOf fields spec rules.1 :: ·), rest.2) := by
  rw [compileSelectors, if_neg (by rw [filled]; exact Bool.false_ne_true)]
  rcases compileRules spec compiler with ⟨rules, after⟩
  dsimp only
  rcases compileSelectors fields specs after with ⟨fault | selectors, _⟩
  · rfl
  · rfl

/-- The conditions of a selector are compiled as they would be on their own, and do not decide on
whether selectors are refused. -/
theorem compileSelectors_spec (specs : List SelectorSpec) (compiler : Formula.Compiler ν) :
    (compileSelectors fields specs compiler).1 =
        (checkSelectors specs).map (fun _ => specs.map fun spec =>
          selectorOf fields spec (readRules compiler.reads? spec)) ∧
      (compileSelectors fields specs compiler).2.reads? = compiler.reads? := by
  induction specs generalizing compiler with
  | nil => exact ⟨rfl, rfl⟩
  | cons spec specs ih =>
      cases filled : spec.options.isEmpty with
      | true =>
          rw [compileSelectors_refused _ _ _ _ filled, checkSelectors, List.find?_cons, filled]
          exact ⟨rfl, rfl⟩
      | false =>
          have rules := compileRules_spec spec compiler
          have rest := ih (compileRules spec compiler).2
          rw [rules.2] at rest
          rw [compileSelectors_cons _ _ _ _ filled, checkSelectors_cons _ _ filled]
          dsimp only
          rw [rules.1, rest.1]
          refine ⟨?_, rest.2⟩
          cases checkSelectors specs <;> rfl

theorem compileSelectors_keeping (keeps : String → Bool) (specs : List SelectorSpec)
    (compiler : Formula.Compiler ν)
    (all : ∀ text, compiler.accepts text = true → keeps text = true) :
    compileSelectors fields (specs.map (SelectorSpec.keeping keeps)) compiler =
      compileSelectors fields specs compiler := by
  induction specs generalizing compiler with
  | nil => rfl
  | cons spec specs ih =>
      rw [List.map_cons]
      cases filled : spec.options.isEmpty with
      | true =>
          rw [compileSelectors_refused _ spec _ _ filled]
          exact compileSelectors_refused _ (spec.keeping keeps) _ _ filled
      | false =>
          have same : (compileRules spec compiler).2.accepts = compiler.accepts := by
            funext text
            rw [Formula.Compiler.accepts, (compileRules_spec spec compiler).2]
            rfl
          have filtered : compileRules (spec.keeping keeps) compiler = compileRules spec compiler :=
            compileEach_filter _ _ keeps spec.rules compiler all
          have rest := ih (compileRules spec compiler).2 (by rwa [same])
          rw [compileSelectors_cons _ spec _ _ filled,
            compileSelectors_cons _ (spec.keeping keeps) _ _ filled]
          dsimp only
          rw [filtered, rest]
          rfl

end Selectors

theorem compileOptional?_spec (formula : Option String) (compiler : Formula.Compiler ν) :
    (compileOptional? formula compiler).1 = formula.bind compiler.reads? ∧
      (compileOptional? formula compiler).2.reads? = compiler.reads? := by
  cases formula with
  | none => exact ⟨rfl, rfl⟩
  | some text =>
      rw [compileOptional?, compile?_eq]
      exact ⟨rfl, compiler.reads?_compile text⟩

theorem compileOptional?_filter (keeps : String → Bool) (formula : Option String)
    (compiler : Formula.Compiler ν)
    (all : ∀ text, compiler.accepts text = true → keeps text = true) :
    compileOptional? (formula.filter keeps) compiler = compileOptional? formula compiler := by
  cases formula with
  | none => rfl
  | some text =>
      rw [Option.filter_some]
      split
      · rfl
      · rename_i dropped
        have refused : compiler.accepts text = false :=
          Bool.eq_false_iff.mpr fun accepted => dropped (all _ accepted)
        rw [compileOptional?, compileOptional?, compile?_of_refused _ _ refused]
        rfl

section Formulas

variable (document : Document ν) (compiler : Formula.Compiler ν)

def readFormulas (reads? : String → Option (Formula.Expression ν)) : Compiled ν where
  formulas := document.formulas.filterMap fun spec => (reads? spec.formula).map (spec.name, ·)
  reward := document.reward.bind reads?
  terminalReward := document.terminalReward.bind reads?

theorem compileFormulas_eq :
    document.compileFormulas compiler =
      let formulas := compileEach FormulaSpec.formula (fun spec formula => (spec.name, formula))
        document.formulas compiler
      let reward := compileOptional? document.reward formulas.2
      let terminalReward := compileOptional? document.terminalReward reward.2
      (⟨formulas.1, reward.1, terminalReward.1⟩, terminalReward.2) := rfl

theorem compileFormulas_fst :
    (document.compileFormulas compiler).1 = document.readFormulas compiler.reads? := by
  have formulas := compileEach_spec FormulaSpec.formula (fun spec formula => (spec.name, formula))
    document.formulas compiler
  have reward := compileOptional?_spec document.reward
    (compileEach FormulaSpec.formula (fun spec formula => (spec.name, formula))
      document.formulas compiler).2
  rw [formulas.2] at reward
  rw [compileFormulas_eq]
  dsimp only
  rw [formulas.1, reward.1, (compileOptional?_spec _ _).1, reward.2]
  rfl

theorem compileFormulas_keeping (keeps : String → Bool)
    (all : ∀ text, compiler.accepts text = true → keeps text = true) :
    (document.keeping keeps).compileFormulas compiler = document.compileFormulas compiler := by
  have later : ∀ after : Formula.Compiler ν, after.reads? = compiler.reads? →
      ∀ text, after.accepts text = true → keeps text = true := by
    intro after same text
    rw [Formula.Compiler.accepts, same]
    exact all text
  have formulas := (compileEach_spec FormulaSpec.formula (fun spec formula => (spec.name, formula))
    document.formulas compiler).2
  have reward := (compileOptional?_spec document.reward _).2.trans formulas
  rw [compileFormulas_eq, compileFormulas_eq]
  dsimp only [keeping]
  rw [compileEach_filter _ _ keeps _ _ all,
    compileOptional?_filter keeps _ _ (later _ formulas),
    compileOptional?_filter keeps _ _ (later _ reward)]

end Formulas

section Finalize

variable (document : Document ν) (compiler : Formula.Compiler ν) (denseCap : Nat)

def definitionWith (fields : Declarations ν) (outline : Outline ν)
    (reads? : String → Option (Formula.Expression ν)) : Definition ν :=
  document.define outline
    (document.selectors.map fun spec => selectorOf fields spec (readRules reads? spec))
    (document.readFormulas reads?)

omit [Elementary ν] in
theorem bare_definitionWith (keeps : String → Bool) (fields : Declarations ν) (outline : Outline ν)
    (reads? : String → Option (Formula.Expression ν)) :
    ((document.keeping keeps).definitionWith fields outline reads?).bare =
      (document.definitionWith fields outline reads?).bare := by
  rw [definitionWith, definitionWith, define_keeping]
  simp only [Definition.bare, define, keeping, List.map_map]
  rfl

/-- The checks of a document do not depend on the formulas that are compiled between them. -/
theorem assemble_eq :
    (document.assemble compiler denseCap).1 = (do
      let fields ← document.fields
      checkSelectors document.selectors
      let outline ← document.outline fields denseCap
      return document.definitionWith fields outline compiler.reads?) := by
  rw [assemble_fst]
  refine bind_congr fun fields => ?_
  obtain ⟨made, reads⟩ := compileSelectors_spec fields document.selectors compiler
  rw [made, compileFormulas_fst, reads]
  cases checkSelectors document.selectors <;> rfl

theorem assemble_keeping (keeps : String → Bool)
    (all : ∀ text, compiler.accepts text = true → keeps text = true) :
    (document.keeping keeps).assemble compiler denseCap = document.assemble compiler denseCap := by
  have selectors : (document.keeping keeps).selectors =
      document.selectors.map (SelectorSpec.keeping keeps) := rfl
  rw [assemble, assemble, fields_keeping, selectors]
  cases document.fields with
  | error fault => rfl
  | ok fields =>
      dsimp only
      have reads := (compileSelectors_spec fields document.selectors compiler).2
      rw [compileSelectors_keeping fields keeps _ compiler all]
      generalize compileSelectors fields document.selectors compiler = compiled at reads ⊢
      rcases compiled with ⟨_ | selectors, after⟩
      · rfl
      · have later : ∀ text, after.accepts text = true → keeps text = true := by
          intro text
          rw [Formula.Compiler.accepts, reads]
          exact all text
        dsimp only
        rw [compileFormulas_keeping document after keeps later, outline_keeping]
        simp only [define_keeping]

theorem finalize_eq_definitionWith (definition : Definition ν)
    (made : (document.finalize compiler denseCap).1 = .ok definition) :
    ∃ fields outline, document.definitionWith fields outline compiler.reads? = definition := by
  rw [finalize_fst, assemble_eq] at made
  split at made
  · cases made
  · obtain ⟨fields, _, made⟩ := bind_eq_ok.mp (mapError_eq_ok.mp made)
    obtain ⟨_, _, made⟩ := bind_eq_ok.mp made
    obtain ⟨outline, _, made⟩ := bind_eq_ok.mp made
    exact ⟨fields, outline, Except.ok.inj made⟩

theorem finalize_bare (keeps : String → Bool) :
    ((document.keeping keeps).finalize compiler denseCap).1.map Definition.bare =
      (document.finalize compiler denseCap).1.map Definition.bare := by
  have named : (document.keeping keeps).name = document.name := rfl
  have selectors : (document.keeping keeps).selectors =
      document.selectors.map (SelectorSpec.keeping keeps) := rfl
  rw [finalize_fst, finalize_fst, assemble_eq, assemble_eq, named, fields_keeping, selectors,
    checkSelectors_keeping]
  split
  · rfl
  · cases document.fields with
    | error fault => rfl
    | ok fields =>
        cases checkSelectors document.selectors with
        | error fault => rfl
        | ok _ =>
            dsimp only [bind, Except.bind]
            rw [outline_keeping]
            cases document.outline fields denseCap with
            | error fault => rfl
            | ok outline =>
                exact congrArg Except.ok (document.bare_definitionWith keeps fields outline _)

theorem finalize_keeping (keeps : String → Bool)
    (all : ∀ text, compiler.accepts text = true → keeps text = true) :
    (document.keeping keeps).finalize compiler denseCap = document.finalize compiler denseCap := by
  have named : (document.keeping keeps).name = document.name := rfl
  rw [finalize, finalize, assemble_keeping _ _ _ _ all, named]

/-- Formulas that do not compile count as absent. Whatever a compiler has compiled before, a
document without them is refused with the same error or makes the same definition, and leaves the
compiler the same. No formulas at all decide on the error or on any part of the definition but
themselves. The others stand in the definition as they compile, each in its place. -/
theorem finalize_without_refused :
    (document.keeping compiler.accepts).finalize compiler denseCap =
        document.finalize compiler denseCap ∧
      (∀ keeps, ((document.keeping keeps).finalize compiler denseCap).1.map Definition.bare =
        (document.finalize compiler denseCap).1.map Definition.bare) ∧
      ∀ definition, (document.finalize compiler denseCap).1 = .ok definition →
        definition.reward = document.reward.bind compiler.reads? ∧
        definition.terminalReward = document.terminalReward.bind compiler.reads? ∧
        definition.formulas = document.formulas.filterMap (fun spec =>
          (compiler.reads? spec.formula).map (spec.name, ·)) ∧
        definition.selectors.map (·.rules) = document.selectors.map fun spec =>
          spec.rules.filterMap fun rule =>
            (compiler.reads? rule.condition).map (⟨·, rule.child⟩) := by
  refine ⟨?_, document.finalize_bare compiler denseCap, ?_⟩
  · exact document.finalize_keeping compiler denseCap _ fun _ accepted => accepted
  · intro definition made
    obtain ⟨fields, outline, rfl⟩ := document.finalize_eq_definitionWith compiler denseCap _ made
    exact ⟨rfl, rfl, rfl, List.map_map⟩

end Finalize

/-- A vehicle with a formula in each place, three of which end too early. -/
def brokenFormulas : Document Float :=
  { blank with
    name := "hover"
    reward := some "Add(1,"
    terminalReward := some "-Abs(velocityZ)"
    state := [⟨"altitude", 0.0, 2.0, some 1.0⟩]
    selectors := [⟨"next", ["land", "climb"], [⟨"Gt(altitude", "climb"⟩, ⟨"TRUE", "land"⟩]⟩]
    formulas := [⟨"altitude", "(positionZ)"⟩, ⟨"speed", "Abs(velocityZ"⟩] }

/-- The vehicle makes the definition that it makes with the other three formulas only, also with a
compiler that knows one of these. -/
theorem finalize_without_refused_three :
    let compiler : Formula.Compiler Float := (Formula.Compiler.standard.compile "TRUE").2
    let sound : Document Float := { brokenFormulas with
      reward := none
      selectors := [⟨"next", ["land", "climb"], [⟨"TRUE", "land"⟩]⟩]
      formulas := [⟨"altitude", "(positionZ)"⟩] }
    sound.finalize compiler 10 = brokenFormulas.finalize compiler 10 ∧
      ∃ definition, (brokenFormulas.finalize compiler 10).1 = .ok definition ∧
        definition.reward.isNone ∧ definition.terminalReward.isSome ∧
        definition.formulas.map (·.1) = ["altitude"] ∧
        definition.selectors.map (fun selector => selector.rules.map (·.child)) = [["land"]] := by
  intro compiler sound
  have dropped : brokenFormulas.keeping compiler.accepts = sound := by decide +kernel
  have made : (brokenFormulas.finalize compiler 10).1.toOption.isSome = true := by decide +kernel
  obtain ⟨definition, finalized⟩ := Option.isSome_iff_exists.mp made
  replace finalized := eq_ok_of_toOption finalized
  obtain ⟨same, _, parts⟩ := brokenFormulas.finalize_without_refused compiler 10
  obtain ⟨reward, terminal, formulas, rules⟩ := parts definition finalized
  rw [dropped] at same
  refine ⟨same, definition, finalized, ?_, ?_, ?_, ?_⟩
  · rw [reward]
    decide +kernel
  · rw [terminal]
    decide +kernel
  · rw [formulas]
    decide +kernel
  · have children : definition.selectors.map (fun selector => selector.rules.map (·.child)) =
        (definition.selectors.map (·.rules)).map fun rules => rules.map (·.child) := by
      rw [List.map_map]
      rfl
    rw [children, rules]
    decide +kernel

end Compile

end Document

end Problem

end Autoland
