import Autoland.Proofs.WorkLoop

/-! The states of a step as a tree. They stand in the order of a breadth-first expansion: the root,
then for each state in turn the children that its action takes. -/

namespace Autoland

open Problem Learning

variable {ν φ : Type}

namespace Engine

def Allows (engine : Engine ν φ) : Option Axis → Prop
  | none => True
  | some axis =>
    engine.dimension = .three ∨ engine.dimension = .two ∧ axis = engine.config.planarAxis

/-- Whether a selector takes a child along an axis: its bucket is the id of a loaded child. -/
structure Takes (engine : Engine ν φ) (definition : Definition ν) (action : Action ν)
    (selector : Selector ν) (child : Definition ν) (axis : Option Axis) : Prop where
  loaded : ∃ id name, action.bucket? selector.field = some id ∧
    definition.childName? id = some name ∧ engine.definition name = .ok child
  along : axis = selector.childAxis action.axis definition.passDownSymmetry
  allowed : engine.Allows axis

inductive Offspring (engine : Engine ν φ) (definition : Definition ν) (action : Action ν) :
    List (Selector ν) → List (Definition ν × Option Axis) → Prop where
  | nil : Offspring engine definition action [] []
  | taken (selector : Selector ν) (selectors : List (Selector ν)) (child : Definition ν)
      (axis : Option Axis) (children : List (Definition ν × Option Axis))
      (takes : engine.Takes definition action selector child axis)
      (rest : Offspring engine definition action selectors children) :
      Offspring engine definition action (selector :: selectors) ((child, axis) :: children)
  | passed (selector : Selector ν) (selectors : List (Selector ν))
      (children : List (Definition ν × Option Axis))
      (idle : ∀ child axis, ¬ engine.Takes definition action selector child axis)
      (rest : Offspring engine definition action selectors children) :
      Offspring engine definition action (selector :: selectors) children

variable (engine : Engine ν φ) (definition : Definition ν) (action : Action ν)

theorem follows_iff (axis : Option Axis) : engine.follows axis = true ↔ engine.Allows axis := by
  cases axis with
  | none => simp [follows, Allows]
  | some axis => cases sized : engine.dimension <;> simp [follows, Allows, sized]

theorem definition_eq_ok_iff (name : String) (child : Definition ν) :
    engine.definition name = .ok child ↔ find? engine.definitions name = some child := by
  unfold Engine.definition
  cases find? engine.definitions name <;> simp

theorem child?_eq_some_iff (selector : Selector ν) (child : Definition ν) (axis : Option Axis) :
    engine.child? definition action selector = some (child, axis) ↔
      engine.Takes definition action selector child axis := by
  simp only [child?, Option.bind_eq_bind, Option.bind_eq_some_iff]
  constructor
  · intro offered
    obtain ⟨id, chosen, name, named, other, found, taken⟩ := offered
    split at taken
    · rename_i followed
      cases taken
      exact ⟨⟨id, name, chosen, named, (engine.definition_eq_ok_iff name child).mpr found⟩, rfl,
        (engine.follows_iff _).mp followed⟩
    · cases taken
  · intro takes
    obtain ⟨⟨id, name, chosen, named, found⟩, rfl, allowed⟩ := takes
    refine ⟨id, chosen, name, named, child, (engine.definition_eq_ok_iff name child).mp found, ?_⟩
    rw [if_pos ((engine.follows_iff _).mpr allowed)]

theorem offspring_filterMap (selectors : List (Selector ν)) :
    engine.Offspring definition action selectors
      (selectors.filterMap (engine.child? definition action)) := by
  induction selectors with
  | nil => exact .nil
  | cons selector selectors ih =>
      cases offered : engine.child? definition action selector with
      | none =>
          rw [List.filterMap_cons_none offered]
          apply Offspring.passed selector selectors _ _ ih
          intro child axis takes
          have taken := (engine.child?_eq_some_iff definition action selector child axis).mpr takes
          rw [offered] at taken
          cases taken
      | some entry =>
          rw [List.filterMap_cons_some offered]
          exact .taken selector selectors entry.1 entry.2 _
            ((engine.child?_eq_some_iff definition action selector _ _).mp offered) ih

end Engine

namespace Work

section Expansion

variable [Scalar ν] [Elementary ν]

/-- Whether the states that were decided or wait are the root's, followed by the children of the
decided ones in order. -/
structure Expands (engine : Engine ν φ) (snapshot : Flight.Snapshot ν) (work : Work ν φ) :
    Prop where
  plan : Engine.SamePlan engine work.run.engine
  ordered : work.decided.map Prod.fst ++ work.waiting =
    State.ofSnapshot engine.root snapshot none ::
      work.decided.flatMap fun node => engine.childStates snapshot [node.1] [node.2]

variable [RankedValue φ] [Stored ν φ]

theorem Expands.turn {engine : Engine ν φ} {snapshot : Flight.Snapshot ν} {work next : Work ν φ}
    (expands : Expands engine snapshot work) (turn : Turn snapshot work next) :
    Expands engine snapshot next := by
  cases turn with
  | decide run after decided state waiting action taken =>
      have learned := run.decide_samePlan state
      rw [taken] at learned
      have plan := expands.plan.trans learned
      refine ⟨plan, ?_⟩
      -- Children come from definitions and settings, which learning leaves alone.
      have born : after.engine.childStates snapshot [state] [action] =
          engine.childStates snapshot [state] [action] := by
        simp [Engine.childStates, Engine.children_of_samePlan plan]
      calc (decided ++ [(state, action)]).map Prod.fst ++
            (waiting ++ after.engine.childStates snapshot [state] [action])
          = (decided.map Prod.fst ++ state :: waiting) ++
              engine.childStates snapshot [state] [action] := by simp [born]
        _ = _ := by
            rw [expands.ordered, List.flatMap_append, List.flatMap_singleton, List.cons_append]

theorem expands_of_reached (run : Run ν φ) (snapshot : Flight.Snapshot ν) (work : Work ν φ)
    (reached : Reached run snapshot work) : Expands run.engine snapshot work := by
  induction reached with
  | refl => exact ⟨.refl run.engine, rfl⟩
  | tail _ turn ih => exact ih.turn turn

end Expansion

end Work

namespace Run

variable [Scalar ν] [Elementary ν] [RankedValue φ] [Stored ν φ]

theorem frozen_of_step (run : Run ν φ) (snapshot : Flight.Snapshot ν) (outcome : Outcome ν)
    (stepped : (run.step snapshot).1 = .ok outcome) :
    outcome.states.isFrozen ∧ outcome.actions.isFrozen := by
  unfold step at stepped
  dsimp only at stepped
  split at stepped
  · cases stepped
  · cases stepped
    exact ⟨rfl, rfl⟩

/-- The states of a step are the breadth-first expansion of the root: the root without an axis, then
for each state in turn the loaded children that its action takes along allowed axes. Each is made
from the snapshot, and has an action. -/
theorem outcome_is_breadth_first (run : Run ν φ) (snapshot : Flight.Snapshot ν)
    (outcome : Outcome ν) (stepped : (run.step snapshot).1 = .ok outcome) :
    outcome.states.isFrozen ∧ outcome.actions.isFrozen ∧
      outcome.states.members.length = outcome.actions.members.length ∧
      outcome.states.root? = some (State.ofSnapshot run.engine.root snapshot none) ∧
      (∀ state ∈ outcome.states.members,
        state = State.ofSnapshot state.definition snapshot state.axis) ∧
      ∃ children, List.Forall₂ (fun node => run.engine.Offspring node.1.definition node.2
          node.1.definition.selectors)
        (outcome.states.members.zip outcome.actions.members) children ∧
        (outcome.states.members.map fun state => (state.definition, state.axis)) =
          (run.engine.root, none) :: children.flatten := by
  obtain ⟨last, reached, width, _⟩ :=
    Work.reached_of_step run (run.step snapshot).2 snapshot outcome (Prod.ext stepped rfl)
  have expands := Work.expands_of_reached run snapshot _ reached
  have made : ∀ (definition : Definition ν) (axis : Option Axis),
      (State.ofSnapshot definition snapshot axis).definition = definition ∧
        (State.ofSnapshot definition snapshot axis).axis = axis :=
    fun definition axis => State.ofValues_owner definition snapshot.fieldList axis
  let nodes := outcome.states.members.zip outcome.actions.members
  let entries := (run.engine.root, none) ::
    nodes.flatMap fun node => run.engine.children node.1.definition node.2
  have states : outcome.states.members =
      entries.map fun entry => State.ofSnapshot entry.1 snapshot entry.2 := by
    have ordered := expands.ordered
    rw [List.append_nil, List.map_fst_zip width.le] at ordered
    simpa [entries, nodes, Engine.childStates, List.map_flatMap] using ordered
  obtain ⟨frozen, settled⟩ := run.frozen_of_step snapshot outcome stepped
  refine ⟨frozen, settled, width, by rw [Coupled.root?, states]; rfl, ?_,
    nodes.map fun node => run.engine.children node.1.definition node.2, ?_, ?_⟩
  · intro state member
    rw [states] at member
    obtain ⟨entry, _, rfl⟩ := List.mem_map.mp member
    rw [(made entry.1 entry.2).1, (made entry.1 entry.2).2]
  · rw [List.forall₂_map_right_iff, List.forall₂_same]
    intro node _
    exact run.engine.offspring_filterMap node.1.definition node.2 _
  · rw [states, List.map_map, ← List.flatMap_def]
    have owners : ((fun state : State ν => (state.definition, state.axis)) ∘
        fun entry => State.ofSnapshot entry.1 snapshot entry.2) = id := by
      funext entry
      simp [made]
    rw [owners, List.map_id]

def nestedChildren : List (Document Float) :=
  [{ Document.blank with
      name := "root"
      selectors := [⟨"spare", ["absent"], []⟩, ⟨"tiltX", ["tilt"], []⟩, ⟨"tiltY", ["tilt"], []⟩] },
    { Document.blank with
      name := "tilt"
      priority := 1
      passDownSymmetry := true
      selectors := [⟨"reach", ["reacher"], []⟩] },
    { Document.blank with name := "reacher", priority := 2 }]

theorem outcome_is_breadth_first_nested :
    ∃ fresh : Engine Float Float32,
      Engine.build nestedChildren { Config.standard with dimension := .two } = .ok fresh ∧
      ∃ outcome, (step ⟨fresh, .start (.ofSeed 1)⟩ .atRest).1 = .ok outcome ∧
        (outcome.states.members.map fun state => (state.definition.name, state.axis)) =
          [("root", none), ("tilt", some .x), ("reacher", some .x)] ∧
        ∃ children, List.Forall₂ (fun node => fresh.Offspring node.1.definition node.2
            node.1.definition.selectors)
          (outcome.states.members.zip outcome.actions.members) children ∧
          (outcome.states.members.map fun state => (state.definition, state.axis)) =
            (fresh.root, none) :: children.flatten := by
  have facts : (Engine.build nestedChildren { Config.standard with dimension := .two }).toOption.any
      (fun fresh : Engine Float Float32 =>
        (step ⟨fresh, .start (.ofSeed 1)⟩ .atRest).1.toOption.any fun outcome =>
          (outcome.states.members.map fun state => (state.definition.name, state.axis)) ==
            [("root", none), ("tilt", some .x), ("reacher", some .x)]) = true := by
    decide +kernel
  obtain ⟨fresh, made, checked⟩ := (Option.any_eq_true _ _).mp facts
  obtain ⟨outcome, stepped, listed⟩ := (Option.any_eq_true _ _).mp checked
  have succeeds := eq_ok_of_toOption stepped
  obtain ⟨_, _, _, _, _, expanded⟩ :=
    outcome_is_breadth_first ⟨fresh, .start (.ofSeed 1)⟩ .atRest outcome succeeds
  exact ⟨fresh, eq_ok_of_toOption made, outcome, succeeds, eq_of_beq listed, expanded⟩

end Run

end Autoland
