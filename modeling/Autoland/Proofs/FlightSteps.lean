import Autoland.Proofs.AxisNames
import Autoland.Proofs.Decisions

/-! Flights: which steps yield an outcome whose actions belong to the definitions of their
states. -/

namespace Autoland

open Problem Learning

def Succeeds {ε α : Type} (fits : α → Prop) (result : Except ε α) : Prop :=
  ∃ value, result = .ok value ∧ fits value

theorem succeeds_ok {ε α : Type} {fits : α → Prop} {value : α} :
    Succeeds fits (.ok value : Except ε α) ↔ fits value := by
  constructor
  · intro success
    rcases success with ⟨_, same, fitting⟩
    cases same
    exact fitting
  · intro fitting
    exact ⟨value, rfl, fitting⟩

theorem not_succeeds_error {ε α : Type} {fits : α → Prop} {error : ε} :
    ¬ Succeeds fits (.error error : Except ε α) := by
  intro success
  rcases success with ⟨_, failed, _⟩
  cases failed

variable {ν φ : Type}

def State.key (state : State ν) : String := Axis.tag state.definition.name state.axis

theorem State.axis_eq_of_key (state : State ν) (definition : Definition ν) (axis : Option Axis)
    (own : state.definition = definition) (keyed : state.key = Axis.tag definition.name axis) :
    state.axis = axis := by
  rw [State.key, own] at keyed
  exact Axis.tag_axis_inj _ _ _ keyed

namespace Learning

structure Trajectory.Sound (definitions : List (Definition ν)) (trajectory : Trajectory ν) :
    Prop where
  member : trajectory.definition ∈ definitions
  key : ∃ axis, trajectory.key = Axis.tag trajectory.definition.name axis
  states : ∀ decision ∈ trajectory.history,
    decision.state.definition = trajectory.definition ∧ decision.state.key = trajectory.key
  actions : ∀ decision ∈ trajectory.history, decision.action.definition = trajectory.definition
  indices : ∀ decision ∈ trajectory.history, decision.index < trajectory.definition.tableSize

theorem Trajectory.Sound.one_axis {definitions : List (Definition ν)} {trajectory : Trajectory ν}
    (sound : trajectory.Sound definitions) :
    ∃ axis, ∀ decision ∈ trajectory.history, decision.state.axis = axis := by
  rcases sound.key with ⟨axis, named⟩
  refine ⟨axis, ?_⟩
  intro decision member
  rcases sound.states decision member with ⟨own, keyed⟩
  exact decision.state.axis_eq_of_key trajectory.definition axis own (keyed.trans named)

theorem Trajectory.sound_empty (definitions : List (Definition ν)) (state : State ν)
    (member : state.definition ∈ definitions) :
    (Trajectory.empty state.key state.definition).Sound definitions where
  member := member
  key := ⟨state.axis, rfl⟩
  states _ inside := nomatch inside
  actions _ inside := nomatch inside
  indices _ inside := nomatch inside

end Learning

namespace Run

/-- Whether the trajectory that a state finds, if it finds one, is of its own definition. -/
def Owned (run : Run ν φ) (state : State ν) : Prop :=
  ∀ trajectory, run.episode.trajectory? state.key = some trajectory →
    trajectory.definition = state.definition

theorem trajectory?_eq_some (episode : Episode ν) (key : String) (trajectory : Trajectory ν)
    (found : episode.trajectory? key = some trajectory) :
    trajectory ∈ episode.trajectories ∧ trajectory.key = key := by
  have named := List.find?_some found
  rw [decide_eq_true_iff] at named
  exact ⟨List.mem_of_find?_eq_some found, named⟩

theorem meet_finds (run : Run ν φ) (state : State ν) :
    ∃ trajectory,
      (run.episode.meet state.key state.definition).trajectory? state.key = some trajectory ∧
        (trajectory.definition = state.definition ↔ run.Owned state) := by
  unfold Episode.meet Owned
  cases found : run.episode.trajectory? state.key with
  | some trajectory =>
      refine ⟨trajectory, found, ?_⟩
      constructor
      · intro own held same
        cases same
        exact own
      · intro own
        exact own trajectory rfl
  | none =>
      refine ⟨.empty state.key state.definition, ?_, ?_⟩
      · rw [Episode.trajectory?, List.find?_cons_of_pos]
        exact decide_eq_true rfl
      · constructor
        · intro _ held same
          cases same
        · exact fun _ => rfl

variable {α β γ : Type}

def chain (first : Except Error α × Run ν φ) (next : α → Run ν φ → Except Error β × Run ν φ)
    (join : α → β → γ) : Except Error γ × Run ν φ :=
  match first with
  | (.error error, run) => (.error error, run)
  | (.ok value, run) =>
    match next value run with
    | (.error error, run) => (.error error, run)
    | (.ok other, run) => (.ok (join value other), run)

def Afterwards (first : Except Error α × Run ν φ) (further : α → Run ν φ → Prop) : Prop :=
  match first with
  | (.error _, _) => True
  | (.ok value, run) => further value run

theorem afterwards_of_ok (first : Except Error α × Run ν φ) (further : α → Run ν φ → Prop)
    (succeeded : ∀ value between, first = (.ok value, between) → further value between) :
    Afterwards first further := by
  rcases first with ⟨result, between⟩
  cases result with
  | error error => trivial
  | ok value => exact succeeded value between rfl

variable [Scalar ν]

/-- What every flight on an engine ensures, if a word counts the buckets of every field. -/
structure Sound (run : Run ν φ) : Prop where
  engine : run.engine.Sound
  counted : ∀ definition ∈ run.engine.definitions, Grid.Regular definition.layout.ranges
  trajectories : ∀ trajectory ∈ run.episode.trajectories,
    trajectory.Sound run.engine.definitions

structure Keeps (before after : Run ν φ) : Prop where
  sound : after.Sound
  shape : Engine.SameShape before.engine after.engine

theorem Keeps.trans {first second third : Run ν φ} (one : Keeps first second)
    (two : Keeps second third) : Keeps first third :=
  ⟨two.sound, one.shape.trans two.shape⟩

theorem Sound.keeps {run after : Run ν φ} (sound : run.Sound)
    (shape : Engine.SameShape run.engine after.engine)
    (trajectories : ∀ trajectory ∈ after.episode.trajectories,
      trajectory.Sound run.engine.definitions) : Keeps run after := by
  refine ⟨⟨sound.engine.of_sameShape _ shape, ?_, ?_⟩, shape⟩
  · rw [shape.definitions]
    exact sound.counted
  · rw [shape.definitions]
    exact trajectories

theorem Sound.refl {run : Run ν φ} (sound : run.Sound) : Keeps run run := ⟨sound, .refl _⟩

theorem Sound.meanwhile {run : Run ν φ} (sound : run.Sound) (other : Engine ν φ)
    (shape : Engine.SameShape run.engine other) : Sound ⟨other, run.episode⟩ :=
  have kept : Keeps run ⟨other, run.episode⟩ := sound.keeps shape sound.trajectories
  kept.sound

/-- Whether an operation keeps a flight, and yields a result that fits exactly under a
condition. -/
structure Yields (run : Run ν φ) (outcome : Except Error α × Run ν φ)
    (fits : α → Prop) (condition : Prop) : Prop where
  keeps : Keeps run outcome.2
  exactly : Succeeds fits outcome.1 ↔ condition

theorem Yields.chain {run : Run ν φ} {first : Except Error α × Run ν φ}
    {next : α → Run ν φ → Except Error β × Run ν φ} {join : α → β → γ} {fits : α → Prop}
    {more : β → Prop} {whole : γ → Prop} {condition : Prop} {further : α → Run ν φ → Prop}
    (head : Yields run first fits condition)
    (tail : ∀ value between, first = (.ok value, between) →
      Yields between (next value between) more (further value between))
    (joins : ∀ value between other, first = (.ok value, between) →
      (whole (join value other) ↔ fits value ∧ more other)) :
    Yields run (Run.chain first next join) whole
      (condition ∧ Afterwards first further) := by
  rw [← head.exactly]
  unfold Run.chain Afterwards
  rcases first with ⟨result, between⟩
  cases result with
  | error error =>
      exact ⟨head.keeps, iff_of_false not_succeeds_error fun both => not_succeeds_error both.1⟩
  | ok value =>
      have rest := tail value between rfl
      dsimp only
      rw [← rest.exactly]
      cases outcome : next value between with
      | mk result after =>
          rw [outcome] at rest
          have kept := head.keeps.trans rest.keeps
          cases result with
          | error error =>
              exact ⟨kept, iff_of_false not_succeeds_error fun both => not_succeeds_error both.2⟩
          | ok other =>
              refine ⟨kept, ?_⟩
              rw [succeeds_ok, succeeds_ok, succeeds_ok]
              exact joins value between other rfl

theorem meet_keeps (run : Run ν φ) (sound : run.Sound) (state : State ν)
    (member : state.definition ∈ run.engine.definitions) :
    Keeps run { run with episode := run.episode.meet state.key state.definition } := by
  apply sound.keeps
  · exact .refl _
  · intro trajectory inside
    unfold Episode.meet at inside
    split at inside
    · exact sound.trajectories trajectory inside
    · rcases List.mem_cons.mp inside with rfl | inside
      · exact Trajectory.sound_empty _ state member
      · exact sound.trajectories trajectory inside

theorem replace_keeps (run : Run ν φ) (sound : run.Sound) (trajectory : Trajectory ν)
    (regular : trajectory.Sound run.engine.definitions) :
    Keeps run { run with episode := run.episode.replace trajectory } := by
  apply sound.keeps
  · exact .refl _
  · intro other inside
    rcases List.mem_map.mp inside with ⟨old, member, rfl⟩
    split
    · exact regular
    · exact sound.trajectories old member

variable [RankedValue φ] [Stored ν φ]

theorem learnStep_spec (run : Run ν φ) (sound : run.Sound) (trajectory : Trajectory ν)
    (regular : trajectory.Sound run.engine.definitions) :
    ∃ after, learnStep run trajectory trajectory.definition = (.ok (), after) ∧
      Keeps run after := by
  unfold learnStep
  split
  · obtain ⟨store, size, result⟩ := sound.engine.withStore_result
      (temporalDifference trajectory.definition trajectory) _ regular.member
    have shape := Engine.withStore_sameShape trajectory.definition.name
      (temporalDifference trajectory.definition trajectory) run.engine
      (temporalDifference_sameShape trajectory.definition trajectory)
    have inside := regular.indices
    rw [← size] at inside
    rcases temporalDifference_eq_ok trajectory store inside with ⟨learned, learns⟩
    rw [learns] at result
    cases worked : run.engine.withStore trajectory.definition.name
        (temporalDifference trajectory.definition trajectory) with
    | mk outcome engine =>
        rw [worked] at result shape
        cases result
        cases learned with
        | false => exact ⟨_, rfl, sound.keeps shape sound.trajectories⟩
        | true =>
            exact ⟨_, rfl, sound.keeps ⟨shape.definitions, shape.tables⟩ sound.trajectories⟩
  · exact ⟨run, rfl, sound.refl⟩

theorem record_spec (run : Run ν φ) (sound : run.Sound) (trajectory : Trajectory ν)
    (regular : trajectory.Sound run.engine.definitions) (state : State ν) (action : Action ν)
    (member : state.definition ∈ run.engine.definitions) (keyed : trajectory.key = state.key)
    (own : action.definition = state.definition) :
    Yields run (run.record trajectory state action) (fun _ => True)
      (trajectory.definition = state.definition) := by
  by_cases same : trajectory.definition = state.definition
  · rcases indexOf_eq_ok (sound.engine.definitions _ regular.member)
      (sound.counted _ regular.member) state action same.symm (own.trans same.symm)
      with ⟨index, below, found⟩
    by_cases repeated : trajectory.last?.any (·.state.same state)
    · simp only [record, Trajectory.record, found, repeated, if_true]
      exact ⟨sound.refl, iff_of_true (succeeds_ok.mpr trivial) same⟩
    · simp only [record, Trajectory.record, found, if_neg repeated]
      have longer : Trajectory.Sound run.engine.definitions
          { trajectory with history := ⟨state, action, index⟩ :: trajectory.history } := by
        refine ⟨regular.member, regular.key, ?_, ?_, ?_⟩
        · exact List.forall_mem_cons.mpr ⟨⟨same.symm, keyed.symm⟩, regular.states⟩
        · exact List.forall_mem_cons.mpr ⟨own.trans same.symm, regular.actions⟩
        · exact List.forall_mem_cons.mpr ⟨below, regular.indices⟩
      have replaced := replace_keeps run sound _ longer
      rcases learnStep_spec _ replaced.sound _ longer with ⟨after, learned, kept⟩
      rw [← same, learned]
      exact ⟨replaced.trans kept, iff_of_true (succeeds_ok.mpr trivial) rfl⟩
  · -- another definition has another name, and the index of its states is refused
    have foreign : state.definition.name ≠ trajectory.definition.name := by
      intro named
      exact same (sound.engine.eq_of_name _ _ regular.member member named.symm)
    simp only [record, Trajectory.record, indexOf_eq_error state action foreign]
    exact ⟨sound.refl, iff_of_false not_succeeds_error same⟩

theorem decideNew_spec (run : Run ν φ) (sound : run.Sound) (trajectory : Trajectory ν)
    (regular : trajectory.Sound run.engine.definitions) (state : State ν)
    (member : state.definition ∈ run.engine.definitions) (keyed : trajectory.key = state.key) :
    Yields run (run.decideNew trajectory state) (fun action => action.definition = state.definition)
      (trajectory.definition = state.definition) := by
  have settled := sound.engine.definitions _ member
  rcases sound.engine.store_eq_ok _ member with ⟨store, found, size⟩
  have own : ∀ action ∈ candidates state.definition state run.engine.isActive,
      action.definition = state.definition :=
    definition_of_candidate state run.engine.isActive
  rcases select_eq_ok state.definition.params.exploration store state
    (candidates state.definition state run.engine.isActive) run.episode.source
    (candidates_nonempty settled state _)
    (learnedValues_eq_ok settled (sound.counted _ member) store size state rfl _ own)
    with ⟨action, candidate, source, picked⟩
  have drawn : Keeps run (countDecision { run with episode.source := source }) :=
    sound.keeps ⟨rfl, rfl⟩ sound.trajectories
  have recorded := record_spec _ drawn.sound trajectory regular state action member keyed
    (own action candidate)
  simp only [decideNew, found, picked]
  cases outcome : (countDecision { run with episode.source := source }).record trajectory state
      action with
  | mk result after =>
      rw [outcome] at recorded
      rw [← recorded.exactly]
      cases result with
      | error error =>
          exact ⟨drawn.trans recorded.keeps, iff_of_false not_succeeds_error not_succeeds_error⟩
      | ok _ =>
          exact ⟨drawn.trans recorded.keeps,
            iff_of_true (succeeds_ok.mpr (own action candidate)) (succeeds_ok.mpr trivial)⟩

theorem decide_of_found (run : Run ν φ) (state : State ν) (trajectory : Trajectory ν)
    (found : (run.episode.meet state.key state.definition).trajectory? state.key =
      some trajectory) :
    run.decide state =
      match reusable? state trajectory.last? with
      | some action =>
        (.ok action, { run with episode := run.episode.meet state.key state.definition })
      | none =>
        decideNew { run with episode := run.episode.meet state.key state.definition } trajectory
          state := by
  unfold decide
  dsimp only
  rw [← State.key, found]
  rfl

/-- A decision succeeds, with an action of the definition of its state, exactly where the state
finds a trajectory of its own or none. -/
theorem decide_spec (run : Run ν φ) (sound : run.Sound) (state : State ν)
    (member : state.definition ∈ run.engine.definitions) :
    Yields run (run.decide state) (fun action => action.definition = state.definition)
      (run.Owned state) := by
  have met := meet_keeps run sound state member
  rcases meet_finds run state with ⟨trajectory, found, exactly⟩
  rcases trajectory?_eq_some _ _ _ found with ⟨inside, keyed⟩
  have regular := met.sound.trajectories trajectory inside
  rw [← exactly]
  rw [run.decide_of_found state trajectory found]
  cases reuse : reusable? state trajectory.last? with
  | none =>
      have decided := decideNew_spec _ met.sound trajectory regular state member keyed
      exact ⟨met.trans decided.keeps, decided.exactly⟩
  | some action =>
      -- what is reused is of the trajectory's definition, whichever that is
      rcases Option.bind_eq_some_iff.mp reuse with ⟨last, latest, taken⟩
      have recorded : last ∈ trajectory.history := List.mem_of_head? latest
      split at taken
      · cases taken
        rw [← regular.actions last recorded]
        exact ⟨met, succeeds_ok⟩
      · cases taken

end Run

end Autoland
