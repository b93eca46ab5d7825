import Autoland.Number.Binary
import Autoland.Proofs.FlightSteps

/-! Whole steps and whole flights: which steps yield an outcome whose actions belong to the
definitions of their states. -/

namespace Autoland

open Problem Learning

variable {ν φ : Type}

/-- Whether no definition is named like another one with the letter of an axis appended. -/
def Engine.NamesApart (engine : Engine ν φ) : Prop :=
  ∀ first ∈ engine.definitions, ∀ second ∈ engine.definitions, ∀ axis : Axis,
    first.name ≠ Axis.tag second.name (some axis)

theorem Engine.NamesApart.of_sameShape {before after : Engine ν φ} (apart : before.NamesApart)
    (shape : Engine.SameShape before after) : after.NamesApart := by
  unfold Engine.NamesApart
  rw [shape.definitions]
  exact apart

theorem Engine.Sound.namesApart_iff [Scalar ν] {engine : Engine ν φ} (sound : engine.Sound) :
    engine.NamesApart ↔
      ∀ first ∈ engine.definitions, ∀ second ∈ engine.definitions, ∀ one two : Option Axis,
        Axis.tag first.name one = Axis.tag second.name two → first = second ∧ one = two := by
  constructor
  · intro apart first member second inside one two same
    cases one with
    | none =>
        cases two with
        | none => exact ⟨sound.eq_of_name first second member inside same, rfl⟩
        | some axis => exact absurd same (apart first member second inside axis)
    | some axis =>
        cases two with
        | none => exact absurd same.symm (apart second inside first member axis)
        | some other =>
            rcases Axis.tag_some_inj _ _ axis other same with ⟨named, along⟩
            exact ⟨sound.eq_of_name first second member inside named, congrArg some along⟩
  · intro keyed first member second inside axis same
    cases (keyed first member second inside none (some axis) same).2

theorem Engine.childStates_of_parent [Scalar ν] [Elementary ν] (engine : Engine ν φ)
    (snapshot : Flight.Snapshot ν) (states : List (State ν)) (actions : List (Action ν))
    (state : State ν) (member : state ∈ engine.childStates snapshot states actions) :
    ∃ parent ∈ states, ∃ name ∈ parent.definition.childNames,
      find? engine.definitions name = some state.definition := by
  rcases List.mem_flatMap.mp member with ⟨⟨parent, action⟩, paired, born⟩
  rcases List.mem_map.mp born with ⟨⟨child, axis⟩, taken, rfl⟩
  rcases List.mem_filterMap.mp taken with ⟨selector, _, chosen⟩
  rcases Option.bind_eq_some_iff.mp chosen with ⟨id, _, chosen⟩
  rcases Option.bind_eq_some_iff.mp chosen with ⟨name, named, chosen⟩
  rcases Option.bind_eq_some_iff.mp chosen with ⟨held, found, chosen⟩
  dsimp only at chosen
  split at chosen
  · cases chosen
    refine ⟨parent, (List.of_mem_zip paired).1, name, ?_, ?_⟩
    · unfold Definition.childName? at named
      split at named
      · exact List.mem_of_getElem? named
      · cases named
    · rw [found]
      exact congrArg some (State.ofValues_owner child snapshot.fieldList _).1.symm
  · cases chosen

namespace Run

section Born

variable (definitions : List (Definition ν)) (parents children : List (State ν))
  (born : ∀ child ∈ children, ∃ parent ∈ parents, ∃ name ∈ parent.definition.childNames,
    find? definitions name = some child.definition)

include born

theorem known_of_born : ∀ child ∈ children, child.definition ∈ definitions := by
  intro child member
  rcases born child member with ⟨_, _, _, _, found⟩
  exact List.mem_of_find?_eq_some found

theorem low_of_born (rank : String → Nat)
    (falls : ∀ name definition, find? definitions name = some definition →
      ∀ child ∈ definition.childNames, (find? definitions child).isSome → rank child < rank name)
    (distinct : (definitions.map (·.name)).Nodup)
    (known : ∀ parent ∈ parents, parent.definition ∈ definitions) (bound : Nat)
    (low : ∀ parent ∈ parents, rank parent.definition.name < bound + 1) :
    ∀ child ∈ children, rank child.definition.name < bound := by
  intro child member
  rcases born child member with ⟨parent, present, name, offered, found⟩
  have above := low parent present
  have drop := falls parent.definition.name parent.definition
    (find?_of_mem definitions distinct _ (known parent present)) name offered
    (by rw [found, Option.isSome_some])
  rw [name_of_find? name child.definition found]
  omega

end Born

section Decided

variable [Scalar ν] [RankedValue φ] [Stored ν φ]

def AllDecided (property : Run ν φ → State ν → Prop) : List (State ν) → Run ν φ → Prop
  | [], _ => True
  | state :: states, run =>
    property run state ∧
      match run.decide state with
      | (.error _, _) => True
      | (.ok _, run) => AllDecided property states run

theorem decideAll_cons (state : State ν) (states : List (State ν)) (run : Run ν φ) :
    decideAll (state :: states) run =
      chain (run.decide state) (fun _ between => decideAll states between) List.cons := by
  rw [decideAll]
  unfold chain
  cases run.decide state with
  | mk result between =>
      cases result with
      | error error => rfl
      | ok action =>
          dsimp only
          cases decideAll states between with
          | mk result after => cases result <;> rfl

theorem allDecided_cons (property : Run ν φ → State ν → Prop) (state : State ν)
    (states : List (State ν)) (run : Run ν φ) :
    AllDecided property (state :: states) run =
      (property run state ∧
        Afterwards (run.decide state) fun _ between => AllDecided property states between) := by
  rw [AllDecided]
  unfold Afterwards
  cases run.decide state with
  | mk result between => cases result <;> rfl

theorem decideAll_spec (states : List (State ν)) (run : Run ν φ) (sound : run.Sound)
    (known : ∀ state ∈ states, state.definition ∈ run.engine.definitions) :
    Yields run (decideAll states run)
      (fun actions => actions.map (·.definition) = states.map (·.definition))
      (AllDecided Owned states run) := by
  induction states generalizing run with
  | nil => exact ⟨sound.refl, iff_of_true (succeeds_ok.mpr rfl) trivial⟩
  | cons state states ih =>
      rcases List.forall_mem_cons.mp known with ⟨head, rest⟩
      have first := decide_spec run sound state head
      rw [decideAll_cons, allDecided_cons]
      apply first.chain
      · intro action between decided
        rw [decided] at first
        exact ih between first.keeps.sound (first.keeps.shape.definitions ▸ rest)
      · intro action between actions _
        rw [List.map_cons, List.map_cons, List.cons.injEq]

theorem length_of_decideAll (states : List (State ν)) (run after : Run ν φ)
    (actions : List (Action ν)) (decided : decideAll states run = (.ok actions, after)) :
    actions.length = states.length := by
  induction states generalizing run actions with
  | nil =>
      cases decided
      rfl
  | cons state states ih =>
      rw [decideAll] at decided
      split at decided
      · cases decided
      · split at decided
        · cases decided
        · rename_i rest last others
          cases decided
          rw [List.length_cons, List.length_cons, ih _ _ others]

variable [Elementary ν]

def AllDecidedDown (property : Run ν φ → State ν → Prop) (snapshot : Flight.Snapshot ν) :
    Nat → List (State ν) → Run ν φ → Prop
  | _, [], _ => True
  | 0, _ :: _, _ => True
  | generations + 1, states, run =>
    AllDecided property states run ∧
      match decideAll states run with
      | (.error _, _) => True
      | (.ok actions, run) =>
        AllDecidedDown property snapshot generations
          (run.engine.childStates snapshot states actions) run

/-- Whether actions belong to the definitions of the states at their positions. -/
def Matched (decided : List (State ν) × List (Action ν)) : Prop :=
  decided.2.map (·.definition) = decided.1.map (·.definition)

theorem decideDown_cons (snapshot : Flight.Snapshot ν) (generations : Nat) (state : State ν)
    (states : List (State ν)) (run : Run ν φ) :
    decideDown snapshot (generations + 1) (state :: states) run =
      chain (decideAll (state :: states) run)
        (fun actions between => decideDown snapshot generations
          (between.engine.childStates snapshot (state :: states) actions) between)
        (fun actions below => (state :: states ++ below.1, actions ++ below.2)) := by
  rw [decideDown]
  · unfold chain
    cases decideAll (state :: states) run with
    | mk result between =>
        cases result with
        | error error => rfl
        | ok actions =>
            dsimp only
            cases decideDown snapshot generations
                (between.engine.childStates snapshot (state :: states) actions) between with
            | mk result after => cases result <;> rfl
  · intro empty
    cases empty

theorem allDecidedDown_cons (property : Run ν φ → State ν → Prop)
    (snapshot : Flight.Snapshot ν) (generations : Nat) (state : State ν)
    (states : List (State ν)) (run : Run ν φ) :
    AllDecidedDown property snapshot (generations + 1) (state :: states) run =
      (AllDecided property (state :: states) run ∧
        Afterwards (decideAll (state :: states) run) fun actions between =>
          AllDecidedDown property snapshot generations
            (between.engine.childStates snapshot (state :: states) actions) between) := by
  rw [AllDecidedDown]
  · unfold Afterwards
    cases decideAll (state :: states) run with
    | mk result between => cases result <;> rfl
  · intro empty
    cases empty

/-- The generations suffice, as the rank of a child is lower than that of its parent. -/
theorem decideDown_spec (snapshot : Flight.Snapshot ν) (definitions : List (Definition ν))
    (rank : String → Nat)
    (falls : ∀ name definition, find? definitions name = some definition →
      ∀ child ∈ definition.childNames, (find? definitions child).isSome → rank child < rank name)
    (generations : Nat) (states : List (State ν)) (run : Run ν φ) (sound : run.Sound)
    (loaded : run.engine.definitions = definitions)
    (known : ∀ state ∈ states, state.definition ∈ definitions)
    (low : ∀ state ∈ states, rank state.definition.name < generations) :
    Yields run (decideDown snapshot generations states run) Matched
      (AllDecidedDown Owned snapshot generations states run) := by
  induction generations generalizing states run with
  | zero =>
      cases states with
      | nil => exact ⟨sound.refl, iff_of_true (succeeds_ok.mpr rfl) trivial⟩
      | cons state states =>
          have negative := low state List.mem_cons_self
          omega
  | succ generations ih =>
      cases states with
      | nil => exact ⟨sound.refl, iff_of_true (succeeds_ok.mpr rfl) trivial⟩
      | cons state states =>
          have first := decideAll_spec (state :: states) run sound (loaded ▸ known)
          rw [decideDown_cons, allDecidedDown_cons]
          apply first.chain
          · intro actions between decided
            rw [decided] at first
            have same := first.keeps.shape.definitions.trans loaded
            have born := between.engine.childStates_of_parent snapshot (state :: states) actions
            rw [same] at born
            -- children have lower ranks, so that one generation less suffices for them
            exact ih _ between first.keeps.sound same (known_of_born definitions _ _ born)
              (low_of_born definitions _ _ born rank falls (loaded ▸ sound.engine.distinct) known
                generations low)
          · intro actions between below decided
            have width := length_of_decideAll _ _ _ _ decided
            unfold Matched
            rw [List.map_append, List.map_append]
            constructor
            · intro own
              exact List.append_inj own (by simp [width])
            · intro both
              rw [both.1, both.2]

/-- Whether a step succeeds, with actions that belong to the definitions of their states. -/
def Settles (run : Run ν φ) (snapshot : Flight.Snapshot ν) : Prop :=
  Succeeds (fun outcome => Matched (outcome.states.members, outcome.actions.members))
    (run.step snapshot).1

def OwnTrajectories (run : Run ν φ) (snapshot : Flight.Snapshot ν) : Prop :=
  AllDecidedDown Owned snapshot run.engine.definitions.length
    [State.ofSnapshot run.engine.root snapshot none] run

theorem step_spec (run : Run ν φ) (sound : run.Sound) (snapshot : Flight.Snapshot ν) :
    Yields run (run.step snapshot)
      (fun outcome => Matched (outcome.states.members, outcome.actions.members))
      (run.OwnTrajectories snapshot) := by
  rcases exists_rank_of_rejectCycles sound.engine.acyclic with ⟨rank, ranked⟩
  have root : (State.ofSnapshot run.engine.root snapshot none).definition = run.engine.root :=
    (State.ofValues_owner run.engine.root snapshot.fieldList none).1
  have loaded : run.engine.root ∈ run.engine.definitions := List.mem_cons_self
  have found := find?_of_mem _ sound.engine.distinct _ loaded
  have decided := decideDown_spec snapshot run.engine.definitions rank
    (fun name definition taken => (ranked name definition taken).2)
    run.engine.definitions.length [State.ofSnapshot run.engine.root snapshot none] run sound rfl
    (List.forall_mem_singleton.mpr (by rw [root]; exact loaded))
    (List.forall_mem_singleton.mpr (by rw [root]; exact (ranked _ _ found).1))
  unfold OwnTrajectories
  rw [step, ← decided.exactly]
  cases outcome : decideDown snapshot run.engine.definitions.length
      [State.ofSnapshot run.engine.root snapshot none] run with
  | mk result after =>
      rw [outcome] at decided
      have kept := decided.keeps
      cases result with
      | error error => exact ⟨kept, iff_of_false not_succeeds_error not_succeeds_error⟩
      | ok pair =>
          refine ⟨kept.trans (kept.sound.keeps ⟨rfl, rfl⟩ kept.sound.trajectories), ?_⟩
          rw [succeeds_ok]
          exact succeeds_ok.symm

/-- The flights on an engine that are driven by steps only. Between its steps other flights may
learn, and tables may be attached. -/
inductive Reached (engine : Engine ν φ) : Run ν φ → Prop where
  | start (source : Source) : Reached engine ⟨engine, .start source⟩
  | step (run : Run ν φ) (snapshot : Flight.Snapshot ν) (reached : Reached engine run) :
      Reached engine (run.step snapshot).2
  | meanwhile (run : Run ν φ) (other : Engine ν φ) (reached : Reached engine run)
      (shape : Engine.SameShape run.engine other) : Reached engine ⟨other, run.episode⟩

theorem Reached.finish {engine : Engine ν φ} {run : Run ν φ} (reached : Reached engine run)
    (other : Episode ν) (verdict : List Bool) :
    Reached engine ⟨(run.engine.finish other verdict).2, run.episode⟩ :=
  .meanwhile run _ reached (Engine.finish_sameShape run.engine other verdict)

theorem Reached.attachTable {engine : Engine ν φ} {run : Run ν φ} (reached : Reached engine run)
    (image : Table.Image φ) : Reached engine ⟨(run.engine.attachTable image).2, run.episode⟩ :=
  .meanwhile run _ reached (Engine.attachTable_sameShape run.engine image)

theorem Reached.otherStep {engine : Engine ν φ} {run : Run ν φ} (reached : Reached engine run)
    (other : Episode ν) (sound : Sound ⟨run.engine, other⟩) (snapshot : Flight.Snapshot ν) :
    Reached engine ⟨(Run.step ⟨run.engine, other⟩ snapshot).2.engine, run.episode⟩ :=
  .meanwhile run _ reached (step_spec ⟨run.engine, other⟩ sound snapshot).keeps.shape

theorem reached_sound (engine : Engine ν φ) (sound : engine.Sound)
    (counted : ∀ definition ∈ engine.definitions, Grid.Regular definition.layout.ranges)
    (run : Run ν φ) (reached : Reached engine run) :
    run.Sound ∧ run.engine.definitions = engine.definitions := by
  induction reached with
  | start source => exact ⟨⟨sound, counted, fun _ member => nomatch member⟩, rfl⟩
  | step run snapshot _ ih =>
      have kept := (step_spec run ih.1 snapshot).keeps
      exact ⟨kept.sound, kept.shape.definitions.trans ih.2⟩
  | meanwhile run other _ shape ih =>
      exact ⟨ih.1.meanwhile other shape, shape.definitions.trans ih.2⟩

end Decided

section Apart

variable [Scalar ν]

theorem owned_of_namesApart (run : Run ν φ) (sound : run.Sound) (apart : run.engine.NamesApart)
    (state : State ν) (member : state.definition ∈ run.engine.definitions) : run.Owned state := by
  intro trajectory found
  rcases trajectory?_eq_some _ _ _ found with ⟨inside, keyed⟩
  have regular := sound.trajectories trajectory inside
  rcases regular.key with ⟨axis, named⟩
  exact (sound.engine.namesApart_iff.mp apart _ regular.member _ member axis state.axis
    (named.symm.trans keyed)).1

variable [RankedValue φ] [Stored ν φ]

theorem allDecided_of_namesApart (states : List (State ν)) (run : Run ν φ) (sound : run.Sound)
    (apart : run.engine.NamesApart)
    (known : ∀ state ∈ states, state.definition ∈ run.engine.definitions) :
    AllDecided Owned states run := by
  induction states generalizing run with
  | nil => trivial
  | cons state states ih =>
      rcases List.forall_mem_cons.mp known with ⟨head, rest⟩
      have kept := (decide_spec run sound state head).keeps
      rw [allDecided_cons]
      refine ⟨owned_of_namesApart run sound apart state head, ?_⟩
      apply afterwards_of_ok
      intro action between decided
      rw [decided] at kept
      exact ih between kept.sound (apart.of_sameShape kept.shape)
        (kept.shape.definitions ▸ rest)

variable [Elementary ν]

theorem allDecidedDown_of_namesApart (snapshot : Flight.Snapshot ν) (generations : Nat)
    (states : List (State ν)) (run : Run ν φ) (sound : run.Sound)
    (apart : run.engine.NamesApart)
    (known : ∀ state ∈ states, state.definition ∈ run.engine.definitions) :
    AllDecidedDown Owned snapshot generations states run := by
  induction generations generalizing states run with
  | zero =>
      cases states with
      | nil => trivial
      | cons state states => trivial
  | succ generations ih =>
      cases states with
      | nil => trivial
      | cons state states =>
          have kept := (decideAll_spec (state :: states) run sound known).keeps
          rw [allDecidedDown_cons]
          refine ⟨allDecided_of_namesApart _ run sound apart known, ?_⟩
          apply afterwards_of_ok
          intro actions between decided
          rw [decided] at kept
          apply ih _ between kept.sound (apart.of_sameShape kept.shape)
          exact known_of_born _ _ _
            (between.engine.childStates_of_parent snapshot (state :: states) actions)

theorem settles_of_namesApart (run : Run ν φ) (sound : run.Sound) (apart : run.engine.NamesApart)
    (snapshot : Flight.Snapshot ν) : run.Settles snapshot := by
  apply (step_spec run sound snapshot).exactly.mpr
  apply allDecidedDown_of_namesApart _ _ _ run sound apart
  intro state member
  rw [List.mem_singleton.mp member, State.ofSnapshot, (State.ofValues_owner _ _ _).1]
  exact List.mem_cons_self

/-- A step succeeds, with actions that belong to the definitions of their states, exactly where
every state it decides finds a trajectory of its own or none. That is so in all flights where no
definition is named like another one with the letter of an axis appended. Fields with more buckets
than a word counts are left out, as not all of their buckets have an entry in the table. -/
theorem steps_settle_iff (documents : List (Document ν)) (config : Config) (engine : Engine ν φ)
    (built : Engine.build documents config = .ok engine) :
    (∀ definition ∈ engine.definitions,
      (∀ state action, definition.layout.index state action < definition.tableSize) ↔
        Grid.Regular definition.layout.ranges) ∧
    ((∀ definition ∈ engine.definitions, Grid.Regular definition.layout.ranges) →
      ∀ run, Reached engine run →
        (∀ snapshot, run.Settles snapshot ↔ run.OwnTrajectories snapshot) ∧
        (∀ trajectory ∈ run.episode.trajectories, ∃ axis, ∀ decision ∈ trajectory.history,
          decision.state.definition = trajectory.definition ∧ decision.state.axis = axis ∧
            decision.action.definition = trajectory.definition) ∧
        (engine.NamesApart → ∀ snapshot, run.Settles snapshot)) := by
  have sound := Engine.build_sound documents config engine built
  constructor
  · intro definition member
    exact (sound.definitions definition member).layout.index_lt_total_iff
  · intro counted run reached
    rcases reached_sound engine sound counted run reached with ⟨regular, same⟩
    refine ⟨?_, ?_, ?_⟩
    · intro snapshot
      exact (step_spec run regular snapshot).exactly
    · intro trajectory member
      have kept := regular.trajectories trajectory member
      rcases kept.one_axis with ⟨axis, along⟩
      refine ⟨axis, ?_⟩
      intro decision inside
      exact ⟨(kept.states decision inside).1, along decision inside, kept.actions decision inside⟩
    · intro apart snapshot
      apply settles_of_namesApart run regular
      unfold Engine.NamesApart
      rw [same]
      exact apart

end Apart

def twoChildren (along other : String) : List (Document Float) :=
  let greedy : Document Float :=
    { Document.blank with params := { Params.standard with exploration := 0.0 } }
  [{ greedy with
      name := "root"
      selectors := [⟨"firstX", [along], []⟩, ⟨"second", [other], []⟩] },
    { greedy with name := along, priority := 1 },
    { greedy with name := other, priority := 2 }]

/-- The first step fails if one child is named like the other with the letter of its axis. -/
theorem steps_settle_iff_two_children :
    ∃ shared apart : Engine Float Float32,
      Engine.build (twoChildren "a" "aX") .standard = .ok shared ∧
      Engine.build (twoChildren "a" "b") .standard = .ok apart ∧
      (∀ snapshot, Settles ⟨apart, .start (.ofSeed 1)⟩ snapshot) ∧
      ¬ OwnTrajectories ⟨shared, .start (.ofSeed 1)⟩ .atRest ∧
      (Run.step ⟨shared, .start (.ofSeed 1)⟩ .atRest).1.toOption.isNone := by
  have first : (Engine.build (twoChildren "a" "aX") .standard :
      Except Error (Engine Float Float32)).toOption.map (fun engine =>
        (engine.definitions.map fun definition => definition.layout.ranges,
          (Run.step ⟨engine, .start (.ofSeed 1)⟩ .atRest).1.toOption.isNone)) =
      some ([[], [], []], true) := by decide +kernel
  have second : (Engine.build (twoChildren "a" "b") .standard :
      Except Error (Engine Float Float32)).toOption.map (fun engine =>
        (engine.definitions.map fun definition => definition.layout.ranges,
          engine.definitions.map fun definition => definition.name)) =
      some ([[], [], []], ["root", "a", "b"]) := by decide +kernel
  rcases Option.map_eq_some_iff.mp first with ⟨shared, made, facts⟩
  rcases Option.map_eq_some_iff.mp second with ⟨apart, other, named⟩
  rcases Prod.mk.inj facts with ⟨empty, failed⟩
  rcases Prod.mk.inj named with ⟨bare, names⟩
  have counted : ∀ engine : Engine Float Float32,
      engine.definitions.map (fun definition => definition.layout.ranges) = [[], [], []] →
        ∀ definition ∈ engine.definitions, Grid.Regular definition.layout.ranges := by
    intro engine ranges definition member
    have listed := List.mem_map_of_mem (f := fun definition => definition.layout.ranges) member
    rw [ranges] at listed
    have none_declared : definition.layout.ranges = [] := by simpa using listed
    rw [none_declared]
    exact fun _ inside => nomatch inside
  have settled := (steps_settle_iff _ _ shared (eq_ok_of_toOption made)).2 (counted shared empty)
    _ (.start (.ofSeed 1))
  have settles := (steps_settle_iff _ _ apart (eq_ok_of_toOption other)).2 (counted apart bare)
    _ (.start (.ofSeed 1))
  refine ⟨shared, apart, eq_ok_of_toOption made, eq_ok_of_toOption other, ?_, ?_, failed⟩
  · apply settles.2.2
    intro one member two inside axis
    have spelled : ∀ name ∈ ["root", "a", "b"], ∀ other ∈ ["root", "a", "b"],
        name ≠ Axis.tag other (some .x) ∧ name ≠ Axis.tag other (some .y) := by decide
    have apart_names := spelled one.name (names ▸ List.mem_map_of_mem member) two.name
      (names ▸ List.mem_map_of_mem inside)
    cases axis with
    | x => exact apart_names.1
    | y => exact apart_names.2
  · rw [← settled.1]
    intro success
    rcases success with ⟨outcome, stepped, _⟩
    rw [stepped] at failed
    cases failed

end Run

end Autoland
