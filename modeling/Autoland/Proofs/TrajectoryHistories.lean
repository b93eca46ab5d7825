import Autoland.Proofs.EngineLearning

/-! What the trajectories of a flight are like, whatever steps have led to it and whether these have
succeeded: each is about one definition and one axis, never repeats a state, and only grows. -/

namespace Autoland

open Problem Learning

variable {ν φ : Type}

namespace Learning

theorem name_of_indexOf (definition : Definition ν) (state : State ν) (action : Action ν)
    (index : Nat) (found : definition.indexOf state action = .ok index) :
    state.definition.name = definition.name := by
  unfold Definition.indexOf at found
  split at found
  · cases found
  · rename_i own
    exact not_not.mp own

/-- Whether the decisions of a trajectory are of its definition and its key and have their own
indices, each in a state unlike the one before it. -/
structure Trajectory.Coherent (definitions : List (Definition ν)) (trajectory : Trajectory ν) :
    Prop where
  member : trajectory.definition ∈ definitions
  states : ∀ decision ∈ trajectory.history,
    decision.state.definition = trajectory.definition ∧ decision.state.key = trajectory.key
  actions : ∀ decision ∈ trajectory.history, decision.action.definition = trajectory.definition
  indices : ∀ decision ∈ trajectory.history,
    trajectory.definition.indexOf decision.state decision.action = .ok decision.index
  apart : trajectory.history.IsChain fun later earlier => earlier.state.same later.state = false

variable {definitions : List (Definition ν)} {trajectory : Trajectory ν}

theorem Trajectory.coherent_empty (key : String) (definition : Definition ν)
    (member : definition ∈ definitions) :
    (Trajectory.empty key definition).Coherent definitions where
  member := member
  states _ inside := nomatch inside
  actions _ inside := nomatch inside
  indices _ inside := nomatch inside
  apart := .nil

theorem Trajectory.Coherent.definition_eq (coherent : trajectory.Coherent definitions)
    (distinct : (definitions.map (·.name)).Nodup) (state : State ν) (action : Action ν)
    (known : state.definition ∈ definitions) (index : Nat)
    (found : trajectory.definition.indexOf state action = .ok index) :
    state.definition = trajectory.definition :=
  List.inj_on_of_nodup_map distinct known coherent.member
    (name_of_indexOf trajectory.definition state action index found)

theorem Trajectory.Coherent.record (coherent : trajectory.Coherent definitions)
    (distinct : (definitions.map (·.name)).Nodup) (state : State ν) (action : Action ν)
    (known : state.definition ∈ definitions) (keyed : trajectory.key = state.key)
    (own : action.definition = state.definition) (longer : Trajectory ν)
    (taken : trajectory.record state action = .ok (true, longer)) :
    longer.Coherent definitions := by
  obtain ⟨index, found, fresh, rfl⟩ := trajectory.record_eq_ok longer state action taken
  have same := coherent.definition_eq distinct state action known index found
  refine ⟨coherent.member, ?_, ?_, ?_, ?_⟩
  · exact List.forall_mem_cons.mpr ⟨⟨same, keyed.symm⟩, coherent.states⟩
  · exact List.forall_mem_cons.mpr ⟨own.trans same, coherent.actions⟩
  · exact List.forall_mem_cons.mpr ⟨found, coherent.indices⟩
  · refine List.isChain_cons.mpr ⟨?_, coherent.apart⟩
    intro last latest
    rw [Trajectory.last?, Option.mem_def.mp latest] at fresh
    exact fresh

theorem Trajectory.record_grows (longer : Trajectory ν) (state : State ν) (action : Action ν)
    (taken : trajectory.record state action = .ok (true, longer)) :
    longer.key = trajectory.key ∧ longer.definition = trajectory.definition ∧
      trajectory.decisions <+: longer.decisions := by
  obtain ⟨index, _, _, rfl⟩ := trajectory.record_eq_ok longer state action taken
  exact ⟨rfl, rfl, List.reverse_prefix.mpr (List.suffix_cons _ _)⟩

end Learning

namespace Episode

structure Coherent (definitions : List (Definition ν)) (episode : Episode ν) : Prop where
  keyed : episode.Keyed
  trajectories : ∀ trajectory ∈ episode.trajectories, trajectory.Coherent definitions

theorem coherent_start (definitions : List (Definition ν)) (source : Source) :
    (Episode.start source : Episode ν).Coherent definitions where
  keyed := ⟨List.nodup_nil, fun _ member => nomatch member⟩
  trajectories _ member := nomatch member

section Coherent

variable {definitions : List (Definition ν)} {episode : Episode ν}
  (coherent : episode.Coherent definitions)

include coherent

theorem Coherent.of_trajectories_eq (other : Episode ν)
    (same : other.trajectories = episode.trajectories) : other.Coherent definitions where
  keyed := ⟨same ▸ coherent.keyed.distinct, same ▸ coherent.keyed.tagged⟩
  trajectories := same ▸ coherent.trajectories

theorem Coherent.meet (state : State ν) (known : state.definition ∈ definitions) :
    (episode.meet state.key state.definition).Coherent definitions := by
  refine ⟨coherent.keyed.meet state, ?_⟩
  unfold Episode.meet
  split
  · exact coherent.trajectories
  · exact List.forall_mem_cons.mpr ⟨Trajectory.coherent_empty _ _ known, coherent.trajectories⟩

theorem Coherent.replace (trajectory longer : Trajectory ν)
    (member : trajectory ∈ episode.trajectories) (named : longer.key = trajectory.key)
    (owned : longer.definition = trajectory.definition) (regular : longer.Coherent definitions) :
    (episode.replace longer).Coherent definitions := by
  refine ⟨coherent.keyed.replace trajectory longer member named owned, ?_⟩
  intro other inside
  obtain ⟨old, present, rfl⟩ := List.mem_map.mp inside
  split
  · exact regular
  · exact coherent.trajectories old present

end Coherent

/-- Whether one flight has all trajectories of another one, and each of them begins with what it was
there. -/
def Extends (before after : Episode ν) : Prop :=
  ∀ trajectory ∈ before.trajectories, ∃ longer ∈ after.trajectories,
    longer.key = trajectory.key ∧ longer.definition = trajectory.definition ∧
      trajectory.decisions <+: longer.decisions

theorem extends_of_subset (before after : Episode ν)
    (all : before.trajectories ⊆ after.trajectories) : before.Extends after :=
  fun trajectory member => ⟨trajectory, all member, rfl, rfl, List.prefix_rfl⟩

theorem Extends.trans {first second third : Episode ν} (one : first.Extends second)
    (two : second.Extends third) : first.Extends third := by
  intro trajectory member
  rcases one trajectory member with ⟨longer, inside, key, definition, begins⟩
  rcases two longer inside with ⟨longest, within, same, owned, continued⟩
  exact ⟨longest, within, same.trans key, owned.trans definition, begins.trans continued⟩

theorem extends_meet (episode : Episode ν) (state : State ν) :
    episode.Extends (episode.meet state.key state.definition) := by
  apply extends_of_subset
  unfold meet
  split
  · exact List.Subset.refl _
  · exact List.subset_cons_self _ _

theorem Keyed.extends_replace {episode : Episode ν} (keyed : episode.Keyed)
    (trajectory longer : Trajectory ν) (member : trajectory ∈ episode.trajectories)
    (named : longer.key = trajectory.key) (owned : longer.definition = trajectory.definition)
    (begins : trajectory.decisions <+: longer.decisions) :
    episode.Extends (episode.replace longer) := by
  intro old present
  refine ⟨_, List.mem_map_of_mem present, ?_⟩
  split
  · rename_i same
    have alone : old = trajectory :=
      List.inj_on_of_nodup_map keyed.distinct present member (same.trans named)
    rw [alone]
    exact ⟨named, owned, begins⟩
  · exact ⟨rfl, rfl, List.prefix_rfl⟩

end Episode

namespace Run

variable [Scalar ν] [RankedValue φ] [Stored ν φ]

theorem learnStep_episode (run after : Run ν φ) (trajectory : Trajectory ν)
    (definition : Definition ν) (outcome : Except Error Unit)
    (learned : run.learnStep trajectory definition = (outcome, after)) :
    after.episode = run.episode := by
  unfold learnStep at learned
  split at learned
  · split at learned <;> cases learned <;> rfl
  · cases learned
    rfl

/-- A decision leaves the trajectories as they are, or replaces the one of its state by a longer
one that ends in a candidate. -/
theorem Decides.trajectories {run after : Run ν φ} {state : State ν} {trajectory : Trajectory ν}
    {result : Except Error (Action ν)} (decided : Decides run state trajectory result after) :
    after.episode.trajectories = run.episode.trajectories ∨
      ∃ action ∈ candidates state.definition state run.engine.isActive, ∃ longer,
        trajectory.record state action = .ok (true, longer) ∧
          after.episode.trajectories = (run.episode.replace longer).trajectories := by
  cases decided with
  | reused action again => exact .inl rfl
  | refused error source counters => exact .inl rfl
  | repeated action source needed same => exact .inl rfl
  | recorded action source longer outcome after needed candidate taken learned =>
      have kept := learnStep_episode _ after longer state.definition outcome learned
      have same := congrArg Episode.trajectories kept
      exact .inr ⟨action, candidate, longer, taken, same⟩

section Steps

variable {definitions : List (Definition ν)} (distinct : (definitions.map (·.name)).Nodup)

include distinct

theorem decide_grows (run : Run ν φ) (coherent : run.episode.Coherent definitions)
    (state : State ν) (known : state.definition ∈ definitions) :
    (run.decide state).2.episode.Coherent definitions ∧
      run.episode.Extends (run.decide state).2.episode := by
  have met := coherent.meet state known
  have begun := run.episode.extends_meet state
  obtain ⟨trajectory, found, decided⟩ := run.decide_decides state
  obtain ⟨member, named⟩ := trajectory?_eq_some _ _ trajectory found
  rcases decided.trajectories with same | ⟨action, candidate, longer, taken, same⟩
  · have kept : (run.episode.meet state.key state.definition).trajectories ⊆
        (run.decide state).2.episode.trajectories := same ▸ List.Subset.refl _
    exact ⟨met.of_trajectories_eq _ same, begun.trans (Episode.extends_of_subset _ _ kept)⟩
  · obtain ⟨key, definition, begins⟩ := Trajectory.record_grows longer state action taken
    have own := definition_of_candidate state _ action candidate
    have regular := (met.trajectories trajectory member).record distinct state action known named
      own longer taken
    have replaced := met.replace trajectory longer member key definition regular
    have grown := met.keyed.extends_replace trajectory longer member key definition begins
    have kept : ((run.episode.meet state.key state.definition).replace longer).trajectories ⊆
        (run.decide state).2.episode.trajectories := same ▸ List.Subset.refl _
    exact ⟨replaced.of_trajectories_eq _ same,
      (begun.trans grown).trans (Episode.extends_of_subset _ _ kept)⟩

theorem step_grows [Elementary ν] (run : Run ν φ) (loaded : run.engine.definitions = definitions)
    (coherent : run.episode.Coherent definitions) (snapshot : Flight.Snapshot ν) :
    (run.step snapshot).2.engine.definitions = definitions ∧
      (run.step snapshot).2.episode.Coherent definitions ∧
      run.episode.Extends (run.step snapshot).2.episode := by
  apply step_keeps (fun after : Run ν φ => after.engine.definitions = definitions ∧
      after.episode.Coherent definitions ∧ run.episode.Extends after.episode)
    (fun state => state.definition ∈ definitions)
  case born =>
    rintro between ⟨same, _⟩ snapshot parents actions
    exact same ▸ between.children_known snapshot parents actions
  case decides =>
    rintro state known between ⟨same, kept, extended⟩
    have grown := decide_grows distinct between kept state known
    have plan := (between.decide_learns state).sameShape.definitions
    exact ⟨plan.trans same, grown.1, extended.trans grown.2⟩
  case advances =>
    rintro between ⟨same, kept, extended⟩
    exact ⟨same, kept.of_trajectories_eq _ rfl, extended⟩
  case begun => exact ⟨loaded, coherent, Episode.extends_of_subset _ _ (List.Subset.refl _)⟩
  case root => exact loaded ▸ run.root_known snapshot

end Steps

variable [Elementary ν]

theorem coherent_of_reached (engine : Engine ν φ)
    (distinct : (engine.definitions.map (·.name)).Nodup) (run : Run ν φ)
    (reached : Reached engine run) :
    run.engine.definitions = engine.definitions ∧ run.episode.Coherent engine.definitions := by
  induction reached with
  | start source => exact ⟨rfl, Episode.coherent_start engine.definitions source⟩
  | step run snapshot _ ih =>
      have grown := step_grows distinct run ih.1 ih.2 snapshot
      exact ⟨grown.1, grown.2.1⟩
  | meanwhile run other _ shape ih => exact ⟨shape.definitions.trans ih.1, ih.2⟩

/-- In every flight that steps lead to, also if some of them have failed, each key has one
trajectory. Its decisions are of its definition and of the axis in its key, have the indices of
their states and actions, and no two of them in a row are in equal states. A further step only adds
to the ends of trajectories, and adds trajectories, whether it succeeds or fails. -/
theorem trajectories_coherent_and_growing (documents : List (Document ν)) (config : Config)
    (engine : Engine ν φ) (built : Engine.build documents config = .ok engine) (run : Run ν φ)
    (reached : Reached engine run) :
    (run.episode.trajectories.map (·.key)).Nodup ∧
    (∀ trajectory ∈ run.episode.trajectories,
      (∃ axis, trajectory.key = Axis.tag trajectory.definition.name axis ∧
        ∀ decision ∈ trajectory.decisions,
          decision.state.definition = trajectory.definition ∧
          decision.action.definition = trajectory.definition ∧ decision.state.axis = axis ∧
          trajectory.definition.indexOf decision.state decision.action = .ok decision.index) ∧
      trajectory.decisions.IsChain fun earlier later => earlier.state.same later.state = false) ∧
    ∀ snapshot, run.episode.Extends (run.step snapshot).2.episode := by
  have distinct := (Engine.build_sound documents config engine built).distinct
  obtain ⟨loaded, coherent⟩ := coherent_of_reached engine distinct run reached
  refine ⟨coherent.keyed.distinct, ?_, ?_⟩
  · intro trajectory member
    have regular := coherent.trajectories trajectory member
    obtain ⟨axis, named⟩ := coherent.keyed.tagged trajectory member
    refine ⟨⟨axis, named, ?_⟩, List.isChain_reverse.mpr regular.apart⟩
    intro decision inside
    have recorded := List.mem_reverse.mp inside
    obtain ⟨own, keyed⟩ := regular.states decision recorded
    exact ⟨own, regular.actions decision recorded,
      decision.state.axis_eq_of_key trajectory.definition axis own (keyed.trans named),
      regular.indices decision recorded⟩
  · exact fun snapshot => (step_grows distinct run loaded coherent snapshot).2.2

/-- A step that fails in its third decision leaves the first two in their trajectories, and the next
step only adds to them. -/
theorem trajectories_coherent_and_growing_failing :
    ∃ engine : Engine Float Float32,
      Engine.build (twoChildren "a" "aX") .standard = .ok engine ∧
      let failed := Run.step ⟨engine, .start (.ofSeed 1)⟩ .atRest
      failed.1.toOption.isNone ∧
      (failed.2.episode.trajectories.map fun trajectory => (trajectory.key, trajectory.length)) =
        [("aX", 1), ("root", 1)] ∧
      (∀ trajectory ∈ failed.2.episode.trajectories, ∃ axis, ∀ decision ∈ trajectory.decisions,
        decision.state.definition = trajectory.definition ∧ decision.state.axis = axis) ∧
      failed.2.episode.Extends (failed.2.step .atRest).2.episode := by
  have facts : (Engine.build (twoChildren "a" "aX") .standard).toOption.any
      (fun engine : Engine Float Float32 =>
        let failed := Run.step ⟨engine, .start (.ofSeed 1)⟩ .atRest
        failed.1.toOption.isNone &&
          (failed.2.episode.trajectories.map fun trajectory =>
            (trajectory.key, trajectory.length)) == [("aX", 1), ("root", 1)]) = true := by
    decide +kernel
  obtain ⟨engine, made, checked⟩ := (Option.any_eq_true _ _).mp facts
  simp only [Bool.and_eq_true, beq_iff_eq] at checked
  have kept := trajectories_coherent_and_growing _ _ engine (eq_ok_of_toOption made) _
    (.step _ .atRest (.start (.ofSeed 1)))
  refine ⟨engine, eq_ok_of_toOption made, checked.1, checked.2, ?_, kept.2.2 .atRest⟩
  intro trajectory member
  obtain ⟨axis, _, each⟩ := (kept.2.1 trajectory member).1
  exact ⟨axis, fun decision inside => ⟨(each decision inside).1, (each decision inside).2.2.1⟩⟩

end Run

end Autoland
