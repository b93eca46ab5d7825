import Autoland.Proofs.StepInvariants

/-! What a step is made of: it draws random words, meets trajectories, records decisions in them,
lets tables learn and counts. What each of these keeps, every step keeps, also one that fails. -/

namespace Autoland

open Problem Learning

variable {ν φ : Type} [Scalar ν] [RankedValue φ] [Stored ν φ]

namespace Run

/-- What a run becomes by the parts of steps, in any order. -/
inductive Moves (before : Run ν φ) : Run ν φ → Prop where
  | refl : Moves before before
  | draw (after : Run ν φ) (source : Source) (moves : Moves before after) :
      Moves before { after with episode.source := source }
  | meet (after : Run ν φ) (state : State ν) (moves : Moves before after) :
      Moves before { after with episode := after.episode.meet state.key state.definition }
  | record (after : Run ν φ) (state : State ν) (action : Action ν)
      (trajectory longer : Trajectory ν)
      (found : after.episode.trajectory? state.key = some trajectory)
      (taken : trajectory.record state action = .ok (true, longer)) (moves : Moves before after) :
      Moves before { after with episode := after.episode.replace longer }
  | learn (after : Run ν φ) (definition : Definition ν) (trajectory : Trajectory ν)
      (moves : Moves before after) :
      Moves before { after with engine :=
        (after.engine.withStore definition.name (temporalDifference definition trajectory)).2 }
  | count (after : Run ν φ) (counters : Counters) (moves : Moves before after) :
      Moves before { after with engine.counters := counters }
  | advance (after : Run ν φ) (moves : Moves before after) :
      Moves before { after with episode.steps := after.episode.steps + 1 }

theorem Moves.trans {first second third : Run ν φ} (one : Moves first second)
    (two : Moves second third) : Moves first third := by
  induction two with
  | refl => exact one
  | draw after source _ ih => exact .draw after source ih
  | meet after state _ ih => exact .meet after state ih
  | record after state action trajectory longer found taken _ ih =>
      exact .record after state action trajectory longer found taken ih
  | learn after definition trajectory _ ih => exact .learn after definition trajectory ih
  | count after counters _ ih => exact .count after counters ih
  | advance after _ ih => exact .advance after ih

theorem learnStep_moves (run : Run ν φ) (trajectory : Trajectory ν) (definition : Definition ν) :
    Moves run (run.learnStep trajectory definition).2 := by
  unfold learnStep
  split
  · have learned := Moves.learn run definition trajectory .refl
    cases worked : run.engine.withStore definition.name
        (temporalDifference definition trajectory) with
    | mk outcome engine =>
        rw [worked] at learned
        cases outcome with
        | error error => exact learned
        | ok told =>
            cases told with
            | false => exact learned
            | true => exact .count _ _ learned
  · exact .refl

theorem Decides.moves {run after : Run ν φ} {state : State ν} {trajectory : Trajectory ν}
    {result : Except Error (Action ν)} (decided : Decides run state trajectory result after)
    (found : run.episode.trajectory? state.key = some trajectory) : Moves run after := by
  cases decided with
  | reused action again => exact .refl
  | refused error source counters => exact .count _ counters (.draw run source .refl)
  | repeated action source needed same => exact .count _ _ (.draw run source .refl)
  | recorded action source longer outcome after needed candidate taken learned =>
      have noted : Moves run { run with episode := run.episode.replace longer } :=
        .record run state action trajectory longer found taken .refl
      have taught := learnStep_moves (countDecision
        { run with episode := { run.episode.replace longer with source } }) longer state.definition
      rw [learned] at taught
      exact (Moves.count _ _ (.draw _ source noted)).trans taught

theorem decide_moves (run : Run ν φ) (state : State ν) : Moves run (run.decide state).2 := by
  obtain ⟨trajectory, found, decided⟩ := run.decide_decides state
  exact (Moves.meet run state .refl).trans (decided.moves found)

theorem decideAll_moves (states : List (State ν)) (run : Run ν φ) :
    Moves run (decideAll states run).2 :=
  ends_same.mp (decideAll_ends states run .refl fun state _ between moves =>
    ends_same.mpr (moves.trans (decide_moves between state)))

/-- A step is made of these parts, also when it fails. -/
theorem step_moves [Elementary ν] (run : Run ν φ) (snapshot : Flight.Snapshot ν) :
    Moves run (run.step snapshot).2 :=
  step_keeps (Moves run) (fun _ => True) (fun _ _ _ _ _ _ _ => trivial)
    (fun state _ between moves => moves.trans (decide_moves between state))
    (fun between moves => .count _ _ (.advance between moves)) run snapshot .refl trivial

end Run

namespace Episode

/-- Whether the trajectories of a flight have different keys, which are the names of their
definitions along some axis. -/
structure Keyed (episode : Episode ν) : Prop where
  distinct : (episode.trajectories.map (·.key)).Nodup
  tagged : ∀ trajectory ∈ episode.trajectories, ∃ axis,
    trajectory.key = Axis.tag trajectory.definition.name axis

omit [Scalar ν] in
theorem Keyed.meet {episode : Episode ν} (keyed : episode.Keyed) (state : State ν) :
    (episode.meet state.key state.definition).Keyed := by
  unfold Episode.meet
  split
  · exact keyed
  · rename_i unmet
    refine ⟨?_, List.forall_mem_cons.mpr ⟨⟨state.axis, rfl⟩, keyed.tagged⟩⟩
    rw [List.map_cons, List.nodup_cons]
    refine ⟨?_, keyed.distinct⟩
    intro present
    obtain ⟨trajectory, member, same⟩ := List.mem_map.mp present
    have other := List.find?_eq_none.mp unmet trajectory member
    exact other (decide_eq_true same)

omit [Scalar ν] in
theorem Keyed.replace {episode : Episode ν} (keyed : episode.Keyed)
    (trajectory longer : Trajectory ν) (member : trajectory ∈ episode.trajectories)
    (named : longer.key = trajectory.key) (owned : longer.definition = trajectory.definition) :
    (episode.replace longer).Keyed := by
  constructor
  · have keys : (episode.replace longer).trajectories.map (·.key) =
        episode.trajectories.map (·.key) := by
      unfold Episode.replace
      rw [List.map_map]
      apply List.map_congr_left
      intro old _
      simp only [Function.comp_apply]
      split
      · rename_i same
        exact same.symm
      · rfl
    rw [keys]
    exact keyed.distinct
  · intro other inside
    obtain ⟨old, present, rfl⟩ := List.mem_map.mp inside
    split
    · rw [named, owned]
      exact keyed.tagged trajectory member
    · exact keyed.tagged old present

end Episode

omit [Scalar ν] in
theorem Learning.Trajectory.record_eq_ok (trajectory longer : Trajectory ν) (state : State ν)
    (action : Action ν) (taken : trajectory.record state action = .ok (true, longer)) :
    ∃ index, trajectory.definition.indexOf state action = .ok index ∧
      trajectory.last?.any (·.state.same state) = false ∧
      longer = { trajectory with history := ⟨state, action, index⟩ :: trajectory.history } := by
  unfold record at taken
  split at taken
  · cases taken
  · rename_i index found
    split at taken
    · cases taken
    · rename_i fresh
      cases taken
      exact ⟨index, found, Bool.eq_false_iff.mpr fresh, rfl⟩

theorem Run.Moves.keyed {before after : Run ν φ} (moves : Moves before after)
    (keyed : before.episode.Keyed) : after.episode.Keyed := by
  induction moves with
  | refl => exact keyed
  | draw after source _ ih => exact ⟨ih.distinct, ih.tagged⟩
  | meet after state _ ih => exact ih.meet state
  | record after state action trajectory longer found taken _ ih =>
      obtain ⟨index, _, _, rfl⟩ := trajectory.record_eq_ok longer state action taken
      exact ih.replace trajectory _ (trajectory?_eq_some _ _ _ found).1 rfl rfl
  | learn after definition trajectory _ ih => exact ih
  | count after counters _ ih => exact ih
  | advance after _ ih => exact ⟨ih.distinct, ih.tagged⟩

inductive Episode.Flown (φ : Type) [RankedValue φ] [Stored ν φ] [Elementary ν] :
    Episode ν → Prop where
  | start (source : Source) : Flown φ (.start source)
  | step (run : Run ν φ) (snapshot : Flight.Snapshot ν) (flown : Flown φ run.episode) :
      Flown φ (run.step snapshot).2.episode

theorem Episode.Flown.keyed [Elementary ν] {episode : Episode ν} (flown : episode.Flown φ) :
    episode.Keyed := by
  induction flown with
  | start source => exact ⟨List.nodup_nil, fun _ member => nomatch member⟩
  | step run snapshot _ ih => exact (run.step_moves snapshot).keyed ih

end Autoland
