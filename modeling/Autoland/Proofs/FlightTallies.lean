import Autoland.Proofs.FlightLessons
import Autoland.Proofs.TrajectoryHistories

/-! What the counters have to do with the trajectories of a flight: each decision that is counted is
recorded, and each one recorded behind another one is learned from if its definition learns so. -/

namespace Autoland

open Problem Learning

variable {ν φ : Type}

theorem sum_map_replace {α κ : Type} [DecidableEq κ] (key : α → κ) (weight : α → Nat)
    (items : List α) (distinct : (items.map key).Nodup) (old new : α) (member : old ∈ items)
    (same : key new = key old) :
    ((items.map fun item => if key item = key new then new else item).map weight).sum + weight old =
      (items.map weight).sum + weight new := by
  induction items with
  | nil => cases member
  | cons item items ih =>
      rw [List.map_cons, List.nodup_cons] at distinct
      simp only [List.map_cons, List.sum_cons]
      rcases List.mem_cons.mp member with rfl | member
      · have others : (items.map fun item => if key item = key new then new else item) = items := by
          apply (List.map_congr_left _).trans (List.map_id items)
          intro item inside
          rw [if_neg, id]
          intro shared
          exact distinct.1 (same ▸ shared ▸ List.mem_map_of_mem inside)
        rw [others, if_pos same.symm]
        omega
      · have apart : key item ≠ key new := by
          intro shared
          exact distinct.1 ((shared.trans same) ▸ List.mem_map_of_mem member)
        have rest := ih distinct.2 member
        rw [if_neg apart]
        omega

namespace Learning

/-- How many updates from one step to the next a trajectory stands for: one for each decision but
the first, if its definition learns from steps. -/
def Trajectory.stepLessons (trajectory : Trajectory ν) : Nat :=
  if trajectory.definition.uses .temporalDifference then trajectory.length - 1 else 0

theorem Trajectory.stepLessons_cons (trajectory : Trajectory ν) (decision : Decision ν) :
    stepLessons { trajectory with history := decision :: trajectory.history } =
      trajectory.stepLessons +
        if trajectory.definition.uses .temporalDifference = true ∧ 2 ≤ trajectory.length + 1 then 1
        else 0 := by
  unfold stepLessons length
  by_cases uses : trajectory.definition.uses .temporalDifference = true
  · simp only [uses, if_true, true_and, List.length_cons]
    split <;> omega
  · simp [uses]

/-- How many updates the end of a flight makes of a trajectory: one for each decision, if its
definition learns from flights and rewards their ends. -/
def Trajectory.flightLessons (trajectory : Trajectory ν) : Nat :=
  if trajectory.definition.uses .monteCarlo && trajectory.definition.terminalReward.isSome then
    trajectory.length
  else 0

variable [Scalar ν] [TableValue φ] [Stored ν φ]

theorem told_of_temporalDifference (definition : Definition ν) (trajectory : Trajectory ν)
    (store : Table.Store φ)
    (apart : trajectory.history.IsChain fun later earlier => earlier.state.same later.state = false)
    (told : Bool) (learned : (temporalDifference definition trajectory store).1 = .ok told) :
    told = true ↔ 2 ≤ trajectory.length := by
  unfold temporalDifference at learned
  unfold Trajectory.length
  rcases history : trajectory.history with _ | ⟨current, _ | ⟨previous, earlier⟩⟩
  · rw [history] at learned
    cases learned
    simp
  · rw [history] at learned
    cases learned
    simp
  · rw [history] at learned apart
    have unlike := (List.isChain_cons_cons.mp apart).1
    simp only [unlike, Bool.false_eq_true, if_false] at learned
    split at learned
    · cases learned
    · split at learned
      · cases learned
      · cases learned
        simp

theorem told_of_monteCarlo (definition : Definition ν) (trajectory : Trajectory ν)
    (store : Table.Store φ) (updates : Nat)
    (learned : (monteCarlo definition trajectory store).1 = .ok updates) :
    updates = if definition.terminalReward.isSome then trajectory.length else 0 := by
  unfold monteCarlo terminalReward? at learned
  unfold Trajectory.length
  cases history : trajectory.history with
  | nil =>
      rw [history] at learned
      cases learned
      simp
  | cons last earlier =>
      rw [history] at learned
      cases given : definition.terminalReward with
      | none =>
          rw [given] at learned
          cases learned
          rfl
      | some terminal =>
          simp only [given, Option.map_some] at learned
          split at learned
          · cases learned
          · cases learned
            rfl

end Learning

namespace Episode

def total (weight : Trajectory ν → Nat) (episode : Episode ν) : Nat :=
  (episode.trajectories.map weight).sum

theorem recorded_eq_total (episode : Episode ν) :
    episode.recorded = episode.total Trajectory.length := rfl

theorem total_meet (weight : Trajectory ν → Nat) (episode : Episode ν) (key : String)
    (definition : Definition ν) (nothing : weight (.empty key definition) = 0) :
    (episode.meet key definition).total weight = episode.total weight := by
  unfold meet
  split
  · rfl
  · simp [total, nothing]

theorem Keyed.total_replace {episode : Episode ν} (keyed : episode.Keyed)
    (weight : Trajectory ν → Nat) (trajectory longer : Trajectory ν)
    (member : trajectory ∈ episode.trajectories) (named : longer.key = trajectory.key) :
    (episode.replace longer).total weight + weight trajectory =
      episode.total weight + weight longer :=
  sum_map_replace Trajectory.key weight episode.trajectories keyed.distinct trajectory longer member
    named

end Episode

theorem Engine.exists_store_of_withStore {α : Type} (engine : Engine ν φ) (name : String)
    (work : Table.Store φ → Except Error α × Table.Store φ) (value : α)
    (worked : (engine.withStore name work).1 = .ok value) :
    ∃ store, (work store).1 = .ok value := by
  rw [withStore_fst] at worked
  obtain ⟨store, _, told⟩ := bind_eq_ok.mp worked
  exact ⟨store, told⟩

namespace Run

/-- Whether from one moment of a flight to a later one as many decisions are counted as recorded,
and as many updates from step to step as the trajectories stand for. No other counter changes. -/
structure Balanced (before after : Run ν φ) : Prop where
  decisions : after.engine.counters.decisions + before.episode.recorded =
    before.engine.counters.decisions + after.episode.recorded
  updates : after.engine.counters.stepUpdates + before.episode.total Trajectory.stepLessons =
    before.engine.counters.stepUpdates + after.episode.total Trajectory.stepLessons
  others : after.engine.counters = { before.engine.counters with
    decisions := after.engine.counters.decisions
    stepUpdates := after.engine.counters.stepUpdates }

theorem Balanced.refl (run : Run ν φ) : Balanced run run := ⟨rfl, rfl, rfl⟩

theorem Balanced.trans {first second third : Run ν φ} (one : Balanced first second)
    (two : Balanced second third) : Balanced first third := by
  refine ⟨?_, ?_, ?_⟩
  · have early := one.decisions
    have late := two.decisions
    omega
  · have early := one.updates
    have late := two.updates
    omega
  · rw [two.others, one.others]

theorem meet_balanced (run : Run ν φ) (state : State ν) :
    Balanced run { run with episode := run.episode.meet state.key state.definition } where
  decisions := by
    rw [Episode.recorded_eq_total, Episode.recorded_eq_total, Episode.total_meet _ _ _ _ rfl]
  updates := by
    rw [Episode.total_meet]
    simp [Trajectory.stepLessons, Trajectory.length, Trajectory.empty]
  others := rfl

theorem Balanced.of_recorded (run after : Run ν φ) (keyed : run.episode.Keyed)
    (trajectory : Trajectory ν) (member : trajectory ∈ run.episode.trajectories)
    (decision : Decision ν)
    (kept : after.episode.trajectories = (run.episode.replace
      { trajectory with history := decision :: trajectory.history }).trajectories)
    (counted : after.engine.counters = { run.engine.counters with
      decisions := run.engine.counters.decisions + 1
      stepUpdates := run.engine.counters.stepUpdates +
        if trajectory.definition.uses .temporalDifference = true ∧ 2 ≤ trajectory.length + 1 then 1
        else 0 }) :
    Balanced run after := by
  have totals : ∀ weight : Trajectory ν → Nat, after.episode.total weight + weight trajectory =
      run.episode.total weight +
        weight { trajectory with history := decision :: trajectory.history } := by
    intro weight
    rw [Episode.total, kept]
    exact keyed.total_replace weight trajectory _ member rfl
  refine ⟨?_, ?_, ?_⟩
  · have lengths := totals Trajectory.length
    rw [Episode.recorded_eq_total, Episode.recorded_eq_total, counted]
    simp only [Trajectory.length, List.length_cons] at lengths ⊢
    omega
  · have lessons := totals Trajectory.stepLessons
    rw [trajectory.stepLessons_cons decision] at lessons
    rw [counted]
    dsimp only
    omega
  · rw [counted]

variable [Scalar ν] [RankedValue φ] [Stored ν φ]

theorem learnStep_counters (run after : Run ν φ) (trajectory : Trajectory ν)
    (definition : Definition ν)
    (apart : trajectory.history.IsChain fun later earlier => earlier.state.same later.state = false)
    (learned : run.learnStep trajectory definition = (.ok (), after)) :
    after.engine.counters = { run.engine.counters with
      stepUpdates := run.engine.counters.stepUpdates +
        if definition.uses .temporalDifference = true ∧ 2 ≤ trajectory.length then 1 else 0 } := by
  have told : ∀ learns, (run.engine.withStore definition.name
      (temporalDifference definition trajectory)).1 = .ok learns →
        (learns = true ↔ 2 ≤ trajectory.length) := by
    intro learns worked
    obtain ⟨store, taught⟩ := run.engine.exists_store_of_withStore _ _ learns worked
    exact told_of_temporalDifference definition trajectory store apart learns taught
  have same : (run.engine.withStore definition.name
      (temporalDifference definition trajectory)).2.counters = run.engine.counters := rfl
  unfold learnStep at learned
  split at learned
  · rename_i uses
    split at learned
    · cases learned
    · rename_i engine worked
      cases learned
      rw [worked] at told same
      rw [same, if_neg fun both => Bool.false_ne_true ((told false rfl).mpr both.2)]
      rfl
    · rename_i engine worked
      cases learned
      rw [worked] at told same
      rw [same, if_pos ⟨uses, (told true rfl).mp rfl⟩]
  · rename_i idle
    cases learned
    rw [if_neg fun both => idle both.1]
    rfl

omit [RankedValue φ] [Stored ν φ] in
theorem reusable_of_same (state : State ν) (last? : Option (Decision ν))
    (declared : state.definition.state ≠ []) (same : last?.any (·.state.same state) = true) :
    reusable? state last? ≠ none := by
  obtain ⟨last, rfl, alike⟩ := (Option.any_eq_true _ _).mp same
  simp [reusable?, alike, declared]

/-- A decision is counted exactly if it is recorded, as states with declared fields that are like
the last one are not decided anew. -/
theorem Decides.balanced {definitions : List (Definition ν)}
    (distinct : (definitions.map (·.name)).Nodup) {run after : Run ν φ} {state : State ν}
    {trajectory : Trajectory ν} {result : Except Error (Action ν)}
    (decided : Decides run state trajectory result after)
    (coherent : run.episode.Coherent definitions)
    (found : run.episode.trajectory? state.key = some trajectory)
    (known : state.definition ∈ definitions) (declared : state.definition.state ≠ [])
    (action : Action ν) (succeeded : result = .ok action) : Balanced run after := by
  obtain ⟨member, named⟩ := trajectory?_eq_some _ _ trajectory found
  cases decided with
  | reused action again => exact .refl run
  | refused error source counters => cases succeeded
  | repeated action source needed same =>
      exact absurd needed (reusable_of_same state _ declared same)
  | recorded action source longer outcome after needed candidate taken learned =>
      obtain ⟨_, rfl, _⟩ := map_eq_ok.mp succeeded
      have regular := coherent.trajectories trajectory member
      have own := definition_of_candidate state _ action candidate
      have apart := (regular.record distinct state action known named own longer taken).apart
      have counted := learnStep_counters _ after longer state.definition apart learned
      have kept := learnStep_episode _ after longer state.definition _ learned
      obtain ⟨index, indexed, _, rfl⟩ := trajectory.record_eq_ok longer state action taken
      rw [regular.definition_eq distinct state action known index indexed] at counted
      have grown := congrArg Episode.trajectories kept
      exact .of_recorded run after coherent.keyed trajectory member ⟨state, action, index⟩ grown
        counted

theorem decide_balanced {definitions : List (Definition ν)}
    (distinct : (definitions.map (·.name)).Nodup) (run after : Run ν φ)
    (coherent : run.episode.Coherent definitions) (state : State ν)
    (known : state.definition ∈ definitions) (declared : state.definition.state ≠ [])
    (action : Action ν) (taken : run.decide state = (.ok action, after)) : Balanced run after := by
  obtain ⟨trajectory, found, decided⟩ := run.decide_decides state
  rw [taken] at decided
  exact (meet_balanced run state).trans
    (decided.balanced distinct (coherent.meet state known) found known declared action rfl)

theorem step_balanced [Elementary ν] {definitions : List (Definition ν)}
    (distinct : (definitions.map (·.name)).Nodup)
    (declared : ∀ definition ∈ definitions, definition.state ≠ []) (run after : Run ν φ)
    (loaded : run.engine.definitions = definitions)
    (coherent : run.episode.Coherent definitions) (snapshot : Flight.Snapshot ν)
    (outcome : Outcome ν) (stepped : run.step snapshot = (.ok outcome, after)) :
    ∃ last, Balanced run last ∧ after = last.advanced := by
  have ended := step_ends (fun after : Run ν φ => after.engine.definitions = definitions ∧
      after.episode.Coherent definitions ∧ Balanced run after) (fun _ => True)
    (fun state => state.definition ∈ definitions) ?born (fun _ _ => trivial) ?decides run snapshot
    ⟨loaded, coherent, .refl run⟩ (loaded ▸ run.root_known snapshot)
  case born =>
    rintro between ⟨same, _⟩ snapshot parents actions
    exact same ▸ between.children_known snapshot parents actions
  case decides =>
    rintro state known between ⟨same, kept, balanced⟩
    have grown := (decide_grows distinct between kept state known).1
    have plan := (between.decide_learns state).sameShape.definitions
    cases taken : between.decide state with
    | mk result next =>
        cases result with
        | error error => trivial
        | ok action =>
            rw [taken] at grown plan
            have counted := decide_balanced distinct between next kept state known
              (declared _ known) action taken
            exact ⟨plan.trans same, grown, balanced.trans counted⟩
  rw [stepped] at ended
  obtain ⟨last, ⟨_, _, balanced⟩, same⟩ := ended
  exact ⟨last, balanced, same⟩

end Run

namespace Engine

variable [Scalar ν] [TableValue φ] [Stored ν φ]

theorem updates_of_learnFlight (engine : Engine ν φ) (trajectory : Trajectory ν) (updates : Nat)
    (learned : (engine.learnFlight trajectory).1 = .ok updates) :
    updates = trajectory.flightLessons := by
  unfold learnFlight at learned
  unfold Trajectory.flightLessons
  split at learned
  · rename_i uses
    obtain ⟨store, taught⟩ := engine.exists_store_of_withStore _ _ updates learned
    rw [uses, Bool.true_and]
    exact told_of_monteCarlo trajectory.definition trajectory store updates taught
  · rename_i idle
    cases learned
    rw [Bool.eq_false_iff.mpr idle]
    rfl

theorem updates_of_learnFlights (order : List (Trajectory ν)) (engine : Engine ν φ) (updates : Nat)
    (learned : (learnFlights order engine).1 = .ok updates) :
    updates = (order.map Trajectory.flightLessons).sum := by
  obtain ⟨counts, each, rfl⟩ := (learnFlights_eq_ok order engine updates).mp learned
  clear learned
  induction each with
  | nil => rfl
  | cons head _ ih =>
      rw [List.map_cons, List.sum_cons, List.sum_cons, ih, engine.updates_of_learnFlight _ _ head]

theorem counters_of_learnFlights (order : List (Trajectory ν)) (engine : Engine ν φ) :
    (learnFlights order engine).2.counters = engine.counters := by
  induction order generalizing engine with
  | nil => rfl
  | cons trajectory order ih =>
      have first : (engine.learnFlight trajectory).2.counters = engine.counters := by
        unfold learnFlight
        split <;> rfl
      cases learned : engine.learnFlight trajectory with
      | mk result between =>
          rw [learned] at first
          cases result with
          | error error =>
              rw [learnFlights, learned]
              exact first
          | ok updates =>
              rw [learnFlights_cons_ok learned]
              exact (ih between).trans first

/-- The end of a flight makes one update for each decision that it learns from, and counts these. -/
theorem finish_counts (engine after : Engine ν φ) (episode : Episode ν) (verdict : List Bool)
    (summary : Summary) (finished : engine.finish episode verdict = (.ok summary, after)) :
    summary.updates = episode.total Trajectory.flightLessons ∧
      after.counters = { engine.counters with
        episodes := engine.counters.episodes + 1
        flightUpdates := engine.counters.flightUpdates + summary.updates
        successes := engine.counters.successes + if allSucceed verdict then 1 else 0 } := by
  let order := (episode.source.shuffle episode.sorted).1
  have moved : order.Perm episode.trajectories := episode.order_perm episode.source
  obtain ⟨updates, learned, rfl⟩ := (finishIn_eq_ok order engine episode verdict summary).mp
    (congrArg Prod.fst finished)
  constructor
  · rw [updates_of_learnFlights order engine updates learned]
    exact (moved.map Trajectory.flightLessons).sum_eq
  · have counters := counters_of_learnFlights order engine
    have ended : finishIn order engine episode verdict = _ := finished
    unfold finishIn at ended
    cases made : learnFlights order engine with
    | mk result between =>
        rw [made] at learned counters ended
        cases learned
        cases ended
        rw [← counters]

end Engine

end Autoland
