import Autoland.Proofs.FlightRuns

/-! How a decision turns out, and what holds after a step because each of its decisions keeps it,
also in a step that fails. -/

namespace Autoland

open Problem Learning

variable {ν φ : Type} [Scalar ν] [RankedValue φ] [Stored ν φ]

omit [Scalar ν] in
theorem Learning.Trajectory.any_of_record_eq_false (trajectory longer : Trajectory ν)
    (state : State ν) (action : Action ν)
    (taken : trajectory.record state action = .ok (false, longer)) :
    trajectory.last?.any (·.state.same state) = true := by
  unfold record at taken
  split at taken
  · cases taken
  · split at taken
    · rename_i same
      exact same
    · cases taken

namespace Run

/-- How a decision in a state turns out, where `trajectory` is the one that the state has met. -/
inductive Decides (run : Run ν φ) (state : State ν) (trajectory : Trajectory ν) :
    Except Error (Action ν) → Run ν φ → Prop where
  | reused (action : Action ν) (again : reusable? state trajectory.last? = some action) :
      Decides run state trajectory (.ok action) run
  | refused (error : Error) (source : Source) (counters : Counters) :
      Decides run state trajectory (.error error)
        { run with episode.source := source, engine.counters := counters }
  | repeated (action : Action ν) (source : Source)
      (needed : reusable? state trajectory.last? = none)
      (same : trajectory.last?.any (·.state.same state) = true) :
      Decides run state trajectory (.ok action)
        (countDecision { run with episode.source := source })
  | recorded (action : Action ν) (source : Source) (longer : Trajectory ν)
      (outcome : Except Error Unit) (after : Run ν φ)
      (needed : reusable? state trajectory.last? = none)
      (candidate : action ∈ candidates state.definition state run.engine.isActive)
      (taken : trajectory.record state action = .ok (true, longer))
      (learned : (countDecision { run with
        episode := { run.episode.replace longer with source } }).learnStep longer state.definition =
          (outcome, after)) :
      Decides run state trajectory (outcome.map fun _ => action) after

theorem decideNew_decides (run : Run ν φ) (trajectory : Trajectory ν) (state : State ν)
    (needed : reusable? state trajectory.last? = none) :
    Decides run state trajectory (run.decideNew trajectory state).1
      (run.decideNew trajectory state).2 := by
  unfold decideNew
  dsimp only
  cases run.engine.store state.definition.name with
  | error error => exact .refused error run.episode.source run.engine.counters
  | ok store =>
      dsimp only
      cases picked : select state.definition.params.exploration store state.definition state
          (candidates state.definition state run.engine.isActive) run.episode.source with
      | mk result source =>
          cases result with
          | error error => exact .refused error source run.engine.counters
          | ok action =>
              have candidate := mem_of_select _ _ _ _ _ _ action picked
              cases taken : trajectory.record state action with
              | error error =>
                  simp only [record, taken]
                  exact .refused error source _
              | ok told =>
                  rcases told with ⟨added, longer⟩
                  cases added with
                  | false =>
                      simp only [record, taken]
                      exact .repeated action source needed
                        (trajectory.any_of_record_eq_false longer state action taken)
                  | true =>
                      simp only [record, taken]
                      split
                      · rename_i error after learned
                        exact .recorded action source longer (.error error) after needed candidate
                          taken learned
                      · rename_i after learned
                        exact .recorded action source longer (.ok ()) after needed candidate taken
                          learned

/-- A decision in a state meets a trajectory of its key, and turns out in one of these ways. -/
theorem decide_decides (run : Run ν φ) (state : State ν) :
    ∃ trajectory,
      (run.episode.meet state.key state.definition).trajectory? state.key = some trajectory ∧
        Decides { run with episode := run.episode.meet state.key state.definition } state trajectory
          (run.decide state).1 (run.decide state).2 := by
  rcases meet_finds run state with ⟨trajectory, found, _⟩
  refine ⟨trajectory, found, ?_⟩
  rw [run.decide_of_found state trajectory found]
  cases reuse : reusable? state trajectory.last? with
  | some action => exact .reused action reuse
  | none => exact decideNew_decides _ trajectory state reuse

section Ends

variable {α β γ : Type}

/-- Whether one property holds after an operation that succeeds, and another one after an operation
that fails. -/
def Ends (succeeded failed : Run ν φ → Prop) : Except Error α × Run ν φ → Prop
  | (.ok _, run) => succeeded run
  | (.error _, run) => failed run

variable {succeeded failed : Run ν φ → Prop}

omit [Scalar ν] [RankedValue φ] [Stored ν φ] in
theorem Ends.chain {first : Except Error α × Run ν φ}
    {next : α → Run ν φ → Except Error β × Run ν φ} {join : α → β → γ}
    (head : Ends succeeded failed first)
    (tail : ∀ value between, succeeded between → Ends succeeded failed (next value between)) :
    Ends succeeded failed (Run.chain first next join) := by
  unfold Run.chain
  rcases first with ⟨result, between⟩
  cases result with
  | error error => exact head
  | ok value =>
      have rest := tail value between head
      dsimp only
      cases taken : next value between with
      | mk result after =>
          rw [taken] at rest
          cases result with
          | error error => exact rest
          | ok other => exact rest

theorem decideAll_ends (states : List (State ν)) (run : Run ν φ) (begun : succeeded run)
    (decides : ∀ state ∈ states, ∀ run, succeeded run →
      Ends succeeded failed (run.decide state)) :
    Ends succeeded failed (decideAll states run) := by
  induction states generalizing run with
  | nil => exact begun
  | cons state states ih =>
      rcases List.forall_mem_cons.mp decides with ⟨head, rest⟩
      rw [decideAll_cons]
      exact (head run begun).chain fun _ between kept => ih between kept rest

omit [Scalar ν] [RankedValue φ] [Stored ν φ] in
theorem ends_same {first : Except Error α × Run ν φ} :
    Ends succeeded succeeded first ↔ succeeded first.2 := by
  rcases first with ⟨result, after⟩
  cases result <;> rfl

def advanced (run : Run ν φ) : Run ν φ :=
  { run with
    episode.steps := run.episode.steps + 1
    engine.counters.steps := run.engine.counters.steps + 1 }

variable [Elementary ν] {known : State ν → Prop}
  (born : ∀ run, succeeded run → ∀ snapshot parents actions,
    ∀ child ∈ run.engine.childStates snapshot parents actions, known child)

include born

theorem decideDown_ends (gives : ∀ run, succeeded run → failed run)
    (decides : ∀ state, known state → ∀ run, succeeded run →
      Ends succeeded failed (run.decide state))
    (snapshot : Flight.Snapshot ν) (generations : Nat) (states : List (State ν)) (run : Run ν φ)
    (begun : succeeded run) (all : ∀ state ∈ states, known state) :
    Ends succeeded failed (decideDown snapshot generations states run) := by
  induction generations generalizing states run with
  | zero =>
      cases states with
      | nil => exact begun
      | cons state states => exact gives run begun
  | succ generations ih =>
      cases states with
      | nil => exact begun
      | cons state states =>
          rw [decideDown_cons]
          have first := decideAll_ends _ run begun fun state member =>
            decides state (all state member)
          exact first.chain fun actions between kept =>
            ih _ between kept (born between kept snapshot _ actions)

variable (succeeded failed known)

/-- What every decision keeps, unless it fails, holds when a step that succeeds has still to be
counted. After a step that fails there holds what its last decision leaves. -/
theorem step_ends (gives : ∀ run, succeeded run → failed run)
    (decides : ∀ state, known state → ∀ run, succeeded run →
      Ends succeeded failed (run.decide state))
    (run : Run ν φ) (snapshot : Flight.Snapshot ν) (begun : succeeded run)
    (root : known (State.ofSnapshot run.engine.root snapshot none)) :
    Ends (fun after => ∃ last, succeeded last ∧ after = last.advanced) failed
      (run.step snapshot) := by
  have decided := decideDown_ends born gives decides snapshot run.engine.definitions.length
    [State.ofSnapshot run.engine.root snapshot none] run begun (List.forall_mem_singleton.mpr root)
  rw [step]
  cases made : decideDown snapshot run.engine.definitions.length
      [State.ofSnapshot run.engine.root snapshot none] run with
  | mk result last =>
      rw [made] at decided
      cases result with
      | error error => exact decided
      | ok pair => exact ⟨last, decided, rfl⟩

theorem step_keeps
    (decides : ∀ state, known state → ∀ run, succeeded run → succeeded (run.decide state).2)
    (advances : ∀ run, succeeded run → succeeded run.advanced)
    (run : Run ν φ) (snapshot : Flight.Snapshot ν) (begun : succeeded run)
    (root : known (State.ofSnapshot run.engine.root snapshot none)) :
    succeeded (run.step snapshot).2 := by
  have stepped := step_ends succeeded succeeded known born (fun _ kept => kept)
    (fun state offered between kept => ends_same.mpr (decides state offered between kept))
    run snapshot begun root
  cases taken : run.step snapshot with
  | mk result after =>
      rw [taken] at stepped
      cases result with
      | error error => exact stepped
      | ok outcome =>
          rcases stepped with ⟨last, kept, rfl⟩
          exact advances last kept

end Ends

omit [RankedValue φ] [Stored ν φ] in
theorem children_known [Elementary ν] (run : Run ν φ) (snapshot : Flight.Snapshot ν)
    (parents : List (State ν)) (actions : List (Action ν)) :
    ∀ child ∈ run.engine.childStates snapshot parents actions,
      child.definition ∈ run.engine.definitions :=
  known_of_born run.engine.definitions parents _
    (run.engine.childStates_of_parent snapshot parents actions)

omit [RankedValue φ] [Stored ν φ] in
theorem root_known [Elementary ν] (run : Run ν φ) (snapshot : Flight.Snapshot ν) :
    (State.ofSnapshot run.engine.root snapshot none).definition ∈ run.engine.definitions := by
  rw [State.ofSnapshot, (State.ofValues_owner run.engine.root snapshot.fieldList none).1]
  exact List.mem_cons_self

end Run

end Autoland
