import Autoland.Proofs.FlightLessons
import Autoland.Proofs.WorkLoop

/-! What a step changes. Each of its decisions is booked: it may be recorded, and then the entry of
the decision before it may learn. No other entry of any table changes. -/

namespace Autoland

open Problem Learning Table

variable {ν φ : Type}

/-- The recorded decisions of a flight, the latest first, by the keys of their trajectories. -/
def Episode.history (episode : Episode ν) (key : String) : List (Decision ν) :=
  ((episode.trajectory? key).map (·.history)).getD []

structure Ledger (ν φ : Type) where
  history : String → List (Decision ν)
  entry : String → Nat → Except Error φ

def Run.ledger [TableValue φ] (run : Run ν φ) : Ledger ν φ :=
  ⟨run.episode.history, run.engine.entry⟩

namespace Ledger

variable [Scalar ν]

/-- Whether a state adds nothing to what is recorded: it holds the last action, or is like the last
recorded state. -/
def settles (ledger : Ledger ν φ) (state : State ν) : Bool :=
  (ledger.history state.key).head?.any fun last => state.holds || last.state.same state

def record (ledger : Ledger ν φ) (decision : Decision ν) : Ledger ν φ :=
  { ledger with
    history := Function.update ledger.history decision.state.key
      (decision :: ledger.history decision.state.key) }

def write (ledger : Ledger ν φ) (name : String) (index : Nat) (value : φ) : Ledger ν φ :=
  { ledger with
    entry := fun other place =>
      if other = name ∧ place = index then .ok value else ledger.entry other place }

variable [Stored ν φ]

inductive Books (state : State ν) (action : Action ν) (ledger : Ledger ν φ) :
    Ledger ν φ → Prop where
  | settled (again : ledger.settles state = true) : Books state action ledger ledger
  | recorded (index : Nat) (fresh : ledger.settles state = false)
      (idle : state.definition.uses .temporalDifference = false ∨ ledger.history state.key = []) :
      Books state action ledger (ledger.record ⟨state, action, index⟩)
  | learned (index : Nat) (previous : Decision ν) (earlier : List (Decision ν)) (old value : φ)
      (fresh : ledger.settles state = false)
      (uses : state.definition.uses .temporalDifference = true)
      (followed : ledger.history state.key = previous :: earlier)
      (held : ledger.entry state.definition.name previous.index = .ok old)
      (ahead : ledger.entry state.definition.name index = .ok value) :
      Books state action ledger
        ((ledger.record ⟨state, action, index⟩).write state.definition.name previous.index
          (moveToward state.definition.params.alpha
            (reward state.definition ⟨state, action, index⟩ +
              state.definition.params.stepDiscount * Stored.widen value) old))

inductive Booked (before : Ledger ν φ) : List (State ν × Action ν) → Ledger ν φ → Prop where
  | nil : Booked before [] before
  | snoc (nodes : List (State ν × Action ν)) (between : Ledger ν φ) (state : State ν)
      (action : Action ν) (after : Ledger ν φ) (booked : Booked before nodes between)
      (last : Books state action between after) : Booked before (nodes ++ [(state, action)]) after

end Ledger

namespace Episode

theorem history_of_found (episode : Episode ν) (key : String) (trajectory : Trajectory ν)
    (found : episode.trajectory? key = some trajectory) :
    episode.history key = trajectory.history := by
  rw [history, found, Option.map_some, Option.getD_some]

theorem history_meet (episode : Episode ν) (key : String) (definition : Definition ν) :
    (episode.meet key definition).history = episode.history := by
  unfold meet
  split
  · rfl
  · rename_i unmet
    funext other
    by_cases same : key = other
    · subst same
      rw [history, history, unmet]
      simp [trajectory?, Trajectory.empty]
    · simp [history, trajectory?, same, Trajectory.empty]

theorem history_replace (episode : Episode ν) (trajectory longer : Trajectory ν)
    (found : episode.trajectory? longer.key = some trajectory) :
    (episode.replace longer).history =
      Function.update episode.history longer.key longer.history := by
  have keyed : ∀ old : Trajectory ν,
      (if old.key = longer.key then longer else old).key = old.key := by
    intro old
    split
    · rename_i same
      exact same.symm
    · rfl
  funext key
  have moved : (episode.replace longer).trajectory? key =
      (episode.trajectory? key).map fun old => if old.key = longer.key then longer else old := by
    unfold trajectory? replace
    simp only [List.find?_map, Function.comp_def, keyed]
  unfold history
  rw [moved]
  by_cases same : key = longer.key
  · subst same
    have named := (Run.trajectory?_eq_some episode _ trajectory found).2
    simp [found, named]
  · rw [Function.update_of_ne same]
    cases held : episode.trajectory? key with
    | none => rfl
    | some old =>
        have other := (Run.trajectory?_eq_some episode _ old held).2
        simp [other, same]

end Episode

theorem Table.Store.get_write [TableValue φ] (store : Store φ) (placed : store.Placed)
    (index : Nat) (below : index < store.size) (value : φ) (other : Nat) :
    ({ store with cells := store.cells.set index value } : Store φ).get other =
      if other = index then .ok value else store.get other := by
  have written := store.cells.get_set store.size index other value placed.fits below
  by_cases same : other = index
  · subst same
    rw [if_pos rfl] at written ⊢
    have held := Store.get_eq_ok { store with cells := store.cells.set other value } other below
    rw [held, written]
  · rw [if_neg same] at written ⊢
    simp only [Store.get, Store.check, written]

variable [Scalar ν] [RankedValue φ] [Stored ν φ]

namespace Learning

theorem temporalDifference_of_ok (definition : Definition ν) (trajectory : Trajectory ν)
    (store : Store φ) (current previous : Decision ν) (earlier : List (Decision ν))
    (history : trajectory.history = current :: previous :: earlier)
    (apart : previous.state.same current.state = false) (learned : Bool)
    (succeeds : (temporalDifference definition trajectory store).1 = .ok learned) :
    current.index < store.size ∧ previous.index < store.size ∧
      (temporalDifference definition trajectory store).2 =
        { store with
          cells := store.cells.set previous.index
            (moveToward definition.params.alpha
              (reward definition current +
                definition.params.stepDiscount * Stored.widen (store.cells.get current.index))
              (store.cells.get previous.index)) } := by
  unfold temporalDifference at succeeds ⊢
  rw [history] at succeeds ⊢
  simp only [apart, Bool.false_eq_true, if_false] at succeeds ⊢
  by_cases low : current.index < store.size
  · rw [store.get_eq_ok _ low] at succeeds ⊢
    dsimp only at succeeds ⊢
    by_cases below : previous.index < store.size
    · rw [store.update_eq_ok _ below]
      exact ⟨low, below, rfl⟩
    · rw [Store.update, Store.check, if_neg below] at succeeds
      cases succeeds
  · rw [Store.get, Store.check, if_neg low] at succeeds
    cases succeeds

end Learning

theorem Engine.entry_temporalDifference (engine : Engine ν φ) (placed : engine.Placed)
    (definition : Definition ν) (trajectory : Trajectory ν) (current previous : Decision ν)
    (earlier : List (Decision ν)) (history : trajectory.history = current :: previous :: earlier)
    (apart : previous.state.same current.state = false) (learned : Bool)
    (succeeds : (engine.withStore definition.name
      (temporalDifference definition trajectory)).1 = .ok learned) :
    ∃ old value, engine.entry definition.name previous.index = .ok old ∧
      engine.entry definition.name current.index = .ok value ∧
      ∀ name index, (engine.withStore definition.name
          (temporalDifference definition trajectory)).2.entry name index =
        if name = definition.name ∧ index = previous.index then
          .ok (moveToward definition.params.alpha
            (reward definition current + definition.params.stepDiscount * Stored.widen value) old)
        else engine.entry name index := by
  have keeps : ∀ store : Store φ,
      (temporalDifference definition trajectory store).2.name = store.name :=
    fun store => (temporalDifference_sameShape definition trajectory store).1
  rw [withStore_fst] at succeeds
  cases held : engine.store definition.name with
  | error error =>
      rw [held] at succeeds
      cases succeeds
  | ok store =>
      rw [held] at succeeds
      obtain ⟨low, below, result⟩ := temporalDifference_of_ok definition trajectory store current
        previous earlier history apart learned succeeds
      refine ⟨_, _, engine.entry_of_store _ store held _ below,
        engine.entry_of_store _ store held _ low, ?_⟩
      intro name index
      rw [entry, store_withStore _ _ engine keeps]
      by_cases own : name = definition.name
      · subst own
        have written := store.get_write (placed store (engine.name_of_store _ store held).2)
          previous.index below
        simp only [entry, held, Except.map, if_true, true_and, result]
        exact written _ index
      · rw [if_neg fun both => own both.1]
        simp only [if_neg own, entry]
        cases engine.store name <;> rfl

namespace Run

theorem learnStep_eq_ok (run after : Run ν φ) (trajectory : Trajectory ν)
    (definition : Definition ν) (uses : definition.uses .temporalDifference = true)
    (learned : run.learnStep trajectory definition = (.ok (), after)) :
    ∃ told, (run.engine.withStore definition.name
        (temporalDifference definition trajectory)).1 = .ok told ∧
      after.ledger = ⟨run.episode.history, (run.engine.withStore definition.name
        (temporalDifference definition trajectory)).2.entry⟩ := by
  rw [learnStep, if_pos uses] at learned
  split at learned
  · cases learned
  · rename_i made
    cases learned
    exact ⟨false, by rw [made], by rw [made]; rfl⟩
  · rename_i made
    cases learned
    exact ⟨true, by rw [made], by rw [made]; rfl⟩

theorem learnStep_single (run after : Run ν φ) (trajectory : Trajectory ν)
    (definition : Definition ν) (decision : Decision ν) (history : trajectory.history = [decision])
    (learned : run.learnStep trajectory definition = (.ok (), after)) :
    after.ledger = run.ledger := by
  by_cases uses : definition.uses .temporalDifference = true
  · obtain ⟨_, _, booked⟩ := learnStep_eq_ok run after trajectory definition uses learned
    have idle : temporalDifference definition trajectory =
        fun store : Store φ => (.ok false, store) := by
      funext store
      rw [temporalDifference, history]
    have same : (run.engine.withStore definition.name
        (temporalDifference definition trajectory)).2.entry = run.engine.entry := by
      funext name index
      rw [idle, Engine.entry, Engine.store_withStore _ _ run.engine (fun _ => rfl), Engine.entry]
      cases run.engine.store name with
      | error error => rfl
      | ok store => simp [Except.map]
    rw [booked, same]
    rfl
  · rw [learnStep, if_neg uses] at learned
    cases learned
    rfl

omit [RankedValue φ] [Stored ν φ] in
theorem settles_of_unused (ledger : Ledger ν φ) (trajectory : Trajectory ν) (state : State ν)
    (history : ledger.history state.key = trajectory.history)
    (unused : reusable? state trajectory.last? = none) :
    ledger.settles state = trajectory.last?.any (·.state.same state) := by
  rw [Ledger.settles, history, ← Trajectory.last?]
  cases latest : trajectory.last? with
  | none => rfl
  | some last =>
      have needed : state.holds = false := by
        by_contra holds
        simp [reusable?, latest, Bool.of_not_eq_false holds] at unused
      simp [needed]

omit [Scalar ν] [Stored ν φ] in
theorem ledger_replace (run : Run ν φ) (trajectory : Trajectory ν) (decision : Decision ν)
    (found : run.episode.trajectory? decision.state.key = some trajectory) :
    ledger { run with
        episode := run.episode.replace
          { trajectory with history := decision :: trajectory.history } } =
      run.ledger.record decision := by
  have keyed := (trajectory?_eq_some run.episode _ trajectory found).2
  have longer := run.episode.history_replace trajectory
    { trajectory with history := decision :: trajectory.history } (keyed ▸ found)
  have before := run.episode.history_of_found _ trajectory found
  rw [ledger, longer, keyed, ← before]
  rfl

omit [RankedValue φ] [Stored ν φ] in
theorem settles_of_reused (ledger : Ledger ν φ) (trajectory : Trajectory ν) (state : State ν)
    (action : Action ν) (history : ledger.history state.key = trajectory.history)
    (reused : reusable? state trajectory.last? = some action) :
    ledger.settles state = true := by
  obtain ⟨last, latest, needless⟩ := Option.bind_eq_some_iff.mp reused
  have alike : state.holds = true ∨ last.state.same state = true := by
    by_contra neither
    simp_all
  rw [Ledger.settles, history, ← Trajectory.last?, latest]
  simpa using alike

theorem Decides.books {run after : Run ν φ} {state : State ν} {trajectory : Trajectory ν}
    {result : Except Error (Action ν)} (decided : Decides run state trajectory result after)
    (placed : run.engine.Placed) (found : run.episode.trajectory? state.key = some trajectory)
    (action : Action ν) (succeeded : result = .ok action) :
    Ledger.Books state action run.ledger after.ledger := by
  have history : run.ledger.history state.key = trajectory.history :=
    run.episode.history_of_found state.key trajectory found
  cases decided with
  | reused action again =>
      exact .settled (settles_of_reused run.ledger trajectory state action history again)
  | refused error source counters => cases succeeded
  | repeated action source needed same =>
      exact .settled ((settles_of_unused run.ledger trajectory state history needed).trans same)
  | recorded action source longer outcome after needed candidate taken learned =>
      obtain ⟨_, rfl, rfl⟩ := map_eq_ok.mp succeeded
      have settles := settles_of_unused run.ledger trajectory state history needed
      obtain ⟨index, _, fresh, rfl⟩ := trajectory.record_eq_ok longer state action taken
      have booked := ledger_replace run trajectory ⟨state, action, index⟩ found
      -- A recorded state is unlike the one before it, so learning from the step is not passed over.
      by_cases uses : state.definition.uses .temporalDifference = true
      · cases earlier : trajectory.history with
        | nil =>
            have same := learnStep_single _ after _ _ _ (by rw [earlier]) learned
            rw [same.trans booked]
            exact .recorded index (settles.trans fresh) (.inr (history.trans earlier))
        | cons previous earlier =>
            have latest : trajectory.last? = some previous := congrArg List.head? earlier
            rw [latest] at fresh
            obtain ⟨told, taught, kept⟩ := learnStep_eq_ok _ after _ _ uses learned
            obtain ⟨old, value, held, ahead, entries⟩ := run.engine.entry_temporalDifference placed
              state.definition _ ⟨state, action, index⟩ previous _ (congrArg _ earlier) fresh told
              taught
            have written : after.ledger = (run.ledger.record ⟨state, action, index⟩).write
                state.definition.name previous.index
                  (moveToward state.definition.params.alpha
                    (reward state.definition ⟨state, action, index⟩ +
                      state.definition.params.stepDiscount * Stored.widen value) old) := by
              rw [kept, Ledger.write, ← booked]
              congr 1
              funext name place
              exact entries name place
            rw [written]
            exact .learned index previous _ old value (settles.trans (latest ▸ fresh)) uses
              (history.trans earlier) held ahead
      · rw [learnStep, if_neg uses] at learned
        cases learned
        have unlearned : Ledger.Books state action run.ledger
            (run.ledger.record ⟨state, action, index⟩) :=
          .recorded index (settles.trans fresh) (.inl (Bool.eq_false_iff.mpr uses))
        rw [← booked] at unlearned
        exact unlearned

theorem decide_books (run after : Run ν φ) (placed : run.engine.Placed) (state : State ν)
    (action : Action ν) (decided : run.decide state = (.ok action, after)) :
    Ledger.Books state action run.ledger after.ledger := by
  obtain ⟨trajectory, found, turned⟩ := run.decide_decides state
  have met : ledger { run with episode := run.episode.meet state.key state.definition } =
      run.ledger := by
    rw [ledger, run.episode.history_meet]
    rfl
  rw [decided] at turned
  rw [← met]
  exact turned.books placed found action rfl

end Run

namespace Work

variable [Elementary ν]

theorem booked_of_turns {snapshot : Flight.Snapshot ν} {first last : Work ν φ}
    (placed : first.run.engine.Placed)
    (turns : Relation.ReflTransGen (Turn snapshot) first last) (fresh : first.decided = []) :
    last.run.engine.Placed ∧ Ledger.Booked first.run.ledger last.decided last.run.ledger := by
  induction turns with
  | refl => exact ⟨placed, fresh ▸ .nil⟩
  | tail _ turn ih =>
      obtain ⟨kept, booked⟩ := ih
      cases turn with
      | decide run after decided state waiting action taken =>
          have learned := (run.decide_learns state).placed kept
          rw [taken] at learned
          exact ⟨learned, .snoc _ _ state action _ booked
            (run.decide_books after kept state action taken)⟩

end Work

namespace Engine

variable [Elementary ν]

/-- A step changes the tables by what its decisions are booked to learn, and the end of a flight
changes entries that one of its trajectories teaches. No other entry changes. -/
theorem tables_change_by_lessons_only (documents : List (Document ν)) (config : Config)
    (run : Run ν φ) (used : Used documents config run.engine) :
    (∀ snapshot outcome after, run.step snapshot = (.ok outcome, after) →
      Ledger.Booked run.ledger (outcome.states.members.zip outcome.actions.members)
        after.ledger) ∧
    ∀ verdict summary after, run.engine.finish run.episode verdict = (.ok summary, after) →
      ∀ name index,
        (∀ trajectory ∈ run.episode.trajectories, trajectory.teaches name index = false) →
          after.entry name index = run.engine.entry name index := by
  constructor
  · intro snapshot outcome after stepped
    obtain ⟨last, reached, _, rfl⟩ := Work.reached_of_step run after snapshot outcome stepped
    exact (Work.booked_of_turns used.placed reached rfl).2
  · intro verdict summary after finished name index untaught
    let order := (run.episode.source.shuffle run.episode.sorted).1
    have moved : order.Perm run.episode.trajectories := run.episode.order_perm run.episode.source
    obtain ⟨count, learned, _⟩ := (finishIn_eq_ok order run.engine run.episode verdict summary).mp
      (congrArg Prod.fst finished)
    have none : order.filter (·.teaches name index) = [] := by
      rw [List.filter_eq_nil_iff]
      intro trajectory member
      rw [untaught trajectory (moved.mem_iff.mp member)]
      exact Bool.false_ne_true
    calc after.entry name index
        = (run.engine.finish run.episode verdict).2.entry name index := by rw [finished]
      _ = (learnFlights order run.engine).2.entry name index :=
          entry_finishIn order run.engine run.episode verdict name index
      _ = (run.engine.entry name index).map fun value => value := by
          rw [entry_learnFlights_filter order run.engine used.placed count learned, none]
          rfl
      _ = run.engine.entry name index := congrFun Except.map_id _

def rewardedPosition : List (Document Float) :=
  [{ Document.blank with
      name := "root"
      methods := [.monteCarlo, .temporalDifference]
      params := ⟨1.0, 1.0, 0.5, 0.0⟩
      reward := some "positionX"
      terminalReward := some "positionX"
      state := [⟨"positionX", 0.0, 3.0, some 1.0⟩] }]

def departed (fresh : Engine Float Float32) : Run Float Float32 :=
  (Run.step ⟨fresh, .start (.ofSeed 1)⟩ (beside 1.0 0.0)).2

/-- A flight from one to two learns the entry of one in the second step, and its end leaves the
entry of three alone. -/
theorem tables_change_by_lessons_only_departed :
    ∃ fresh : Engine Float Float32, build rewardedPosition .standard = .ok fresh ∧
      ∃ outcome after, (departed fresh).step (beside 2.0 0.0) = (.ok outcome, after) ∧
        Ledger.Booked (departed fresh).ledger
          (outcome.states.members.zip outcome.actions.members) after.ledger ∧
        after.engine.entry "root" 1 ≠ (departed fresh).engine.entry "root" 1 ∧
        ∃ summary last, after.engine.finish after.episode [true] = (.ok summary, last) ∧
          last.entry "root" 3 = after.engine.entry "root" 3 := by
  have facts : (build rewardedPosition .standard).toOption.any
      (fun fresh : Engine Float Float32 =>
        let stepped := (departed fresh).step (beside 2.0 0.0)
        stepped.1.toOption.isSome &&
          decide ((stepped.2.engine.entry "root" 1).toOption ≠
            ((departed fresh).engine.entry "root" 1).toOption) &&
          stepped.2.episode.trajectories.all (fun trajectory =>
            (stepped.2.engine.learnFlight trajectory).1.toOption.isSome &&
              !trajectory.teaches "root" 3)) = true := by
    decide +kernel
  obtain ⟨fresh, made, checked⟩ := (Option.any_eq_true _ _).mp facts
  simp only [Bool.and_eq_true, decide_eq_true_eq, List.all_eq_true, Bool.not_eq_true'] at checked
  obtain ⟨⟨succeeds, learned⟩, each⟩ := checked
  have used : Used rewardedPosition .standard (departed fresh).engine := by
    unfold departed
    exact .step _ _ (.build fresh (eq_ok_of_toOption made))
  have flying := Used.step (departed fresh) (beside 2.0 0.0) used
  cases stepped : (departed fresh).step (beside 2.0 0.0) with
  | mk result after =>
      rw [stepped] at succeeds learned each flying
      obtain ⟨outcome, reported⟩ := Option.isSome_iff_exists.mp succeeds
      cases eq_ok_of_toOption reported
      have order := after.episode.order_perm after.episode.source
      obtain ⟨count, taught⟩ := exists_learnFlights _ _ fun trajectory member =>
        (each trajectory (order.mem_iff.mp member)).1
      have finished := (finishIn_eq_ok _ _ after.episode [true] _).mpr ⟨_, taught, rfl⟩
      have ended : after.engine.finish after.episode [true] =
          (.ok _, (after.engine.finish after.episode [true]).2) := Prod.ext finished rfl
      have booked := (tables_change_by_lessons_only _ _ _ used).1 _ outcome after stepped
      have kept := (tables_change_by_lessons_only _ _ after flying).2 [true] _ _ ended "root" 3
        fun trajectory member => (each trajectory member).2
      have changed : after.engine.entry "root" 1 ≠ (departed fresh).engine.entry "root" 1 :=
        fun same => learned (congrArg _ same)
      exact ⟨fresh, eq_ok_of_toOption made, outcome, after, stepped, booked, changed, _, _, ended,
        kept⟩

end Engine

end Autoland
