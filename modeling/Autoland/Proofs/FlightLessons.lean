import Autoland.Proofs.EngineEntries
import Autoland.Proofs.EngineLearning
import Autoland.Proofs.RandomPicks

/-! What the tables learn at the end of a flight. Each trajectory teaches the entries of its own
decisions, whatever the tables hold, so that the order matters only where two trajectories meet. -/

namespace Autoland

open Problem Learning

variable {ν φ : Type}

namespace Learning

/-- Whether the end of a flight teaches the entry of a table through a trajectory: the trajectory is
of the table's definition, which learns from flights and rewards their ends, and has a decision with
that index. -/
def Trajectory.teaches (trajectory : Trajectory ν) (name : String) (index : Nat) : Bool :=
  trajectory.definition.name = name && trajectory.definition.uses .monteCarlo &&
    trajectory.definition.terminalReward.isSome && trajectory.decisions.any (·.index = index)

variable [Scalar ν] [TableValue φ] [Stored ν φ]

def Trajectory.lesson (trajectory : Trajectory ν) (name : String) (index : Nat) (value : φ) : φ :=
  match trajectory.definition.terminalReward with
  | some terminal =>
    if trajectory.definition.name = name && trajectory.definition.uses .monteCarlo then
      learned trajectory.definition terminal trajectory.decisions index value
    else value
  | none => value

omit [TableValue φ] in
theorem Trajectory.lesson_of_not_teaches (trajectory : Trajectory ν) (name : String) (index : Nat)
    (apart : trajectory.teaches name index = false) (value : φ) :
    trajectory.lesson name index value = value := by
  unfold lesson
  split
  · rename_i terminal given
    split
    · rename_i learns
      apply learned_absent
      intro decision member same
      have visited : trajectory.decisions.any (·.index = index) = true :=
        List.any_eq_true.mpr ⟨decision, member, decide_eq_true same⟩
      rw [teaches, learns, given, visited] at apart
      cases apart
    · rfl
  · rfl

section Flight

variable (definition : Definition ν) (trajectory : Trajectory ν)

theorem monteCarlo_fst_congr (store other : Table.Store φ) (sized : other.size = store.size) :
    (monteCarlo definition trajectory other).1 = (monteCarlo definition trajectory store).1 := by
  have checked : other.check = store.check := by
    funext index
    rw [Table.Store.check, Table.Store.check, sized]
  unfold monteCarlo Table.Store.batch
  rw [checked]
  split
  · rfl
  · split
    · rfl
    · cases (trajectory.decisions.map (·.index)).forM store.check with
      | error error => rfl
      | ok _ => rfl

theorem below_of_monteCarlo (terminal : Formula.Expression ν) (store : Table.Store φ)
    (given : definition.terminalReward = some terminal) (count : Nat)
    (learns : (monteCarlo definition trajectory store).1 = .ok count) :
    ∀ decision ∈ trajectory.decisions, decision.index < store.size := by
  cases history : trajectory.history with
  | nil =>
      intro decision member
      rw [(history_eq_nil trajectory).mp history] at member
      cases member
  | cons last earlier =>
      simp only [monteCarlo, history, terminalReward?, given, Option.map_some] at learns
      cases held : store.batch (trajectory.decisions.map (·.index)) with
      | error error =>
          rw [held] at learns
          cases learns
      | ok batch =>
          intro decision member
          exact ((store.batch_eq_ok _ _).mp held).1 _ (List.mem_map_of_mem member)

/-- Learning from a flight, if it succeeds, teaches every entry its lesson. -/
theorem get_monteCarlo_of_ok (store : Table.Store φ) (placed : store.Placed)
    (learnsFlights : trajectory.definition.uses .monteCarlo = true) (count : Nat)
    (learns : (monteCarlo trajectory.definition trajectory store).1 = .ok count) (index : Nat) :
    (monteCarlo trajectory.definition trajectory store).2.get index =
      (store.get index).map (trajectory.lesson trajectory.definition.name index) := by
  unfold Trajectory.lesson
  cases given : trajectory.definition.terminalReward with
  | none =>
      rw [monteCarlo_idle _ trajectory store (.inr given)]
      exact (Except.map_id ▸ rfl : store.get index = (store.get index).map id)
  | some terminal =>
      have below := below_of_monteCarlo _ trajectory terminal store given count learns
      simp only [learnsFlights, decide_true, Bool.and_self, if_true]
      exact get_monteCarlo _ terminal trajectory store given placed below index

end Flight

end Learning

theorem Episode.order_perm (episode : Episode ν) (source : Source) :
    (source.shuffle episode.sorted).1.Perm episode.trajectories :=
  (source.shuffle_perm episode.sorted).trans (List.mergeSort_perm _ _)

namespace Engine

theorem size_of_sameShape {before after : Engine ν φ} (shape : SameShape before after)
    (name : String) :
    (after.store name).map (·.size) = (before.store name).map (·.size) := by
  have listed : ∀ engine : Engine ν φ, engine.tables.find? (·.1 = name) =
      (engine.stores.find? (·.name = name)).map fun store => (store.name, store.size) := by
    intro engine
    rw [tables, List.find?_map]
    rfl
  have found := congrArg (List.find? (·.1 = name)) shape.tables
  rw [listed, listed] at found
  unfold store
  cases one : before.stores.find? (·.name = name) <;>
    cases two : after.stores.find? (·.name = name) <;> simp_all [Except.map]

variable [Scalar ν] [TableValue φ] [Stored ν φ]

theorem learnFlight_fst_congr {before after : Engine ν φ} (shape : SameShape before after)
    (trajectory : Trajectory ν) :
    (after.learnFlight trajectory).1 = (before.learnFlight trajectory).1 := by
  unfold learnFlight
  split
  · rw [withStore_fst, withStore_fst]
    rcases alike_of_map_eq (size_of_sameShape shape trajectory.definition.name) with
      ⟨error, absent, missing⟩ | ⟨store, other, held, found, sized⟩
    · rw [absent, missing]
    · rw [held, found]
      exact monteCarlo_fst_congr _ _ other store sized
  · rfl

/-- The end of a flight succeeds exactly if each trajectory is learned from, whatever the others
change. -/
theorem learnFlights_eq_ok (order : List (Trajectory ν)) (engine : Engine ν φ) (count : Nat) :
    (learnFlights order engine).1 = .ok count ↔
      ∃ counts, List.Forall₂ (fun trajectory updates =>
        (engine.learnFlight trajectory).1 = .ok updates) order counts ∧ counts.sum = count := by
  induction order generalizing engine count with
  | nil =>
      constructor
      · intro learned
        cases learned
        exact ⟨[], .nil, rfl⟩
      · rintro ⟨counts, each, rfl⟩
        cases each
        rfl
  | cons trajectory order ih =>
      -- table sizes decide whether a trajectory is learned from, and no lesson changes them
      have shape := (engine.learnFlight_learns trajectory).sameShape
      simp only [List.forall₂_cons_left_iff]
      cases learned : engine.learnFlight trajectory with
      | mk result between =>
          rw [learned] at shape
          have later := ih between
          simp only [learnFlight_fst_congr shape] at later
          cases result with
          | error error => simp [learnFlights, learned]
          | ok updates =>
              rw [learnFlights_cons_ok learned, map_eq_ok]
              constructor
              · rintro ⟨more, others, rfl⟩
                obtain ⟨counts, each, rfl⟩ := (later more).mp others
                exact ⟨_, ⟨updates, counts, rfl, each, rfl⟩, List.sum_cons⟩
              · rintro ⟨_, ⟨_, counts, head, each, rfl⟩, rfl⟩
                cases head
                exact ⟨_, (later counts.sum).mpr ⟨counts, each, rfl⟩, List.sum_cons.symm⟩

theorem exists_learnFlights (order : List (Trajectory ν)) (engine : Engine ν φ)
    (each : ∀ trajectory ∈ order, (engine.learnFlight trajectory).1.toOption.isSome) :
    ∃ count, (learnFlights order engine).1 = .ok count := by
  obtain ⟨counts, counted⟩ := mapM_eq_ok (fun trajectory => (engine.learnFlight trajectory).1) order
    fun trajectory member => by
      obtain ⟨updates, told⟩ := Option.isSome_iff_exists.mp (each trajectory member)
      exact ⟨updates, eq_ok_of_toOption told⟩
  have learned := (learnFlights_eq_ok order engine _).mpr
    ⟨counts, (mapM_eq_ok_iff _ _ _).mp counted, rfl⟩
  exact ⟨_, learned⟩

theorem entry_learnFlight (engine : Engine ν φ) (placed : engine.Placed)
    (trajectory : Trajectory ν) (count : Nat)
    (learns : (engine.learnFlight trajectory).1 = .ok count) (name : String) (index : Nat) :
    (engine.learnFlight trajectory).2.entry name index =
      (engine.entry name index).map (trajectory.lesson name index) := by
  have untaught : trajectory.teaches name index = false →
      engine.entry name index = (engine.entry name index).map (trajectory.lesson name index) := by
    intro apart
    have same : trajectory.lesson name index = (id : φ → φ) :=
      funext (trajectory.lesson_of_not_teaches name index apart)
    rw [same]
    exact (congrFun Except.map_id _).symm
  unfold learnFlight at learns ⊢
  split at learns
  · rename_i uses
    rw [if_pos uses]
    rw [withStore_fst] at learns
    have keeps : ∀ store : Table.Store φ,
        (monteCarlo trajectory.definition trajectory store).2.name = store.name := by
      intro store
      exact (monteCarlo_sameShape trajectory.definition trajectory store).1
    by_cases own : name = trajectory.definition.name
    · subst own
      rw [entry, store_withStore _ _ engine keeps, entry]
      cases held : engine.store trajectory.definition.name with
      | error error => rfl
      | ok store =>
          rw [held] at learns
          rw [Except.map, if_pos rfl]
          exact get_monteCarlo_of_ok trajectory store
            (placed store (engine.name_of_store _ store held).2) uses count learns index
    · have apart : trajectory.teaches name index = false := by
        simp [Trajectory.teaches, Ne.symm own]
      rw [← untaught apart, entry, store_withStore _ _ engine keeps, entry]
      simp only [if_neg own]
      cases engine.store name <;> rfl
  · rename_i idle
    rw [if_neg idle]
    exact untaught (by simp [Trajectory.teaches, idle])

theorem entry_learnFlights (order : List (Trajectory ν)) (engine : Engine ν φ)
    (placed : engine.Placed) (count : Nat)
    (learns : (learnFlights order engine).1 = .ok count) (name : String) (index : Nat) :
    (learnFlights order engine).2.entry name index =
      (engine.entry name index).map fun value =>
        order.foldl (fun value trajectory => trajectory.lesson name index value) value := by
  induction order generalizing engine count with
  | nil => exact (congrFun Except.map_id _).symm
  | cons trajectory order ih =>
      have first := engine.entry_learnFlight placed trajectory
      have kept := (engine.learnFlight_learns trajectory).placed placed
      cases learned : engine.learnFlight trajectory with
      | mk result between =>
          rw [learned] at first kept
          cases result with
          | error error =>
              rw [learnFlights, learned] at learns
              cases learns
          | ok updates =>
              rw [learnFlights_cons_ok learned] at learns ⊢
              obtain ⟨more, others, _⟩ := map_eq_ok.mp learns
              rw [ih between kept more others, first updates rfl name index]
              cases engine.entry name index <;> rfl

theorem entry_learnFlights_filter (order : List (Trajectory ν)) (engine : Engine ν φ)
    (placed : engine.Placed) (count : Nat)
    (learns : (learnFlights order engine).1 = .ok count) (name : String) (index : Nat) :
    (learnFlights order engine).2.entry name index =
      (engine.entry name index).map fun value =>
        (order.filter (·.teaches name index)).foldl
          (fun value trajectory => trajectory.lesson name index value) value := by
  rw [entry_learnFlights order engine placed count learns name index]
  have skipped : (fun (value : φ) (trajectory : Trajectory ν) =>
      if trajectory.teaches name index = true then trajectory.lesson name index value else value) =
      fun value trajectory => trajectory.lesson name index value := by
    funext value trajectory
    split
    · rfl
    · rename_i apart
      exact (trajectory.lesson_of_not_teaches name index (Bool.eq_false_iff.mpr apart) value).symm
  simp only [List.foldl_filter, skipped]

theorem finishIn_eq_ok (order : List (Trajectory ν)) (engine : Engine ν φ) (episode : Episode ν)
    (verdict : List Bool) (summary : Summary) :
    (finishIn order engine episode verdict).1 = .ok summary ↔
      ∃ updates, (learnFlights order engine).1 = .ok updates ∧
        summary = ⟨episode.steps, episode.trajectories.length, episode.recorded, updates,
          verdict⟩ := by
  unfold finishIn
  cases learnFlights order engine with
  | mk result after =>
      cases result with
      | error error => simp
      | ok updates => simp [eq_comm]

theorem entry_finishIn (order : List (Trajectory ν)) (engine : Engine ν φ) (episode : Episode ν)
    (verdict : List Bool) (name : String) (index : Nat) :
    (finishIn order engine episode verdict).2.entry name index =
      (learnFlights order engine).2.entry name index := by
  unfold finishIn
  cases learnFlights order engine with
  | mk result after => cases result <;> rfl

def beside (x y : Float) : Flight.Snapshot Float :=
  let middle : Flight.Snapshot Float := .atRest
  { middle with position := { middle.position with x, y } }

end Engine

end Autoland
