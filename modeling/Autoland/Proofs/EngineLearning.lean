import Autoland.Proofs.FlightReturns
import Autoland.Proofs.RunMoves

/-! A step counts and lets tables learn, and does nothing else. So every engine that steps and the
ends of flights lead to has tables of the same shapes, with their entries in their places. -/

namespace Autoland

open Problem Learning

variable {ν φ : Type}

namespace Run

variable [Scalar ν] [RankedValue φ] [Stored ν φ]

open Engine

theorem Moves.learns {before after : Run ν φ} (moves : Moves before after) :
    Learns before.engine after.engine := by
  induction moves with
  | refl => exact .refl
  | draw after source _ ih => exact ih
  | meet after state _ ih => exact ih
  | record after state action trajectory longer found taken _ ih => exact ih
  | learn after definition trajectory _ ih => exact .fromStep _ definition trajectory ih
  | count after counters _ ih => exact .count _ counters ih
  | advance after _ ih => exact ih

theorem decide_learns (run : Run ν φ) (state : State ν) :
    Learns run.engine (run.decide state).2.engine :=
  (decide_moves run state).learns

theorem decideAll_learns (states : List (State ν)) (run : Run ν φ) :
    Learns run.engine (decideAll states run).2.engine :=
  (decideAll_moves states run).learns

/-- A step only counts and lets tables learn, also when it fails. -/
theorem step_learns [Elementary ν] (run : Run ν φ) (snapshot : Flight.Snapshot ν) :
    Learns run.engine (run.step snapshot).2.engine :=
  (step_moves run snapshot).learns

end Run

namespace Learning

open Table

variable [Scalar ν] [TableValue φ] [Stored ν φ]

theorem temporalDifference_placed (definition : Definition ν) (trajectory : Trajectory ν)
    {store : Store φ} (placed : store.Placed) :
    (temporalDifference definition trajectory store).2.Placed := by
  rcases temporalDifference_store definition trajectory store with same | ⟨index, f, same⟩
  · rwa [same]
  · rw [same]
    exact placed.update index f

theorem learnBackward_placed (alpha discount target : ν) (steps : List (Nat × ν))
    {batch : Batch φ} (placed : batch.Placed) :
    (learnBackward alpha discount target steps batch).Placed := by
  induction steps generalizing target batch with
  | nil => exact placed
  | cons step earlier ih => exact ih _ (placed.set _ _)

theorem monteCarlo_placed (definition : Definition ν) (trajectory : Trajectory ν)
    {store : Store φ} (placed : store.Placed) :
    (monteCarlo definition trajectory store).2.Placed := by
  rcases monteCarlo_store definition trajectory store with
    same | ⟨indices, batch, _, _, _, _, held, same⟩
  · rwa [same]
  · rw [same]
    exact (learnBackward_placed _ _ _ _ (placed.batch indices batch held)).store

end Learning

namespace Engine

def Placed (engine : Engine ν φ) : Prop := ∀ store ∈ engine.stores, store.Placed

theorem Placed.withStore {engine : Engine ν φ} {α : Type} (placed : engine.Placed) (name : String)
    (work : Table.Store φ → Except Error α × Table.Store φ)
    (keeps : ∀ store : Table.Store φ, store.Placed → (work store).2.Placed) :
    (engine.withStore name work).2.Placed := by
  have all : ∀ stores : List (Table.Store φ), (∀ store ∈ stores, store.Placed) →
      ∀ store ∈ (onStore name work stores).2, store.Placed := by
    intro stores placed
    induction stores with
    | nil => exact fun _ member => nomatch member
    | cons store stores ih =>
        rcases List.forall_mem_cons.mp placed with ⟨head, rest⟩
        rw [onStore]
        split
        · exact List.forall_mem_cons.mpr ⟨keeps store head, rest⟩
        · exact List.forall_mem_cons.mpr ⟨head, ih rest⟩
  exact all engine.stores placed

section Tables

variable [Scalar ν] [TableValue φ]

theorem Learns.placed [Stored ν φ] {before after : Engine ν φ} (learns : Learns before after)
    (placed : before.Placed) : after.Placed := by
  induction learns with
  | refl => exact placed
  | count after counters _ ih => exact ih
  | fromStep after definition trajectory _ ih =>
      exact ih.withStore _ _ fun _ => temporalDifference_placed definition trajectory
  | fromFlight after definition trajectory _ ih =>
      exact ih.withStore _ _ fun _ => monteCarlo_placed definition trajectory

theorem tables_of_build [Elementary ν] (documents : List (Document ν)) (config : Config)
    (fresh : Engine ν φ) (built : build documents config = .ok fresh) :
    fresh.counters = .zero ∧ fresh.stores = fresh.definitions.map fun definition =>
      .ofLayout definition.name definition.layout config.shards := by
  unfold build at built
  split at built
  · cases built
  · unfold ofDefinitions at built
    split at built
    · cases built
    · rcases bind_eq_ok.mp built with ⟨_, _, built⟩
      rcases bind_eq_ok.mp built with ⟨_, _, built⟩
      cases built
      exact ⟨rfl, rfl⟩

theorem fresh_of_build [Elementary ν] (documents : List (Document ν)) (config : Config)
    (fresh : Engine ν φ) (built : build documents config = .ok fresh) :
    fresh.counters = .zero ∧ ∀ store ∈ fresh.stores, ∃ definition : Definition ν,
      store = .ofLayout definition.name definition.layout config.shards := by
  rcases tables_of_build documents config fresh built with ⟨counted, stores⟩
  refine ⟨counted, ?_⟩
  intro store member
  rw [stores] at member
  rcases List.mem_map.mp member with ⟨definition, _, rfl⟩
  exact ⟨definition, rfl⟩

end Tables

variable [Scalar ν] [RankedValue φ] [Stored ν φ]

/-- The engines that are built from documents and then used in any way: by steps, by ends of flights
in any order, by stored tables, and by values put into tables. -/
inductive Used [Elementary ν] (documents : List (Document ν)) (config : Config) :
    Engine ν φ → Prop where
  | build (fresh : Engine ν φ) (built : build documents config = .ok fresh) :
      Used documents config fresh
  | step (run : Run ν φ) (snapshot : Flight.Snapshot ν) (used : Used documents config run.engine) :
      Used documents config (run.step snapshot).2.engine
  | finish (engine : Engine ν φ) (order : List (Trajectory ν)) (episode : Episode ν)
      (verdict : List Bool) (used : Used documents config engine) :
      Used documents config (finishIn order engine episode verdict).2
  | attach (engine : Engine ν φ) (image : Table.Image φ) (used : Used documents config engine) :
      Used documents config (engine.attachTable image).2
  | put (engine : Engine ν φ) (name : String) (index : Nat) (value : φ)
      (used : Used documents config engine) :
      Used documents config (engine.withStore name fun store => store.put index value).2

theorem Used.placed [Elementary ν] {documents : List (Document ν)} {config : Config}
    {engine : Engine ν φ} (used : Used documents config engine) : engine.Placed := by
  induction used with
  | build fresh built =>
      intro store member
      obtain ⟨definition, rfl⟩ := (fresh_of_build documents config fresh built).2 store member
      exact Table.Cells.placed_zero _ _ _
  | step run snapshot _ ih => exact (run.step_learns snapshot).placed ih
  | finish engine order episode verdict _ ih =>
      exact (finishIn_learns order engine episode verdict).placed ih
  | attach engine image _ ih =>
      exact ih.withStore _ _ fun _ placed => Table.Store.Placed.attach placed image
  | put engine name index value _ ih =>
      exact ih.withStore _ _ fun _ placed => placed.update index fun _ => value

/-- The engines that steps and the ends of flights lead to, whatever the flights and whatever their
order. In between, stored tables may be attached. -/
inductive Trained [Elementary ν] (fresh : Engine ν φ) : Engine ν φ → Prop where
  | fresh : Trained fresh fresh
  | step (run : Run ν φ) (snapshot : Flight.Snapshot ν) (trained : Trained fresh run.engine) :
      Trained fresh (run.step snapshot).2.engine
  | finish (engine : Engine ν φ) (episode : Episode ν) (verdict : List Bool)
      (trained : Trained fresh engine) : Trained fresh (engine.finish episode verdict).2
  | attach (engine : Engine ν φ) (image : Table.Image φ) (trained : Trained fresh engine) :
      Trained fresh (engine.attachTable image).2

section Trained

variable [Elementary ν] {fresh engine : Engine ν φ} (trained : Trained fresh engine)

include trained

theorem Trained.sameShape : SameShape fresh engine := by
  induction trained with
  | fresh => exact .refl fresh
  | step run snapshot _ ih => exact ih.trans (run.step_learns snapshot).sameShape
  | finish engine episode verdict _ ih => exact ih.trans (engine.finish_sameShape episode verdict)
  | attach engine image _ ih => exact ih.trans (engine.attachTable_sameShape image)

theorem Trained.used {documents : List (Document ν)} {config : Config}
    (built : build documents config = .ok fresh) : Used documents config engine := by
  induction trained with
  | fresh => exact .build fresh built
  | step run snapshot _ ih => exact .step run snapshot ih
  | finish engine episode verdict _ ih => exact .finish engine _ episode verdict ih
  | attach engine image _ ih => exact .attach engine image ih

end Trained

end Engine

end Autoland
