import Autoland.Proofs.DenseBuilds
import Autoland.Proofs.StepLessons

/-! Sessions: steps and ends of several flights on one engine. Which tables are dense shows in none
of its answers and in none of its entries. -/

namespace Autoland

open Problem Learning

variable {ν φ : Type}

structure Session (ν φ : Type) where
  engine : Engine ν φ
  flights : Nat → Episode ν

namespace Session

inductive Call (ν : Type) where
  | step (flight : Nat) (snapshot : Flight.Snapshot ν)
  | finish (flight : Nat) (verdict : List Bool)

inductive Answer (ν : Type) where
  | stepped (result : Except Error (Outcome ν))
  | finished (result : Except Error Summary)

/-- The answer up to how the tables of definitions are kept. -/
def Answer.dense : Answer ν → Answer ν
  | stepped result => stepped (result.map Outcome.dense)
  | finished result => finished result

section Run

variable [Scalar ν] [Elementary ν] [RankedValue φ] [Stored ν φ]

def call (session : Session ν φ) : Call ν → Answer ν × Session ν φ
  | .step flight snapshot =>
    let (result, run) := Run.step ⟨session.engine, session.flights flight⟩ snapshot
    (.stepped result, ⟨run.engine, Function.update session.flights flight run.episode⟩)
  | .finish flight verdict =>
    let (result, engine) := session.engine.finish (session.flights flight) verdict
    (.finished result, { session with engine })

def run : List (Call ν) → Session ν φ → List (Answer ν) × Session ν φ
  | [], session => ([], session)
  | call :: calls, session =>
    let (answer, session) := session.call call
    let (answers, session) := run calls session
    (answer :: answers, session)

end Run

@[simps]
def dense [TableValue φ] (session : Session ν φ) : Session ν φ :=
  ⟨session.engine.dense, Episode.dense ∘ session.flights⟩

variable [Scalar ν] [Elementary ν] [RankedValue φ] [Stored ν φ]

theorem call_placed (session : Session ν φ) (placed : session.engine.Placed) (call : Call ν) :
    (session.call call).2.engine.Placed := by
  cases call with
  | step flight snapshot => exact (Run.step_learns _ snapshot).placed placed
  | finish flight verdict => exact (Engine.finishIn_learns _ _ _ verdict).placed placed

theorem call_dense (session : Session ν φ) (placed : session.engine.Placed) (call : Call ν) :
    session.dense.call call = ((session.call call).1.dense, (session.call call).2.dense) := by
  cases call with
  | step flight snapshot =>
      have alike : (⟨session.engine.dense, (Episode.dense ∘ session.flights) flight⟩ : Run ν φ) =
          Run.dense ⟨session.engine, session.flights flight⟩ := rfl
      have stepped := Run.step_dense ⟨session.engine, session.flights flight⟩ placed snapshot
      have flights := Function.comp_update Episode.dense session.flights flight
        (Run.step ⟨session.engine, session.flights flight⟩ snapshot).2.episode
      unfold call
      simp only [dense, flights, alike, stepped]
      rfl
  | finish flight verdict =>
      have ended := session.engine.finish_dense placed (session.flights flight) verdict
      unfold call
      simp only [dense_engine, dense_flights, Function.comp_apply, ended]
      rfl

theorem run_dense (calls : List (Call ν)) (session : Session ν φ)
    (placed : session.engine.Placed) :
    run calls session.dense =
      ((run calls session).1.map Answer.dense, (run calls session).2.dense) := by
  induction calls generalizing session with
  | nil => rfl
  | cons call calls ih =>
      have rest := ih _ (session.call_placed placed call)
      simp only [run, session.call_dense placed call, rest, List.map_cons]

theorem run_alike (first second : Session ν φ) (placed : first.engine.Placed)
    (other : second.engine.Placed) (alike : first.dense = second.dense) (calls : List (Call ν)) :
    (run calls first).1.map Answer.dense = (run calls second).1.map Answer.dense ∧
      ∀ name index, (run calls first).2.engine.entry name index =
        (run calls second).2.engine.entry name index := by
  have left := run_dense calls first placed
  rw [alike, run_dense calls second other] at left
  obtain ⟨answers, ended⟩ := Prod.mk.inj left
  refine ⟨answers.symm, ?_⟩
  intro name index
  calc (run calls first).2.engine.entry name index
      = (run calls first).2.engine.dense.entry name index :=
        ((run calls first).2.engine.entry_dense name index).symm
    _ = (run calls second).2.engine.dense.entry name index := by
        rw [← dense_engine, ← ended, dense_engine]
    _ = (run calls second).2.engine.entry name index :=
        (run calls second).2.engine.entry_dense name index

/-- Settings that differ only in which tables are dense, and in the shards of the others, refuse the
same documents with the same error. What they build answers every call about flights that are alike
in the same way, up to that difference, and after any calls holds the same entries. -/
theorem backing_shows_nowhere (documents : List (Document ν)) (first second : Config)
    (sized : first.dimension = second.dimension) (planar : first.planarAxis = second.planarAxis) :
    (∃ error, (Engine.build documents first : Except Error (Engine ν φ)) = .error error ∧
      (Engine.build documents second : Except Error (Engine ν φ)) = .error error) ∨
    ∃ one two : Engine ν φ, Engine.build documents first = .ok one ∧
      Engine.build documents second = .ok two ∧
      ∀ flights others : Nat → Episode ν,
        (∀ flight, (flights flight).dense = (others flight).dense) → ∀ calls,
          (run calls ⟨one, flights⟩).1.map Answer.dense =
              (run calls ⟨two, others⟩).1.map Answer.dense ∧
            ∀ name index, (run calls ⟨one, flights⟩).2.engine.entry name index =
              (run calls ⟨two, others⟩).2.engine.entry name index := by
  have settings : first.dense = second.dense := by
    rw [Config.dense, Config.dense, sized, planar]
  have same := (Engine.build_dense (φ := φ) documents first).symm.trans
    (settings ▸ Engine.build_dense documents second)
  rcases alike_of_map_eq same with refused | ⟨one, two, made, other, alike⟩
  · exact .inl refused
  · refine .inr ⟨one, two, made, other, ?_⟩
    intro flights others flown calls
    apply run_alike _ _ (Engine.Used.build one made).placed (Engine.Used.build two other).placed
    have begun : Episode.dense ∘ flights = Episode.dense ∘ others := funext flown
    rw [dense, dense, begun, alike]

def twoSteps : List (Call Float) :=
  [.step 0 (Engine.beside 1.0 0.0), .step 0 (Engine.beside 2.0 0.0)]

theorem backing_shows_nowhere_sparse :
    ∃ one two : Engine Float Float32,
      Engine.build Engine.rewardedPosition .standard = .ok one ∧
      Engine.build Engine.rewardedPosition { Config.standard with denseCap := 0 } = .ok two ∧
      one.stores.map (·.backing) = [.dense] ∧ two.stores.map (·.backing) = [.sparse] ∧
      let begun := fun engine : Engine Float Float32 =>
        Session.mk engine fun _ => .start (.ofSeed 1)
      (run twoSteps (begun two)).2.engine.entry "root" 1 ≠ two.entry "root" 1 ∧
      ∀ calls, (run calls (begun one)).1.map Answer.dense =
          (run calls (begun two)).1.map Answer.dense ∧
        ∀ name index, (run calls (begun one)).2.engine.entry name index =
          (run calls (begun two)).2.engine.entry name index := by
  have dense : (Engine.build Engine.rewardedPosition .standard).toOption.any
      (fun engine : Engine Float Float32 => engine.stores.map (·.backing) == [.dense]) = true := by
    decide +kernel
  have sparse : (Engine.build Engine.rewardedPosition
        { Config.standard with denseCap := 0 }).toOption.any
      (fun engine : Engine Float Float32 =>
        engine.stores.map (·.backing) == [.sparse] &&
          decide (((run twoSteps ⟨engine, fun _ => .start (.ofSeed 1)⟩).2.engine.entry
            "root" 1).toOption ≠ (engine.entry "root" 1).toOption)) = true := by
    decide +kernel
  obtain ⟨one, made, full⟩ := (Option.any_eq_true _ _).mp dense
  obtain ⟨two, other, checked⟩ := (Option.any_eq_true _ _).mp sparse
  simp only [Bool.and_eq_true, decide_eq_true_eq] at checked
  have settled := backing_shows_nowhere (φ := Float32) Engine.rewardedPosition .standard
    { Config.standard with denseCap := 0 } rfl rfl
  rcases settled with ⟨error, failed, _⟩ | ⟨first, second, built, rebuilt, same⟩
  · rw [eq_ok_of_toOption made] at failed
    cases failed
  · cases (eq_ok_of_toOption made).symm.trans built
    cases (eq_ok_of_toOption other).symm.trans rebuilt
    refine ⟨one, two, built, rebuilt, eq_of_beq full, eq_of_beq checked.1, ?_, ?_⟩
    · intro unchanged
      apply checked.2
      rw [unchanged]
    · exact same (fun _ => .start (.ofSeed 1)) (fun _ => .start (.ofSeed 1)) fun _ => rfl

end Session

end Autoland
