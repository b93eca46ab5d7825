import Autoland.Proofs.BackingIndependence
import Autoland.Proofs.FlightTallies
import Mathlib.Algebra.BigOperators.Group.Finset.Piecewise

/-! What the counters of an engine tell after any calls about any number of flights: how many calls
there were, and what the flights have recorded and learned. -/

namespace Autoland

open Problem Learning

variable {ν φ : Type}

namespace Session

def Call.flight : Call ν → Nat
  | step flight _ => flight
  | finish flight _ => flight

def Call.isStep : Call ν → Bool
  | step _ _ => true
  | finish _ _ => false

def Call.isFinish : Call ν → Bool
  | step _ _ => false
  | finish _ _ => true

def Call.succeeds : Call ν → Bool
  | step _ _ => false
  | finish _ verdict => allSucceed verdict

def Answer.isOk : Answer ν → Bool
  | stepped result => result.isOk
  | finished result => result.isOk

def Answer.updates : Answer ν → Nat
  | finished (.ok summary) => summary.updates
  | _ => 0

/-- Whether the counters have grown with calls and their answers, and with what flights have
recorded in between. -/
structure Accounts (flights : Finset Nat) (calls : List (Call ν)) (answers : List (Answer ν))
    (before after : Session ν φ) : Prop where
  steps : after.engine.counters.steps = before.engine.counters.steps + calls.countP Call.isStep
  episodes : after.engine.counters.episodes =
    before.engine.counters.episodes + calls.countP Call.isFinish
  successes : after.engine.counters.successes =
    before.engine.counters.successes + calls.countP Call.succeeds
  flightUpdates : after.engine.counters.flightUpdates =
    before.engine.counters.flightUpdates + (answers.map Answer.updates).sum
  decisions : after.engine.counters.decisions +
      ∑ flight ∈ flights, (before.flights flight).recorded =
    before.engine.counters.decisions + ∑ flight ∈ flights, (after.flights flight).recorded
  stepUpdates : after.engine.counters.stepUpdates +
      ∑ flight ∈ flights, (before.flights flight).total Trajectory.stepLessons =
    before.engine.counters.stepUpdates +
      ∑ flight ∈ flights, (after.flights flight).total Trajectory.stepLessons

theorem Accounts.refl (flights : Finset Nat) (session : Session ν φ) :
    Accounts flights [] [] session session := ⟨rfl, rfl, rfl, rfl, rfl, rfl⟩

theorem Accounts.append {flights : Finset Nat} {calls more : List (Call ν)}
    {answers others : List (Answer ν)} {first second third : Session ν φ}
    (one : Accounts flights calls answers first second)
    (two : Accounts flights more others second third) :
    Accounts flights (calls ++ more) (answers ++ others) first third where
  steps := by rw [two.steps, one.steps, List.countP_append, Nat.add_assoc]
  episodes := by rw [two.episodes, one.episodes, List.countP_append, Nat.add_assoc]
  successes := by rw [two.successes, one.successes, List.countP_append, Nat.add_assoc]
  flightUpdates := by
    rw [two.flightUpdates, one.flightUpdates, List.map_append, List.sum_append, Nat.add_assoc]
  decisions := by
    have early := one.decisions
    have late := two.decisions
    omega
  stepUpdates := by
    have early := one.stepUpdates
    have late := two.stepUpdates
    omega

theorem sum_update (weight : Episode ν → Nat) (flights : Finset Nat) (flight : Nat)
    (member : flight ∈ flights) (all : Nat → Episode ν) (after : Episode ν) :
    ∑ other ∈ flights, weight (Function.update all flight after other) + weight (all flight) =
      ∑ other ∈ flights, weight (all other) + weight after := by
  have changed := Finset.add_sum_erase flights
    (fun other => weight (Function.update all flight after other)) member
  have kept := Finset.add_sum_erase flights (fun other => weight (all other)) member
  have elsewhere : ∑ other ∈ flights.erase flight, weight (Function.update all flight after other) =
      ∑ other ∈ flights.erase flight, weight (all other) := by
    apply Finset.sum_congr rfl
    intro other inside
    rw [Function.update_of_ne (Finset.ne_of_mem_erase inside)]
  rw [Function.update_self] at changed
  omega

theorem accounts_step (session : Session ν φ) (flights : Finset Nat) (flight : Nat)
    (snapshot : Flight.Snapshot ν) (met : flight ∈ flights) (last : Run ν φ) (outcome : Outcome ν)
    (balanced : Run.Balanced ⟨session.engine, session.flights flight⟩ last) :
    Accounts flights [.step flight snapshot] [.stepped (.ok outcome)] session
      ⟨last.advanced.engine, Function.update session.flights flight last.advanced.episode⟩ where
  steps := (congrArg (·.steps + 1) balanced.others :)
  episodes := (congrArg Counters.episodes balanced.others :)
  successes := (congrArg Counters.successes balanced.others :)
  flightUpdates := (congrArg Counters.flightUpdates balanced.others :)
  decisions := by
    have recorded := sum_update Episode.recorded flights flight met session.flights
      last.advanced.episode
    have decisions : last.engine.counters.decisions + (session.flights flight).recorded =
        session.engine.counters.decisions + last.advanced.episode.recorded := balanced.decisions
    dsimp only [Run.advanced] at decisions recorded ⊢
    omega
  stepUpdates := by
    have taught := sum_update (Episode.total Trajectory.stepLessons) flights flight met
      session.flights last.advanced.episode
    have updates : last.engine.counters.stepUpdates +
          (session.flights flight).total Trajectory.stepLessons =
        session.engine.counters.stepUpdates +
          last.advanced.episode.total Trajectory.stepLessons := balanced.updates
    dsimp only [Run.advanced] at updates taught ⊢
    omega

variable [Scalar ν] [Elementary ν] [RankedValue φ] [Stored ν φ]

theorem run_append (calls more : List (Call ν)) (session : Session ν φ) :
    run (calls ++ more) session =
      ((run calls session).1 ++ (run more (run calls session).2).1,
        (run more (run calls session).2).2) := by
  induction calls generalizing session with
  | nil => rfl
  | cons call calls ih => simp only [List.cons_append, run, ih]

theorem length_run (calls : List (Call ν)) (session : Session ν φ) :
    (run calls session).1.length = calls.length := by
  induction calls generalizing session with
  | nil => rfl
  | cons call calls ih => simp only [run, List.length_cons, ih]

omit [Elementary ν] in
theorem accounts_finish (session : Session ν φ) (flights : Finset Nat) (flight : Nat)
    (verdict : List Bool) (summary : Summary) (after : Engine ν φ)
    (finished : session.engine.finish (session.flights flight) verdict = (.ok summary, after)) :
    Accounts flights [.finish flight verdict] [.finished (.ok summary)] session
      { session with engine := after } := by
  have counted := (session.engine.finish_counts after _ verdict summary finished).2
  refine ⟨?_, ?_, ?_, ?_, ?_, ?_⟩
  · exact (congrArg Counters.steps counted :)
  · exact (congrArg Counters.episodes counted :)
  · rw [List.countP_singleton]
    exact (congrArg Counters.successes counted :)
  · exact (congrArg Counters.flightUpdates counted :)
  · exact (congrArg (·.decisions + _) counted :)
  · exact (congrArg (·.stepUpdates + _) counted :)

structure Steady (definitions : List (Definition ν)) (session : Session ν φ) : Prop where
  loaded : session.engine.definitions = definitions
  coherent : ∀ flight, (session.flights flight).Coherent definitions

section Steady

variable {definitions : List (Definition ν)} (distinct : (definitions.map (·.name)).Nodup)
  {session : Session ν φ} (steady : session.Steady definitions)

include distinct steady

theorem Steady.call (call : Call ν) : (session.call call).2.Steady definitions := by
  cases call with
  | step flight snapshot =>
      have grown := Run.step_grows distinct ⟨session.engine, session.flights flight⟩ steady.loaded
        (steady.coherent flight) snapshot
      refine ⟨grown.1, ?_⟩
      exact (Function.forall_update_iff session.flights
        fun _ (episode : Episode ν) => episode.Coherent definitions).mpr
          ⟨grown.2.1, fun other _ => steady.coherent other⟩
  | finish flight verdict =>
      have shape := session.engine.finish_sameShape (session.flights flight) verdict
      exact ⟨shape.definitions.trans steady.loaded, steady.coherent⟩

variable (declared : ∀ definition ∈ definitions, definition.state ≠ []) (flights : Finset Nat)

include declared

theorem Steady.accounts_call (call : Call ν) (met : call.flight ∈ flights)
    (answered : (session.call call).1.isOk = true) :
    Accounts flights [call] [(session.call call).1] session (session.call call).2 := by
  cases call with
  | step flight snapshot =>
      cases stepped : Run.step ⟨session.engine, session.flights flight⟩ snapshot with
      | mk result after =>
          simp only [Session.call, stepped] at answered ⊢
          cases result with
          | error error => cases answered
          | ok outcome =>
              obtain ⟨last, balanced, rfl⟩ := Run.step_balanced distinct declared _ after
                steady.loaded (steady.coherent flight) snapshot outcome stepped
              exact accounts_step session flights flight snapshot met last outcome balanced
  | finish flight verdict =>
      cases finished : session.engine.finish (session.flights flight) verdict with
      | mk result after =>
          simp only [Session.call, finished] at answered ⊢
          cases result with
          | error error => cases answered
          | ok summary =>
              exact accounts_finish session flights flight verdict summary after finished

theorem Steady.accounts (calls : List (Call ν)) (met : ∀ call ∈ calls, call.flight ∈ flights)
    (answered : ∀ answer ∈ (run calls session).1, answer.isOk = true) :
    Accounts flights calls (run calls session).1 session (run calls session).2 := by
  induction calls generalizing session with
  | nil => exact .refl flights session
  | cons call calls ih =>
      rcases List.forall_mem_cons.mp met with ⟨here, there⟩
      rcases List.forall_mem_cons.mp answered with ⟨first, others⟩
      have one := steady.accounts_call distinct declared flights call here first
      exact one.append (ih (steady.call distinct call) there others)

end Steady

theorem updates_of_finish (before later : List (Call ν)) (flight : Nat) (verdict : List Bool)
    (session : Session ν φ)
    (answered : ∀ answer ∈ (run (before ++ .finish flight verdict :: later) session).1,
      answer.isOk = true) :
    ∃ summary,
      (run (before ++ .finish flight verdict :: later) session).1[before.length]? =
        some (.finished (.ok summary)) ∧
      summary.updates =
        ((run before session).2.flights flight).total Trajectory.flightLessons := by
  rw [run_append] at answered ⊢
  have width := length_run before session
  generalize run before session = done at answered width ⊢
  rw [← width, List.getElem?_append_right (Nat.le_refl _), Nat.sub_self]
  cases finished : done.2.engine.finish (done.2.flights flight) verdict with
  | mk result after =>
      have reported : ((run (.finish flight verdict :: later) done.2).1)[0]? =
          some (.finished result) := by
        simp [run, call, finished]
      have succeeded := answered _ (List.mem_append_right _ (List.mem_of_getElem? reported))
      cases result with
      | error error => cases succeeded
      | ok summary =>
          have counted := done.2.engine.finish_counts after _ verdict summary finished
          exact ⟨summary, reported, counted.1⟩

/-- After any calls about any flights that all succeed, on an engine all of whose definitions
declare state fields, the counters tell how many steps, ends and ends in success there were, and how
many updates the ends have reported. They count the decisions that the flights have recorded, and
one update for each of these but the first of a trajectory, if its definition learns from steps. -/
theorem counters_tell_histories (documents : List (Document ν)) (config : Config)
    (engine : Engine ν φ) (built : Engine.build documents config = .ok engine)
    (declared : ∀ definition ∈ engine.definitions, definition.state ≠ [])
    (sources : Nat → Source) (calls : List (Call ν)) (flights : Finset Nat)
    (met : ∀ call ∈ calls, call.flight ∈ flights)
    (answered : ∀ answer ∈ (run calls ⟨engine, fun flight => .start (sources flight)⟩).1,
      answer.isOk = true) :
    let begun : Session ν φ := ⟨engine, fun flight => .start (sources flight)⟩
    let answers := (run calls begun).1
    let after := (run calls begun).2
    let counters := after.engine.counters
    counters.steps = calls.countP Call.isStep ∧ counters.episodes = calls.countP Call.isFinish ∧
    counters.successes = calls.countP Call.succeeds ∧
    counters.decisions = ∑ flight ∈ flights, (after.flights flight).recorded ∧
    counters.stepUpdates =
      ∑ flight ∈ flights, (after.flights flight).total Trajectory.stepLessons ∧
    counters.flightUpdates = (answers.map Answer.updates).sum ∧
    ∀ before flight verdict later, calls = before ++ .finish flight verdict :: later →
      ∃ summary, answers[before.length]? = some (.finished (.ok summary)) ∧
        summary.updates = ((run before begun).2.flights flight).total Trajectory.flightLessons := by
  intro begun answers after counters
  have distinct := (Engine.build_sound documents config engine built).distinct
  have zero := (Engine.fresh_of_build documents config engine built).1
  have steady : begun.Steady engine.definitions :=
    ⟨rfl, fun flight => Episode.coherent_start engine.definitions (sources flight)⟩
  have counted := steady.accounts distinct declared flights calls met answered
  have none : begun.engine.counters = .zero := zero
  refine ⟨?_, ?_, ?_, ?_, ?_, ?_, ?_⟩
  · simpa [none, Counters.zero] using counted.steps
  · simpa [none, Counters.zero] using counted.episodes
  · simpa [none, Counters.zero] using counted.successes
  · have nothing : ∑ flight ∈ flights, (begun.flights flight).recorded = 0 :=
      Finset.sum_eq_zero fun _ _ => rfl
    have decisions := counted.decisions
    rw [none, nothing] at decisions
    exact decisions.trans (Nat.zero_add _)
  · have nothing :
        ∑ flight ∈ flights, (begun.flights flight).total Trajectory.stepLessons = 0 :=
      Finset.sum_eq_zero fun _ _ => rfl
    have updates := counted.stepUpdates
    rw [none, nothing] at updates
    exact updates.trans (Nat.zero_add _)
  · simpa [none, Counters.zero] using counted.flightUpdates
  · rintro before flight verdict later rfl
    exact updates_of_finish before later flight verdict begun answered

/-- Two flights that take turns. The first one ends well; the last step of the second one decides
nothing new. -/
def takingTurns : List (Call Float) :=
  [.step 0 (Engine.beside 1.0 0.0), .step 1 (Engine.beside 2.0 0.0), .finish 0 [true],
    .step 1 (Engine.beside 3.0 0.0), .step 1 (Engine.beside 3.0 0.0), .finish 1 [false]]

/-- The flights record one decision and two decisions, of which one is learned from in a step. -/
theorem counters_tell_histories_taking_turns :
    ∃ engine : Engine Float Float32,
      Engine.build Engine.rewardedPosition .standard = .ok engine ∧
      let begun : Session Float Float32 := ⟨engine, fun _ => .start (.ofSeed 1)⟩
      let counters := (run takingTurns begun).2.engine.counters
      (∀ answer ∈ (run takingTurns begun).1, answer.isOk = true) ∧
      counters.steps = 4 ∧ counters.episodes = 2 ∧ counters.successes = 1 ∧
      counters.decisions = 1 + 2 ∧ counters.stepUpdates = 0 + 1 ∧
      counters.flightUpdates = ((run takingTurns begun).1.map Answer.updates).sum := by
  have facts : (Engine.build Engine.rewardedPosition .standard).toOption.any
      (fun engine : Engine Float Float32 =>
        let begun : Session Float Float32 := ⟨engine, fun _ => .start (.ofSeed 1)⟩
        (engine.definitions.all fun definition => !definition.state.isEmpty) &&
          (run takingTurns begun).1.all Answer.isOk &&
          ([0, 1].map (run takingTurns begun).2.flights).map (fun flight =>
            (flight.recorded, flight.total Trajectory.stepLessons)) ==
              [(1, 0), (2, 1)]) = true := by
    decide +kernel
  obtain ⟨engine, made, checked⟩ := (Option.any_eq_true _ _).mp facts
  simp only [Bool.and_eq_true, List.all_eq_true, beq_iff_eq, Bool.not_eq_true', List.map_cons,
    List.isEmpty_eq_false_iff, List.map_nil, List.cons.injEq, Prod.mk.injEq] at checked
  obtain ⟨⟨declared, answered⟩, ⟨one, none⟩, ⟨two, once⟩, _⟩ := checked
  have met : ∀ call ∈ takingTurns, call.flight ∈ ({0, 1} : Finset Nat) := by
    simp [takingTurns, Call.flight]
  obtain ⟨steps, episodes, successes, decisions, updates, reported, _⟩ :=
    counters_tell_histories _ _ engine (eq_ok_of_toOption made) declared (fun _ => .ofSeed 1)
      takingTurns {0, 1} met answered
  rw [Finset.sum_pair Nat.zero_ne_one, one, two] at decisions
  rw [Finset.sum_pair Nat.zero_ne_one, none, once] at updates
  exact ⟨engine, eq_ok_of_toOption made, answered, steps, episodes, successes, decisions, updates,
    reported⟩

end Session

end Autoland
