import Autoland.Engine.Flight
import Autoland.Replay.Recording

/-!
Training on recorded flights. Every pass over a recording gives one job for each flight. The jobs
are dealt out to workers in turn, and a worker does its own in order.
-/

namespace Autoland.Replay

variable {ν φ : Type} [Scalar ν] [Elementary ν] [RankedValue φ] [Stored ν φ]

/-- Flies through snapshots. The outcome of the last step is kept, after the given one. -/
def fly : List (Flight.Snapshot ν) → Option (Outcome ν) → Run ν φ →
    Except Error (Option (Outcome ν)) × Run ν φ
  | [], last, run => (.ok last, run)
  | snapshot :: snapshots, _, run =>
    match run.step snapshot with
    | (.error error, run) => (.error error, run)
    | (.ok outcome, run) => fly snapshots (some outcome) run

def replayFlight (flight : RecordedFlight ν) (source : Source) (engine : Engine ν φ) :
    Except Error (Option Summary) × Engine ν φ :=
  match fly flight.snapshots none ⟨engine, .start source⟩ with
  | (.error error, run) => (.error error, run.engine)
  -- without snapshots there is no last step to end the flight on
  | (.ok none, run) => (.ok none, run.engine)
  | (.ok (some outcome), run) =>
    match run.engine.finish run.episode outcome.verdict with
    | (.error error, engine) => (.error error, engine)
    | (.ok summary, engine) => (.ok (some summary), engine)

structure Plan where
  passes : Nat
  workers : Nat
  /-- The seed of the first job, if there are seeds; that of each further job is one more. -/
  seed : Option UInt64
  deriving DecidableEq, Repr

namespace Plan

def jobCount (plan : Plan) (flights : Nat) : Nat := flights * plan.passes % Word.limit

def workerCount (plan : Plan) (flights : Nat) : Nat :=
  min plan.workers (max (plan.jobCount flights) 1)

def seedOf (plan : Plan) (job : Nat) : Option UInt64 := plan.seed.map (· + job.toUInt64)

def sourceOf (plan : Plan) (entropy : Nat → Source) (job : Nat) : Source :=
  ((plan.seedOf job).map .ofSeed).getD (entropy job)

end Plan

/-- The jobs of a worker: its own number and every `workers`-th job after it. -/
def jobsOf (total workers worker : Nat) : List Nat :=
  (List.range ((total - worker + workers - 1) / workers)).map fun turn => worker + turn * workers

def doJobs (flights : List (RecordedFlight ν)) (plan : Plan) (entropy : Nat → Source) :
    List Nat → Engine ν φ → Except Error (List Summary) × Engine ν φ
  | [], engine => (.ok [], engine)
  | job :: jobs, engine =>
    match flights[job % flights.length]? with
    | none => doJobs flights plan entropy jobs engine
    | some flight =>
      match replayFlight flight (plan.sourceOf entropy job) engine with
      | (.error error, engine) => (.error error, engine)
      | (.ok summary, engine) =>
        match doJobs flights plan entropy jobs engine with
        | (.error error, engine) => (.error error, engine)
        | (.ok summaries, engine) => (.ok (summary.toList ++ summaries), engine)

structure Report where
  episodes : Nat
  successes : Nat
  skipped : Nat
  deriving DecidableEq, Repr

def Report.ofSummaries (total : Nat) (summaries : List Summary) : Report where
  episodes := summaries.length
  successes := summaries.countP fun summary => allSucceed summary.verdict
  skipped := total - summaries.length

/-- Replays a recording. The workers take effect one after the other. -/
def train (flights : List (RecordedFlight ν)) (plan : Plan) (entropy : Nat → Source)
    (engine : Engine ν φ) : Except Error Report × Engine ν φ :=
  let total := plan.jobCount flights.length
  let workers := plan.workerCount flights.length
  let jobs := (List.range workers).flatMap (jobsOf total workers)
  match doJobs flights plan entropy jobs engine with
  | (.error error, engine) => (.error error, engine)
  | (.ok summaries, engine) => (.ok (.ofSummaries total summaries), engine)

end Autoland.Replay
