import Autoland.Proofs.FlightRuns
import Autoland.Proofs.JobShares
import Autoland.Proofs.SessionCounters

/-! Replays of recordings. Every job is done once, and a replay in which no step fails reports one
episode for each job of a flight that has snapshots, if a word counts the buckets of every field. -/

namespace Autoland

open Problem Learning

variable {ν φ : Type} [Scalar ν] [RankedValue φ] [Stored ν φ]

theorem Learning.monteCarlo_eq_ok (definition : Definition ν) (trajectory : Trajectory ν)
    (store : Table.Store φ) (below : ∀ decision ∈ trajectory.history, decision.index < store.size) :
    ∃ count, (monteCarlo definition trajectory store).1 = .ok count := by
  unfold monteCarlo
  split
  · exact ⟨0, rfl⟩
  · rename_i last earlier history
    split
    · exact ⟨0, rfl⟩
    · have inside : ∀ index ∈ trajectory.decisions.map (·.index), index < store.size := by
        intro index listed
        rcases List.mem_map.mp listed with ⟨decision, member, rfl⟩
        exact below decision (List.mem_reverse.mp member)
      rw [(store.batch_eq_ok _ _).mpr ⟨inside, rfl⟩]
      exact ⟨_, rfl⟩

theorem Run.Sound.finish_eq_ok {run : Run ν φ} (sound : run.Sound) (verdict : List Bool) :
    ∃ summary, (run.engine.finish run.episode verdict).1 = .ok summary := by
  have each : ∀ trajectory ∈ (run.episode.source.shuffle run.episode.sorted).1,
      (run.engine.learnFlight trajectory).1.toOption.isSome := by
    intro trajectory listed
    have member := (run.episode.order_perm run.episode.source).mem_iff.mp listed
    have kept := sound.trajectories trajectory member
    rcases sound.engine.store_eq_ok trajectory.definition kept.member with ⟨store, held, sized⟩
    unfold Engine.learnFlight
    split
    · rcases monteCarlo_eq_ok trajectory.definition trajectory store
        (fun decision inside => sized ▸ kept.indices decision inside) with ⟨count, learned⟩
      rw [Engine.withStore_fst, held]
      exact Option.isSome_iff_exists.mpr ⟨count, by rw [Except.bind, learned]; rfl⟩
    · rfl
  rcases Engine.exists_learnFlights _ run.engine each with ⟨updates, learned⟩
  exact ⟨_, (Engine.finishIn_eq_ok _ run.engine run.episode verdict _).mpr ⟨updates, learned, rfl⟩⟩

variable [Elementary ν]

namespace Replay

def StepsSucceed (engine : Engine ν φ) (source : Source) (flight : RecordedFlight ν) : Prop :=
  ∃ last, (fly flight.snapshots none ⟨engine, .start source⟩).1 = .ok last

def Succeeds (engine : Engine ν φ) (source : Source) (flight : RecordedFlight ν) : Prop :=
  ∃ summary?, (replayFlight flight source engine).1 = .ok summary?

theorem isSome_of_fly (snapshots : List (Flight.Snapshot ν)) (last result : Option (Outcome ν))
    (run : Run ν φ) (flown : (fly snapshots last run).1 = .ok result) :
    result.isSome = (!snapshots.isEmpty || last.isSome) := by
  induction snapshots generalizing last run with
  | nil =>
      cases flown
      rfl
  | cons snapshot snapshots ih =>
      rw [fly] at flown
      split at flown
      · cases flown
      · rw [ih _ _ flown]
        simp

theorem isSome_of_replayFlight (flight : RecordedFlight ν) (source : Source) (engine : Engine ν φ)
    (summary? : Option Summary) (replayed : (replayFlight flight source engine).1 = .ok summary?) :
    summary?.isSome = !flight.snapshots.isEmpty := by
  unfold replayFlight at replayed
  split at replayed
  · cases replayed
  · rename_i after flown
    cases replayed
    simpa using isSome_of_fly _ _ none _ (congrArg Prod.fst flown)
  · rename_i outcome after flown
    have filled := isSome_of_fly _ _ (some outcome) _ (congrArg Prod.fst flown)
    split at replayed
    · cases replayed
    · cases replayed
      simpa using filled

section Jobs

variable (flights : List (RecordedFlight ν)) (plan : Plan) (entropy : Nat → Source)

theorem train_eq_ok_iff (engine : Engine ν φ) (report : Report) :
    (train flights plan entropy engine).1 = .ok report ↔
      ∃ summaries, (doJobs flights plan entropy
          ((List.range (plan.workerCount flights.length)).flatMap
            (jobsOf (plan.jobCount flights.length) (plan.workerCount flights.length)))
          engine).1 = .ok summaries ∧
        .ofSummaries (plan.jobCount flights.length) summaries = report := by
  unfold train
  dsimp only
  cases doJobs flights plan entropy _ engine with
  | mk result after =>
      cases result with
      | error error => simp
      | ok summaries => simp

def AllJobs (property : Engine ν φ → Source → RecordedFlight ν → Prop) :
    List Nat → Engine ν φ → Prop
  | [], _ => True
  | job :: jobs, engine =>
    match flights[job % flights.length]? with
    | none => AllJobs property jobs engine
    | some flight =>
      property engine (plan.sourceOf entropy job) flight ∧
        AllJobs property jobs (replayFlight flight (plan.sourceOf entropy job) engine).2

def hasSteps (job : Nat) : Bool :=
  flights[job % flights.length]?.any fun flight => !flight.snapshots.isEmpty

theorem doJobs_eq_ok_iff (jobs : List Nat) (engine : Engine ν φ) :
    (∃ summaries, (doJobs flights plan entropy jobs engine).1 = .ok summaries) ↔
      AllJobs flights plan entropy Succeeds jobs engine := by
  induction jobs generalizing engine with
  | nil => exact iff_of_true ⟨[], rfl⟩ trivial
  | cons job jobs ih =>
      rw [doJobs, AllJobs]
      cases flights[job % flights.length]? with
      | none => exact ih engine
      | some flight =>
          dsimp only
          rw [Succeeds, ← ih]
          cases replayFlight flight (plan.sourceOf entropy job) engine with
          | mk result between =>
              cases result with
              | error error => simp
              | ok summary? =>
                  dsimp only
                  cases doJobs flights plan entropy jobs between with
                  | mk others after =>
                      cases others with
                      | error error => simp
                      | ok summaries => simp

theorem length_doJobs (jobs : List Nat) (engine : Engine ν φ) (summaries : List Summary)
    (done : (doJobs flights plan entropy jobs engine).1 = .ok summaries) :
    summaries.length = jobs.countP (hasSteps flights) := by
  induction jobs generalizing engine summaries with
  | nil =>
      cases done
      rfl
  | cons job jobs ih =>
      rw [doJobs] at done
      rw [List.countP_cons, hasSteps]
      cases found : flights[job % flights.length]? with
      | none =>
          rw [found] at done
          exact ih engine summaries done
      | some flight =>
          rw [found] at done
          dsimp only at done
          split at done
          · cases done
          · rename_i summary? between replayed
            have own := isSome_of_replayFlight flight _ engine summary?
              (congrArg Prod.fst replayed)
            split at done
            · cases done
            · rename_i others after later
              cases done
              rw [List.length_append, ih between others (congrArg Prod.fst later),
                Option.any_some, ← own]
              cases summary? <;> simp [Nat.add_comm]

end Jobs

theorem fly_keeps (snapshots : List (Flight.Snapshot ν)) (last : Option (Outcome ν))
    (run : Run ν φ) (sound : run.Sound) : Run.Keeps run (fly snapshots last run).2 := by
  induction snapshots generalizing last run with
  | nil => exact sound.refl
  | cons snapshot snapshots ih =>
      have kept := (run.step_spec sound snapshot).keeps
      rw [fly]
      cases stepped : run.step snapshot with
      | mk result after =>
          rw [stepped] at kept
          cases result with
          | error error => exact kept
          | ok outcome => exact kept.trans (ih _ after kept.sound)

theorem fly_of_namesApart (snapshots : List (Flight.Snapshot ν)) (last : Option (Outcome ν))
    (run : Run ν φ) (sound : run.Sound) (apart : run.engine.NamesApart) :
    ∃ result, (fly snapshots last run).1 = .ok result := by
  induction snapshots generalizing last run with
  | nil => exact ⟨last, rfl⟩
  | cons snapshot snapshots ih =>
      have kept := (run.step_spec sound snapshot).keeps
      rcases run.settles_of_namesApart sound apart snapshot with ⟨outcome, succeeded, _⟩
      rw [fly]
      cases stepped : run.step snapshot with
      | mk result after =>
          rw [stepped] at kept succeeded
          cases succeeded
          exact ih _ after kept.sound (apart.of_sameShape kept.shape)

/-- An engine on which flights can begin, where a word counts the buckets of every field. -/
structure Counted (engine : Engine ν φ) : Prop where
  sound : engine.Sound
  counted : ∀ definition ∈ engine.definitions, Grid.Regular definition.layout.ranges

section Counted

variable {engine : Engine ν φ} (counted : Counted engine)

include counted

omit [Elementary ν] [RankedValue φ] [Stored ν φ] in
theorem Counted.of_sameShape (other : Engine ν φ) (shape : Engine.SameShape engine other) :
    Counted other :=
  ⟨counted.sound.of_sameShape other shape, shape.definitions ▸ counted.counted⟩

omit [Elementary ν] [RankedValue φ] [Stored ν φ] in
theorem Counted.start (source : Source) : Run.Sound ⟨engine, .start source⟩ :=
  ⟨counted.sound, counted.counted, fun _ member => nomatch member⟩

theorem Counted.replayFlight (source : Source) (flight : RecordedFlight ν) :
    Engine.SameShape engine (replayFlight flight source engine).2 ∧
      (StepsSucceed engine source flight ↔ Succeeds engine source flight) := by
  have kept := fly_keeps flight.snapshots none _ (counted.start source)
  unfold StepsSucceed Succeeds Replay.replayFlight
  cases flown : fly flight.snapshots none ⟨engine, .start source⟩ with
  | mk result run =>
      rw [flown] at kept
      cases result with
      | error error => exact ⟨kept.shape, by simp⟩
      | ok last =>
          cases last with
          | none => exact ⟨kept.shape, by simp⟩
          | some outcome =>
              rcases kept.sound.finish_eq_ok outcome.verdict with ⟨summary, ended⟩
              have shape := run.engine.finish_sameShape run.episode outcome.verdict
              dsimp only
              cases finished : run.engine.finish run.episode outcome.verdict with
              | mk result after =>
                  rw [finished] at ended shape
                  cases ended
                  exact ⟨kept.shape.trans shape, by simp⟩

variable (flights : List (RecordedFlight ν)) (plan : Plan) (entropy : Nat → Source)

theorem Counted.allJobs_iff (jobs : List Nat) :
    AllJobs flights plan entropy StepsSucceed jobs engine ↔
      AllJobs flights plan entropy Succeeds jobs engine := by
  induction jobs generalizing engine with
  | nil => exact Iff.rfl
  | cons job jobs ih =>
      rw [AllJobs, AllJobs]
      cases flights[job % flights.length]? with
      | none => exact ih counted
      | some flight =>
          rcases counted.replayFlight (plan.sourceOf entropy job) flight with ⟨shape, succeeds⟩
          exact and_congr succeeds (ih (counted.of_sameShape _ shape))

theorem Counted.allJobs_of_namesApart (apart : engine.NamesApart) (jobs : List Nat) :
    AllJobs flights plan entropy StepsSucceed jobs engine := by
  induction jobs generalizing engine with
  | nil => trivial
  | cons job jobs ih =>
      rw [AllJobs]
      cases flights[job % flights.length]? with
      | none => exact ih counted apart
      | some flight =>
          have shape := (counted.replayFlight (plan.sourceOf entropy job) flight).1
          exact ⟨fly_of_namesApart _ none _ (counted.start _) apart,
            ih (counted.of_sameShape _ shape) (apart.of_sameShape shape)⟩

end Counted

end Replay

namespace Session

def Answer.isFailedStep : Answer ν → Bool
  | stepped (.error _) => true
  | _ => false

theorem call_sound (session : Session ν φ)
    (sound : ∀ flight, Run.Sound ⟨session.engine, session.flights flight⟩) (call : Call ν) :
    (∀ flight, Run.Sound ⟨(session.call call).2.engine, (session.call call).2.flights flight⟩) ∧
      (session.call call).1.isOk = !(session.call call).1.isFailedStep := by
  cases call with
  | step flight snapshot =>
      have kept := (Run.step_spec _ (sound flight) snapshot).keeps
      constructor
      · intro other
        by_cases own : other = flight
        · subst own
          simp only [Session.call, Function.update_self]
          exact kept.sound
        · -- another flight keeps its trajectories, on an engine of the same shape
          simp only [Session.call, Function.update_of_ne own]
          exact (sound other).meanwhile _ kept.shape
      · simp only [Session.call]
        cases (Run.step ⟨session.engine, session.flights flight⟩ snapshot).1 <;> rfl
  | finish flight verdict =>
      have shape := session.engine.finish_sameShape (session.flights flight) verdict
      constructor
      · intro other
        exact (sound other).meanwhile _ shape
      · rcases (sound flight).finish_eq_ok verdict with ⟨summary, ended⟩
        simp only [Session.call]
        rw [ended]
        rfl

/-- Calls about any flights in any order fail only at steps. -/
theorem run_isOk (calls : List (Call ν)) (session : Session ν φ)
    (sound : ∀ flight, Run.Sound ⟨session.engine, session.flights flight⟩)
    (stepped : ∀ answer ∈ (run calls session).1, answer.isFailedStep = false) :
    ∀ answer ∈ (run calls session).1, answer.isOk = true := by
  induction calls generalizing session with
  | nil => exact fun _ member => nomatch member
  | cons call calls ih =>
      rcases List.forall_mem_cons.mp stepped with ⟨first, others⟩
      rcases session.call_sound sound call with ⟨kept, answered⟩
      exact List.forall_mem_cons.mpr ⟨answered.trans (congrArg (!·) first), ih _ kept others⟩

end Session

namespace Replay

def jobCalls (flight : RecordedFlight ν) (verdict : List Bool) (job : Nat) :
    List (Session.Call ν) :=
  flight.snapshots.map (.step job) ++
    if flight.snapshots.isEmpty then [] else [.finish job verdict]

/-- Calls that take effect in any order, each job's own ones in their order. -/
structure Interleaves (flights : List (RecordedFlight ν)) (jobs : Nat)
    (calls : List (Session.Call ν)) : Prop where
  known : ∀ call ∈ calls, call.flight < jobs
  each : ∀ job < jobs, ∃ flight verdict, flights[job % flights.length]? = some flight ∧
    calls.filter (·.flight = job) = jobCalls flight verdict job

omit [Scalar ν] [Elementary ν] in
theorem Interleaves.countP_isFinish {flights : List (RecordedFlight ν)} {jobs : Nat}
    {calls : List (Session.Call ν)} (interleaves : Interleaves flights jobs calls) :
    calls.countP Session.Call.isFinish = (List.range jobs).countP (hasSteps flights) := by
  rw [← (places_perm Session.Call.flight jobs calls interleaves.known).countP_eq]
  refine countP_flatMap_once _ _ _ _ fun job below => ?_
  rcases interleaves.each job (List.mem_range.mp below) with ⟨flight, verdict, found, own⟩
  have steps : (flight.snapshots.map (Session.Call.step job)).countP Session.Call.isFinish = 0 := by
    rw [List.countP_map, List.countP_eq_zero]
    exact fun _ _ => Bool.false_ne_true
  rw [own, jobCalls, List.countP_append, steps, hasSteps, found, Option.any_some]
  cases flight.snapshots.isEmpty <;> rfl

omit [Scalar ν] [Elementary ν] in
theorem countP_hasSteps (flights : List (RecordedFlight ν)) (plan : Plan)
    (deals : plan.Deals flights.length) :
    (List.range (plan.jobCount flights.length)).countP (hasSteps flights) =
      plan.passes * flights.countP fun flight => !flight.snapshots.isEmpty := by
  rw [deals.total]
  exact countP_flights flights plan.passes fun flight => !flight.snapshots.isEmpty

theorem counts_of_train (flights : List (RecordedFlight ν)) (plan : Plan)
    (entropy : Nat → Source) (deals : plan.Deals flights.length) (engine : Engine ν φ)
    (report : Report) (reported : (train flights plan entropy engine).1 = .ok report) :
    report.episodes = plan.passes * flights.countP (fun flight => !flight.snapshots.isEmpty) ∧
      report.skipped = plan.passes * flights.countP fun flight => flight.snapshots.isEmpty := by
  let filled := flights.countP fun flight => !flight.snapshots.isEmpty
  let empty := flights.countP fun flight => flight.snapshots.isEmpty
  rcases (train_eq_ok_iff flights plan entropy engine report).mp reported with
    ⟨summaries, done, rfl⟩
  have episodes : summaries.length = plan.passes * filled := by
    rw [length_doJobs flights plan entropy _ engine summaries done, deals.once.countP_eq,
      countP_hasSteps flights plan deals]
  have either : flights.length = filled + empty := by
    rw [flights.length_eq_countP_add_countP fun flight => !flight.snapshots.isEmpty]
    refine congrArg _ (List.countP_congr fun flight _ => ?_)
    simp
  have total : plan.jobCount flights.length = plan.passes * filled + plan.passes * empty := by
    calc plan.jobCount flights.length
        = flights.length * plan.passes := deals.total
      _ = plan.passes * flights.length := Nat.mul_comm _ _
      _ = plan.passes * filled + plan.passes * empty := by rw [either, Nat.mul_add]
  refine ⟨episodes, ?_⟩
  rw [Report.ofSummaries, episodes]
  exact Nat.sub_eq_of_eq_add (total.trans (Nat.add_comm _ _))

/-- What a replay of a recording reports, for any number of passes and workers. Every job is done
once, and a report that is given counts each flight with snapshots once a pass, and each other one
as skipped. There is one exactly if no step of a job fails and no end, so always if there are no
jobs. Where a word counts the buckets of every field, ends do not fail, also if the calls of the
workers take effect in any order; and no step fails if no definition is named like another one with
the letter of an axis appended. -/
theorem replay_reports_every_job (documents : List (Document ν)) (config : Config)
    (fresh engine : Engine ν φ) (built : Engine.build documents config = .ok fresh)
    (trained : Engine.Trained fresh engine) (flights : List (RecordedFlight ν)) (plan : Plan)
    (entropy : Nat → Source) (bounded : flights.length * plan.passes < Word.limit)
    (staffed : 1 ≤ plan.workers) :
    let total := plan.jobCount flights.length
    let workers := plan.workerCount flights.length
    let jobs := (List.range workers).flatMap (jobsOf total workers)
    let filled := flights.countP fun flight => !flight.snapshots.isEmpty
    let empty := flights.countP fun flight => flight.snapshots.isEmpty
    plan.Deals flights.length ∧
      (∀ report, (train flights plan entropy engine).1 = .ok report →
        report.episodes = plan.passes * filled ∧ report.skipped = plan.passes * empty) ∧
      ((∃ report, (train flights plan entropy engine).1 = .ok report) ↔
        AllJobs flights plan entropy Succeeds jobs engine) ∧
      (total = 0 → ∃ report, (train flights plan entropy engine).1 = .ok report) ∧
      ((∀ definition ∈ fresh.definitions, Grid.Regular definition.layout.ranges) →
        ((∃ report, (train flights plan entropy engine).1 = .ok report) ↔
            AllJobs flights plan entropy StepsSucceed jobs engine) ∧
          (fresh.NamesApart → ∃ report, (train flights plan entropy engine).1 = .ok report) ∧
          ∀ calls, Interleaves flights total calls →
            let answers :=
              (Session.run calls ⟨engine, fun job => .start (plan.sourceOf entropy job)⟩).1
            (∀ answer ∈ answers, answer.isFailedStep = false) →
              (∀ answer ∈ answers, answer.isOk = true) ∧
                calls.countP Session.Call.isFinish = plan.passes * filled) := by
  intro total workers jobs filled empty
  have deals := plan.deals flights.length bounded staffed
  have reports : (∃ report, (train flights plan entropy engine).1 = .ok report) ↔
      AllJobs flights plan entropy Succeeds jobs engine := by
    rw [← doJobs_eq_ok_iff]
    simp only [train_eq_ok_iff]
    exact ⟨fun ⟨_, summaries, done, _⟩ => ⟨summaries, done⟩,
      fun ⟨summaries, done⟩ => ⟨_, summaries, done, rfl⟩⟩
  refine ⟨deals, ?_, reports, ?_, ?_⟩
  · exact fun report => counts_of_train flights plan entropy deals engine report
  · intro none
    have idle : jobs = [] := by
      have dealt : jobs.Perm (List.range total) := deals.once
      rw [none] at dealt
      exact dealt.eq_nil
    rw [reports, idle]
    trivial
  · intro regular
    have shape := trained.sameShape
    have counted : Counted engine :=
      ⟨(Engine.build_sound documents config fresh built).of_sameShape engine shape,
        shape.definitions ▸ regular⟩
    rw [reports, ← counted.allJobs_iff]
    refine ⟨Iff.rfl, fun apart =>
      counted.allJobs_of_namesApart flights plan entropy (apart.of_sameShape shape) jobs, ?_⟩
    intro calls interleaves answers stepped
    refine ⟨Session.run_isOk calls _ (fun job => counted.start _) stepped, ?_⟩
    exact interleaves.countP_isFinish.trans (countP_hasSteps flights plan deals)

/-- A vehicle that learns from whole flights and always acts at random. -/
def climbing : List (Document Float) :=
  [{ Document.blank with
      name := "climb"
      methods := [.monteCarlo]
      params := { Params.standard with exploration := 1.0 }
      state := [⟨"positionZ", 0.0, 2.0, some 1.0⟩]
      terminalReward := some "1" }]

/-- A flight and an empty one are replayed twice by nine workers, of whom four have a job. In
between the steps of one worker come those of another one. -/
theorem replay_reports_every_job_two_passes :
    let flights : List (RecordedFlight Float) := [⟨[.atRest]⟩, ⟨[]⟩]
    let plan : Plan := ⟨2, 9, some 7⟩
    let entropy : Nat → Source := fun _ => .ofWords []
    let calls : List (Session.Call Float) :=
      [.step 2 .atRest, .step 0 .atRest, .finish 2 [true], .finish 0 [true]]
    ∃ fresh : Engine Float Float32, Engine.build climbing .standard = .ok fresh ∧
      plan.workerCount flights.length = 4 ∧
      (∃ report, (train flights plan entropy fresh).1 = .ok report ∧ report.episodes = 2 ∧
        report.skipped = 2) ∧
      Interleaves flights 4 calls ∧
      ∀ answer ∈ (Session.run calls ⟨fresh, fun job => .start (plan.sourceOf entropy job)⟩).1,
        answer.isOk = true := by
  intro flights plan entropy calls
  have facts : (Engine.build climbing .standard).toOption.any
      (fun fresh : Engine Float Float32 =>
        decide (fresh.definitions.map (fun definition =>
          (definition.name, definition.layout.ranges)) = [("climb", [⟨"positionZ", 0, 2⟩])]) &&
        (Session.run calls ⟨fresh, fun job => .start (plan.sourceOf entropy job)⟩).1.all
          fun answer => !answer.isFailedStep) = true := by
    decide +kernel
  rcases (Option.any_eq_true _ _).mp facts with ⟨fresh, made, checked⟩
  rw [Bool.and_eq_true, decide_eq_true_eq] at checked
  rcases checked with ⟨shape, stepped⟩
  have built := eq_ok_of_toOption made
  have interleaves : Interleaves flights 4 calls := by
    refine ⟨by simp [calls, Session.Call.flight], ?_⟩
    intro job below
    interval_cases job
    · exact ⟨⟨[.atRest]⟩, [true], by simp [flights], rfl⟩
    · exact ⟨⟨[]⟩, [], by simp [flights], rfl⟩
    · exact ⟨⟨[.atRest]⟩, [true], by simp [flights], rfl⟩
    · exact ⟨⟨[]⟩, [], by simp [flights], rfl⟩
  have known : ∀ definition ∈ fresh.definitions,
      definition.name = "climb" ∧ definition.layout.ranges = [⟨"positionZ", 0, 2⟩] := by
    intro definition member
    have listed := List.mem_map_of_mem (f := fun definition : Definition Float =>
      (definition.name, definition.layout.ranges)) member
    rw [shape, List.mem_singleton] at listed
    exact Prod.mk.inj listed
  have counted : ∀ definition ∈ fresh.definitions, Grid.Regular definition.layout.ranges := by
    intro definition member
    rw [(known definition member).2]
    exact List.forall_mem_singleton.mpr ⟨by decide, by decide⟩
  have apart : fresh.NamesApart := by
    intro first member second inside axis
    rw [(known first member).1, (known second inside).1]
    cases axis <;> decide
  rcases replay_reports_every_job climbing .standard fresh fresh built .fresh flights plan
    entropy (by decide) (by decide) with ⟨_, reports, _, _, regular⟩
  rcases regular counted with ⟨_, given, settled⟩
  rcases given apart with ⟨report, reported⟩
  rcases reports report reported with ⟨episodes, skipped⟩
  refine ⟨fresh, built, by decide, ⟨report, reported, episodes, skipped⟩, interleaves, ?_⟩
  exact (settled calls interleaves (by simpa using stepped)).1

end Replay

end Autoland
