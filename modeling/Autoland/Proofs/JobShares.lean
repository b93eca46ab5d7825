import Autoland.Proofs.Pairs
import Autoland.Replay.Training
import Mathlib.Tactic

/-! How the jobs of a recording are dealt out: each job to one worker, each flight to as many jobs
as there are passes, and a seed of its own to each job of a plan with seeds. -/

namespace Autoland.Replay

section Shares

variable (total workers worker : Nat) (low : worker < workers)

include low

theorem mem_jobsOf (job : Nat) :
    job ∈ jobsOf total workers worker ↔ job < total ∧ job % workers = worker := by
  have positive : 0 < workers := Nat.zero_lt_of_lt low
  simp only [jobsOf, List.mem_map, List.mem_range]
  constructor
  · rintro ⟨turn, few, rfl⟩
    rw [Nat.lt_div_iff_mul_lt positive] at few
    refine ⟨by omega, ?_⟩
    rw [Nat.add_mul_mod_self_right, Nat.mod_eq_of_lt low]
  · rintro ⟨below, rfl⟩
    refine ⟨job / workers, ?_, ?_⟩
    · rw [Nat.lt_div_iff_mul_lt positive]
      have parts := Nat.mod_add_div' job workers
      omega
    · exact Nat.mod_add_div' job workers

theorem jobsOf_sorted : (jobsOf total workers worker).Pairwise (· < ·) := by
  have positive : 0 < workers := Nat.zero_lt_of_lt low
  rw [jobsOf, List.pairwise_map]
  refine List.pairwise_lt_range.imp fun less => ?_
  exact Nat.add_lt_add_left (Nat.mul_lt_mul_of_pos_right less positive) worker

theorem jobsOf_eq_filter :
    jobsOf total workers worker = (List.range total).filter (· % workers = worker) := by
  refine eq_of_increasing id _ _ (jobsOf_sorted total workers worker low)
    (List.pairwise_lt_range.filter _) fun job => ?_
  rw [mem_jobsOf total workers worker low, List.mem_filter, List.mem_range, decide_eq_true_eq]

end Shares

theorem places_perm {α : Type} (key : α → Nat) (places : Nat) (items : List α)
    (known : ∀ item ∈ items, key item < places) :
    ((List.range places).flatMap fun place => items.filter (key · = place)).Perm items := by
  -- The induction takes the items with the last key off; the others have a place below it.
  induction places generalizing items with
  | zero =>
      cases items with
      | nil => exact .nil
      | cons item items => exact absurd (known item List.mem_cons_self) (Nat.not_lt_zero _)
  | succ places ih =>
      have low := ih (items.filter (key · < places)) (by simp)
      have earlier : ((List.range places).flatMap fun place =>
          (items.filter (key · < places)).filter (key · = place)) =
            (List.range places).flatMap fun place => items.filter (key · = place) := by
        refine List.flatMap_congr fun place below => ?_
        rw [List.filter_filter]
        refine List.filter_congr fun item _ => ?_
        have small := List.mem_range.mp below
        by_cases own : key item = place
        · simp [own, small]
        · simp [own]
      have last : items.filter (key · = places) =
          items.filter fun item => !decide (key item < places) := by
        refine List.filter_congr fun item member => ?_
        have bound := known item member
        rw [Bool.eq_iff_iff, decide_eq_true_eq, Bool.not_eq_true', decide_eq_false_iff_not]
        omega
      rw [List.range_succ, List.flatMap_append, List.flatMap_singleton, ← earlier, last]
      exact (low.append_right _).trans (List.filter_append_perm _ items)

theorem jobs_perm (total workers : Nat) (positive : 0 < workers) :
    ((List.range workers).flatMap (jobsOf total workers)).Perm (List.range total) := by
  have shares : ((List.range workers).flatMap (jobsOf total workers)) =
      (List.range workers).flatMap fun worker =>
        (List.range total).filter (· % workers = worker) :=
    List.flatMap_congr fun worker low => jobsOf_eq_filter _ _ _ (List.mem_range.mp low)
  rw [shares]
  exact places_perm (· % workers) workers _ fun job _ => Nat.mod_lt job positive

/-- Where each of some lists has one item that passes a test or none, there are as many such items
as such lists. -/
theorem countP_flatMap_once {α β : Type} (lists : β → List α) (test : α → Bool) (has : β → Bool)
    (items : List β) (each : ∀ item ∈ items, (lists item).countP test = (has item).toNat) :
    (items.flatMap lists).countP test = items.countP has := by
  induction items with
  | nil => rfl
  | cons item items ih =>
      rcases List.forall_mem_cons.mp each with ⟨head, rest⟩
      rw [List.flatMap_cons, List.countP_append, head, ih rest, List.countP_cons, Nat.add_comm]
      cases has item <;> rfl

theorem countP_rounds (count rounds : Nat) (test : Nat → Bool) :
    (List.range (count * rounds)).countP (fun job => test (job % count)) =
      rounds * (List.range count).countP test := by
  induction rounds with
  | zero => simp
  | succ rounds ih =>
      have round : ((List.range count).countP fun place =>
          test ((count * rounds + place) % count)) = (List.range count).countP test := by
        refine List.countP_congr fun place below => ?_
        rw [Nat.mul_add_mod, Nat.mod_eq_of_lt (List.mem_range.mp below)]
      rw [Nat.mul_succ, List.range_add, List.countP_append, ih, List.countP_map, Nat.succ_mul]
      exact congrArg _ round

theorem countP_flights {α : Type} (flights : List α) (rounds : Nat) (test : α → Bool) :
    (List.range (flights.length * rounds)).countP (fun job =>
        flights[job % flights.length]?.any test) = rounds * flights.countP test := by
  have places : (List.range flights.length).map (flights[·]?) = flights.map some := by
    refine List.ext_getElem (by simp) fun place _ below => ?_
    rw [List.length_map] at below
    simp [List.getElem?_eq_getElem below]
  have once : (List.range flights.length).countP (fun place => flights[place]?.any test) =
      flights.countP test := by
    have counted := congrArg (List.countP fun flight : Option α => flight.any test) places
    rwa [List.countP_map, List.countP_map] at counted
  rw [← once]
  exact countP_rounds flights.length rounds fun place => flights[place]?.any test

namespace Plan

variable (plan : Plan)

theorem seedOf_inj (seeded : plan.seed.isSome) (first second : Nat) (low : first < Word.limit)
    (small : second < Word.limit) (same : plan.seedOf first = plan.seedOf second) :
    first = second := by
  obtain ⟨seed, given⟩ := Option.isSome_iff_exists.mp seeded
  simp only [seedOf, given, Option.map_some, Option.some.injEq] at same
  have seeds : first.toUInt64 = second.toUInt64 := (UInt64.add_right_inj seed).mp same
  have numbers := congrArg UInt64.toNat seeds
  rwa [UInt64.toNat_ofNat_of_lt' low, UInt64.toNat_ofNat_of_lt' small] at numbers

/-- How the jobs of a number of flights are dealt out: there is a worker at least, each job has one
worker and is one of the flights, each flight has as many jobs as there are passes, and no two jobs
have the same seed if they have seeds. -/
structure Deals (flights : Nat) : Prop where
  total : plan.jobCount flights = flights * plan.passes
  staffed : 0 < plan.workerCount flights ∧ plan.workerCount flights ≤ plan.workers
  shares : ∀ worker < plan.workerCount flights,
    jobsOf (plan.jobCount flights) (plan.workerCount flights) worker =
      (List.range (plan.jobCount flights)).filter (· % plan.workerCount flights = worker)
  once : ((List.range (plan.workerCount flights)).flatMap
    (jobsOf (plan.jobCount flights) (plan.workerCount flights))).Perm
      (List.range (plan.jobCount flights))
  flown : ∀ job < plan.jobCount flights, job % flights < flights
  passes : ∀ place < flights,
    (List.range (plan.jobCount flights)).countP (· % flights = place) = plan.passes
  seeds : plan.seed.isSome → ∀ first < plan.jobCount flights,
    ∀ second < plan.jobCount flights, plan.seedOf first = plan.seedOf second → first = second

theorem deals (flights : Nat) (bounded : flights * plan.passes < Word.limit)
    (staffed : 1 ≤ plan.workers) : plan.Deals flights := by
  have total : plan.jobCount flights = flights * plan.passes := Nat.mod_eq_of_lt bounded
  have positive : 0 < plan.workerCount flights := by
    unfold workerCount
    omega
  refine ⟨total, ⟨positive, Nat.min_le_left ..⟩, fun worker low => jobsOf_eq_filter _ _ _ low,
    jobs_perm _ _ positive, ?_, ?_, ?_⟩
  · intro job below
    rw [total] at below
    exact Nat.mod_lt job (Nat.pos_of_mul_pos_right (Nat.zero_lt_of_lt below))
  · intro place below
    have once : (List.range flights).countP (fun other => decide (other = place)) = 1 :=
      List.count_eq_one_of_mem List.nodup_range (List.mem_range.mpr below)
    rw [total, countP_rounds flights plan.passes fun other => decide (other = place), once,
      Nat.mul_one]
  · intro seeded first low second small
    rw [total] at low small
    exact plan.seedOf_inj seeded first second (low.trans bounded) (small.trans bounded)

end Plan

end Autoland.Replay
