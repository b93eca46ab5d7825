import Autoland.Learning.Odometer
import Mathlib.Algebra.BigOperators.Ring.List
import Mathlib.Algebra.GroupWithZero.Nat
import Mathlib.Data.List.Chain

/-! An odometer shows all digits below the lengths of its columns, so that the choices it runs
through are those of the first column before those of the others. -/

namespace Autoland.Learning

def allDigits : List Nat → List (List Nat)
  | [] => [[]]
  | length :: lengths =>
    (List.range length).flatMap fun digit => (allDigits lengths).map (digit :: ·)

/-- Whether a list of digits is one sweep of an odometer that starts at zero and ends where no digit
can move on. -/
structure Sweep (lengths : List Nat) (visited : List (List Nat)) : Prop where
  start : visited.head? = some (List.replicate lengths.length 0)
  steps : visited.IsChain fun digits next => advance lengths digits = some next
  stop : ∃ last ∈ visited.getLast?, advance lengths last = none

theorem length_allDigits (lengths : List Nat) : (allDigits lengths).length = lengths.prod := by
  induction lengths with
  | nil => rfl
  | cons length lengths ih =>
      rw [allDigits, List.length_flatMap]
      simp [ih]

theorem advance_inner (length : Nat) {lengths digits next : List Nat} (digit : Nat)
    (moves : advance lengths digits = some next) :
    advance (length :: lengths) (digit :: digits) = some (digit :: next) := by
  rw [advance, moves]

theorem advance_outer (length : Nat) {lengths digits : List Nat} (digit : Nat)
    (ended : advance lengths digits = none) :
    advance (length :: lengths) (digit :: digits) =
      if digit + 1 < length then some ((digit + 1) :: List.replicate lengths.length 0)
      else none := by
  rw [advance, ended]

theorem Sweep.blocks {lengths : List Nat} {visited : List (List Nat)}
    (sweep : Sweep lengths visited) (length count : Nat) (below : count < length) :
    let blocks := (List.range (count + 1)).flatMap fun digit => visited.map (digit :: ·)
    blocks.head? = some (0 :: List.replicate lengths.length 0) ∧
      blocks.IsChain (fun digits next => advance (length :: lengths) digits = some next) ∧
      ∃ last, advance lengths last = none ∧ blocks.getLast? = some (count :: last) := by
  obtain ⟨start, steps, last, ended, stop⟩ := sweep
  have chained (digit : Nat) : (visited.map (digit :: ·)).IsChain fun digits next =>
      advance (length :: lengths) digits = some next :=
    (List.isChain_map _).mpr (steps.imp fun _ _ moves => advance_inner length digit moves)
  induction count with
  | zero =>
      have single : (List.range (0 + 1)).flatMap (fun digit => visited.map (digit :: ·)) =
          visited.map (0 :: ·) := List.flatMap_singleton _ _
      rw [single]
      refine ⟨?_, chained 0, last, stop, ?_⟩
      · rw [List.head?_map, start]
        rfl
      · rw [List.getLast?_map, Option.mem_def.mp ended]
        rfl
  | succ count ih =>
      obtain ⟨first, before, rest, carried, latest⟩ := ih (by omega)
      intro blocks
      have split : blocks = (List.range (count + 1)).flatMap
          (fun digit => visited.map (digit :: ·)) ++ visited.map ((count + 1) :: ·) := by
        change (List.range (count + 1 + 1)).flatMap _ = _
        rw [List.range_succ, List.flatMap_append, List.flatMap_singleton]
      rw [split]
      refine ⟨?_, List.isChain_append.mpr ⟨before, chained (count + 1), ?_⟩, last, stop, ?_⟩
      · rw [List.head?_append, first]
        rfl
      · -- between two blocks the inner digits start again
        intro final member next inside
        rw [latest, Option.mem_some_iff] at member
        rw [List.head?_map, start, Option.map_some, Option.mem_some_iff] at inside
        rw [← member, ← inside, advance_outer length count carried, if_pos below]
      · rw [List.getLast?_append, List.getLast?_map, Option.mem_def.mp ended]
        rfl

theorem sweep_allDigits (lengths : List Nat) (positive : ∀ length ∈ lengths, 0 < length) :
    Sweep lengths (allDigits lengths) := by
  induction lengths with
  | nil => exact ⟨rfl, List.isChain_singleton _, [], rfl, rfl⟩
  | cons length lengths ih =>
      obtain ⟨filled, others⟩ := List.forall_mem_cons.mp positive
      obtain ⟨start, steps, last, carried, latest⟩ :=
        (ih others).blocks length (length - 1) (by omega)
      rw [Nat.sub_add_cancel filled] at start steps latest
      refine ⟨start, steps, _, latest, ?_⟩
      rw [advance_outer length _ carried, if_neg (by omega)]

theorem odometer_of_chain (lengths digits : List Nat) (others : List (List Nat))
    (steps : (digits :: others).IsChain fun digits next => advance lengths digits = some next)
    (stop : ∃ last ∈ (digits :: others).getLast?, advance lengths last = none) :
    odometer lengths (others.length + 1) digits = digits :: others := by
  induction others generalizing digits with
  | nil =>
      obtain ⟨last, ended, stop⟩ := stop
      rw [List.getLast?_singleton, Option.mem_some_iff] at ended
      rw [List.length_nil, odometer, ended, stop]
  | cons next others ih =>
      obtain ⟨moves, steps⟩ := List.isChain_cons_cons.mp steps
      rw [List.getLast?_cons_cons] at stop
      rw [List.length_cons, odometer, moves]
      exact congrArg (digits :: ·) (ih next steps stop)

/-- A sweep is what the odometer shows, so that there is no other one. -/
theorem Sweep.odometer_eq {lengths : List Nat} {visited : List (List Nat)}
    (sweep : Sweep lengths visited) :
    odometer lengths visited.length (List.replicate lengths.length 0) = visited := by
  obtain ⟨others, rfl⟩ := List.head?_eq_some_iff.mp sweep.start
  rw [List.length_cons]
  exact odometer_of_chain lengths _ others sweep.steps sweep.stop

/-- The odometer comes to its end by itself: the product of the lengths is no early limit. -/
theorem odometer_eq_allDigits (lengths : List Nat) (positive : ∀ length ∈ lengths, 0 < length) :
    odometer lengths (lengths.foldr (· * ·) 1) (List.replicate lengths.length 0) =
      allDigits lengths := by
  rw [← List.prod_eq_foldr, ← length_allDigits]
  exact (sweep_allDigits lengths positive).odometer_eq

theorem combinations_eq (columns : List (String × List Int)) :
    combinations columns = (allDigits (lengths columns)).map (choiceAt columns) := by
  unfold combinations
  split
  · rename_i lacking
    obtain ⟨column, member, empty⟩ := List.any_eq_true.mp lacking
    have zero : 0 ∈ lengths columns := by
      refine List.mem_map.mpr ⟨column, member, ?_⟩
      rw [List.isEmpty_iff.mp empty, List.length_nil]
    have none : (allDigits (lengths columns)).length = 0 := by
      rw [length_allDigits]
      exact List.prod_eq_zero zero
    rw [List.length_eq_zero_iff.mp none, List.map_nil]
  · rename_i full
    have positive : ∀ length ∈ lengths columns, 0 < length := by
      intro length member
      obtain ⟨column, inside, rfl⟩ := List.mem_map.mp member
      apply List.length_pos_of_ne_nil
      intro empty
      exact full (List.any_eq_true.mpr ⟨column, inside, by rw [empty, List.isEmpty_nil]⟩)
    dsimp only
    rw [odometer_eq_allDigits _ positive]

theorem combinations_nil : combinations [] = [[]] := rfl

theorem combinations_cons (field : String) (buckets : List Int)
    (columns : List (String × List Int)) :
    combinations ((field, buckets) :: columns) =
      buckets.flatMap fun bucket => (combinations columns).map ((field, bucket) :: ·) := by
  have read : buckets = (List.range buckets.length).map (buckets.getD · 0) := by
    apply List.ext_getElem
    · simp
    · intro digit below _
      simp [below]
  calc combinations ((field, buckets) :: columns)
    _ = ((List.range buckets.length).flatMap fun digit =>
          (allDigits (lengths columns)).map (digit :: ·)).map
            (choiceAt ((field, buckets) :: columns)) := combinations_eq _
    _ = (List.range buckets.length).flatMap fun digit =>
          (combinations columns).map ((field, buckets.getD digit 0) :: ·) := by
        rw [List.map_flatMap, combinations_eq]
        simp only [List.map_map]
        rfl
    _ = buckets.flatMap fun bucket => (combinations columns).map ((field, bucket) :: ·) := by
        conv_rhs => rw [read]
        rw [List.flatMap_map]

end Autoland.Learning
