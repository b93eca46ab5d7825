import Autoland.Proofs.Decisions
import Autoland.Proofs.FloatOrder
import Autoland.Proofs.RandomDraws
import Autoland.Proofs.RandomPicks
import Mathlib.Data.List.Induction

/-! What the policy draws from when it does not explore: the candidates of the greatest value. -/

namespace Autoland

namespace Learning

open Problem

theorem mem_zipIdx_positions {α : Type} (values : List α) (accepts : α → Prop)
    [DecidablePred accepts] (position : Nat) :
    position ∈ (values.zipIdx.filter fun entry => accepts entry.1).map (·.2) ↔
      ∃ value, values[position]? = some value ∧ accepts value := by
  simp only [List.mem_map, List.mem_filter, decide_eq_true_eq, Prod.exists, exists_eq_right,
    List.mem_zipIdx_iff_getElem?]

theorem pairwise_zipIdx_positions {α : Type} (values : List α) (accepts : α → Prop)
    [DecidablePred accepts] :
    ((values.zipIdx.filter fun entry => accepts entry.1).map (·.2)).Pairwise (· < ·) := by
  apply List.Pairwise.sublist (List.filter_sublist.map _)
  rw [List.zipIdx_map_snd, ← List.range_eq_range']
  exact List.pairwise_lt_range

theorem forall_mem_of_zipIdx {α : Type} {values : List α} {property : α → Prop}
    (all : ∀ entry ∈ values.zipIdx, property entry.1) : ∀ value ∈ values, property value := by
  intro value member
  obtain ⟨position, held⟩ := List.mem_iff_getElem?.mp member
  exact all (value, position) (List.mk_mem_zipIdx_iff_getElem?.mpr held)

section Greatest

variable {φ ρ : Type} [RankedValue φ] [LinearOrder ρ] (rank : φ → Option ρ)

/-- What a search for the greatest value has found among the entries it has seen: nothing above the
lowest value if none of them has a rank, else a value of the greatest rank and where it stands. -/
inductive Found (seen : List (φ × Nat)) : Best φ → Prop
  | nothing (bare : ∀ entry ∈ seen, rank entry.1 = none) : Found seen ⟨RankedValue.lowest, []⟩
  | greatest (value : φ) (top : ρ) (positions : List Nat) (ranked : rank value = some top)
      (bound : ∀ entry ∈ seen, ∀ place ∈ rank entry.1, place ≤ top) (filled : positions ≠ [])
      (listed : positions.reverse =
        (seen.filter fun entry => rank entry.1 = some top).map (·.2)) :
      Found seen ⟨value, positions⟩

variable {rank}

omit [RankedValue φ] in
theorem positions_append (seen : List (φ × Nat)) (next : φ) (position : Nat) (top : ρ) :
    ((seen ++ [(next, position)]).filter fun entry => rank entry.1 = some top).map (·.2) =
      (seen.filter fun entry => rank entry.1 = some top).map (·.2) ++
        if rank next = some top then [position] else [] := by
  rw [List.filter_append, List.map_append, List.filter_singleton]
  by_cases level : rank next = some top
  · simp [level]
  · simp [level]

theorem Found.above {seen : List (φ × Nat)} {value next : φ} {place : ρ} (position : Nat)
    (standing : rank value = some place) (ranked : rank next = some place)
    (less : ∀ entry ∈ seen, ∀ other ∈ rank entry.1, other < place) :
    Found rank (seen ++ [(next, position)]) ⟨value, [position]⟩ := by
  refine .greatest value place [position] standing ?_ (List.cons_ne_nil _ _) ?_
  · refine List.forall_mem_append.mpr ⟨fun entry member other held => ?_, ?_⟩
    · exact (less entry member other held).le
    · simp [ranked]
  · have others : ∀ entry ∈ seen, rank entry.1 ≠ some place := fun entry member held =>
      lt_irrefl place (less entry member place held)
    rw [positions_append, if_pos ranked]
    simp +contextual [List.filter_eq_nil_iff.mpr, others]

variable (lt_iff : ∀ x y : φ, x < y ↔ ∃ a ∈ rank x, ∃ b ∈ rank y, a < b)
  (beq_iff : ∀ x y : φ, (x == y) = true ↔ ∃ a ∈ rank x, a ∈ rank y)
  (lowest_le : ∃ bottom ∈ rank RankedValue.lowest, ∀ x : φ, ∀ place ∈ rank x, bottom ≤ place)

include lt_iff beq_iff

/-- The search takes in one more entry after it has found a ranked one. -/
theorem Found.add_greatest {seen : List (φ × Nat)} {value : φ} {top : ρ} {positions : List Nat}
    (ranked : rank value = some top) (bound : ∀ entry ∈ seen, ∀ place ∈ rank entry.1, place ≤ top)
    (filled : positions ≠ [])
    (listed : positions.reverse = (seen.filter fun entry => rank entry.1 = some top).map (·.2))
    (next : φ) (position : Nat) :
    Found rank (seen ++ [(next, position)]) (Best.add ⟨value, positions⟩ (next, position)) := by
  have below : value < next ↔ ∃ place ∈ rank next, top < place := by
    simp [lt_iff, ranked]
  have level : (next == value) = true ↔ rank next = some top := by
    rw [beq_iff]
    simp [ranked]
  by_cases greater : value < next
  · obtain ⟨place, placed, above⟩ := below.mp greater
    rw [Best.add]
    simp only [greater, if_true]
    exact Found.above position placed placed fun entry member other held =>
      (bound entry member other held).trans_lt above
  · have bound : ∀ entry ∈ seen ++ [(next, position)], ∀ place ∈ rank entry.1, place ≤ top := by
      refine List.forall_mem_append.mpr ⟨bound, List.forall_mem_singleton.mpr ?_⟩
      intro place placed
      exact not_lt.mp fun above => greater (below.mpr ⟨place, placed, above⟩)
    by_cases equal : (next == value) = true
    · rw [Best.add]
      simp only [greater, equal, if_false, if_true]
      refine .greatest value top (position :: positions) ranked bound (List.cons_ne_nil _ _) ?_
      rw [positions_append, if_pos (level.mp equal), List.reverse_cons, listed]
    · rw [Best.add]
      simp only [greater, equal, if_false]
      refine .greatest value top positions ranked bound filled ?_
      rw [positions_append, if_neg (mt level.mpr equal), List.append_nil, listed]

include lowest_le

/-- The first ranked entry is found: it is above the lowest value or equals it. -/
theorem Found.add_nothing {seen : List (φ × Nat)} (bare : ∀ entry ∈ seen, rank entry.1 = none)
    (next : φ) (position : Nat) : Found rank (seen ++ [(next, position)])
      (Best.add ⟨RankedValue.lowest, []⟩ (next, position)) := by
  obtain ⟨bottom, lowest, least⟩ := lowest_le
  rw [Best.add]
  cases ranked : rank next with
  | none =>
      have greater : ¬RankedValue.lowest < next := by simp [lt_iff, ranked]
      have unequal : ¬(next == RankedValue.lowest) = true := by simp [beq_iff, ranked]
      simp only [greater, unequal, if_false]
      exact .nothing (List.forall_mem_append.mpr ⟨bare, by simpa using ranked⟩)
  | some place =>
      have less : ∀ entry ∈ seen, ∀ other ∈ rank entry.1, other < place := by
        intro entry member other held
        rw [bare entry member] at held
        cases held
      by_cases greater : RankedValue.lowest < next
      · simp only [greater, if_true]
        exact Found.above position ranked ranked less
      · have same : place = bottom :=
          (not_lt.mp fun above => greater ((lt_iff _ _).mpr
            ⟨bottom, lowest, place, ranked, above⟩)).antisymm (least next place ranked)
        have equal : (next == RankedValue.lowest) = true :=
          (beq_iff _ _).mpr ⟨place, ranked, same ▸ lowest⟩
        simp only [greater, equal, if_false, if_true]
        exact Found.above position (same ▸ lowest) ranked less

theorem found_foldl (entries : List (φ × Nat)) :
    Found rank entries (entries.foldl Best.add ⟨RankedValue.lowest, []⟩) := by
  induction entries using List.reverseRecOn with
  | nil => exact .nothing fun entry member => nomatch member
  | append_singleton entries entry ih =>
      rw [List.foldl_append]
      generalize entries.foldl Best.add ⟨RankedValue.lowest, []⟩ = best at ih
      cases ih with
      | nothing bare => exact Found.add_nothing lt_iff beq_iff lowest_le bare _ _
      | greatest value top positions ranked bound filled listed =>
          exact Found.add_greatest lt_iff beq_iff ranked bound filled listed _ _

omit lt_iff beq_iff lowest_le in
theorem bestPositions_ne_nil (values : List φ) (filled : values ≠ []) :
    bestPositions values ≠ [] := by
  rw [bestPositions]
  by_cases empty : (values.zipIdx.foldl Best.add ⟨RankedValue.lowest, []⟩).positions = []
  · simpa [empty] using filled
  · simp [empty]

/-- In ascending order, the positions of the values of the greatest rank, or all positions if no
value has a rank. -/
theorem bestPositions_spec (values : List φ) :
    (bestPositions values).Pairwise (· < ·) ∧ ∀ position, position ∈ bestPositions values ↔
      ∃ value, values[position]? = some value ∧
        ((∀ other ∈ values, rank other = none) ∨ ∃ top ∈ rank value,
          ∀ other ∈ values, ∀ place ∈ rank other, place ≤ top) := by
  have found := found_foldl lt_iff beq_iff lowest_le values.zipIdx
  rw [bestPositions]
  generalize values.zipIdx.foldl Best.add ⟨RankedValue.lowest, []⟩ = best at found
  cases found with
  | nothing bare =>
      have unranked : ∀ other ∈ values, rank other = none := forall_mem_of_zipIdx bare
      refine ⟨List.pairwise_lt_range, fun position => ?_⟩
      simp only [List.isEmpty_nil, if_true, List.mem_range]
      constructor
      · intro below
        exact ⟨_, List.getElem?_eq_getElem below, .inl unranked⟩
      · rintro ⟨value, held, _⟩
        exact (List.getElem?_eq_some_iff.mp held).1
  | greatest value top positions ranked bound filled listed =>
      have most : ∀ other ∈ values, ∀ place ∈ rank other, place ≤ top :=
        forall_mem_of_zipIdx bound
      have taken : ∀ position, position ∈ positions.reverse ↔
          ∃ value, values[position]? = some value ∧ rank value = some top := by
        intro position
        rw [listed]
        exact mem_zipIdx_positions values (rank · = some top) position
      obtain ⟨first, member⟩ := List.exists_mem_of_ne_nil _ filled
      obtain ⟨winner, held, wins⟩ := (taken first).mp (List.mem_reverse.mpr member)
      have won := List.mem_of_getElem? held
      simp only [List.isEmpty_iff, filled, if_false]
      refine ⟨listed ▸ pairwise_zipIdx_positions values (rank · = some top), fun position => ?_⟩
      rw [taken]
      refine exists_congr fun value => and_congr_right fun stands => ⟨fun ranked => ?_, ?_⟩
      · exact .inr ⟨top, ranked, most⟩
      · rintro (unranked | ⟨place, ranked, above⟩)
        · rw [unranked winner won] at wins
          cases wins
        · have same : place = top :=
            (most value (List.mem_of_getElem? stands) place ranked).antisymm
              (above winner won top wins)
          rw [← same]
          exact ranked

end Greatest

section Selection

variable {ν φ : Type} [Scalar ν] [RankedValue φ]

def DrawnFrom (actions : List (Action ν)) (positions : List Nat) (source : Source)
    (outcome : Except Error (Action ν) × Source) : Prop :=
  ∃ position action, positions[(source.pick positions.length).1]? = some position ∧
    actions[position]? = some action ∧
      outcome = (.ok action, (source.pick positions.length).2)

theorem drawnFrom_select (exploration : ν) (store : Table.Store φ) (definition : Definition ν)
    (state : State ν) (actions : List (Action ν)) (source : Source) (positions : List Nat)
    (pooled : pool ((source.fraction : ν × Source).1 < exploration) store definition state actions =
      .ok positions) (filled : positions ≠ []) (within : ∀ position ∈ positions,
        position < actions.length) :
    DrawnFrom actions positions (source.fraction : ν × Source).2
      (select exploration store definition state actions source) := by
  have picked := Source.pick_lt positions.length (List.length_pos_of_ne_nil filled)
    (source.fraction : ν × Source).2
  have inside := within _ (List.getElem_mem picked)
  have chosen := Source.choose_of_ne_nil filled (source.fraction : ν × Source).2
  refine ⟨_, _, List.getElem?_eq_getElem picked, List.getElem?_eq_getElem inside, ?_⟩
  cases actions with
  | nil => cases inside
  | cons first others =>
      simp only [select, pooled, chosen, List.getElem?_eq_getElem picked, Option.getD_some,
        map_swapRemove?, List.getElem?_eq_getElem inside]

end Selection

/-- Whether a position has a value that is a number and not less than any other number. If no value
is a number, all positions count. -/
def HasGreatest (values : List Float32) (position : Nat) : Prop :=
  ∃ value, values[position]? = some value ∧
    ((∀ other ∈ values, other.isNaN = true) ∨
      (value.isNaN = false ∧ ∀ other ∈ values, other.isNaN = false → other ≤ value))

theorem bestPositions_greatest (values : List Float32) :
    (bestPositions values).Pairwise (· < ·) ∧
      ∀ position, position ∈ bestPositions values ↔ HasGreatest values position := by
  obtain ⟨ascending, taken⟩ :=
    bestPositions_spec Single.lt_iff Single.beq_iff Single.lowest_le values
  refine ⟨ascending, fun position => ?_⟩
  rw [taken]
  refine exists_congr fun value => and_congr_right fun stands => ?_
  have number (other : Float32) : other.isNaN = false ↔ ∃ place, place ∈ Single.place? other := by
    rw [Bool.eq_false_iff, ne_eq, Single.isNaN_iff, Option.eq_none_iff_forall_not_mem, not_forall]
    simp only [not_not]
  simp only [Single.isNaN_iff, number]
  refine or_congr_right ⟨?_, ?_⟩
  · rintro ⟨top, ranked, bound⟩
    refine ⟨⟨top, ranked⟩, ?_⟩
    rintro other member ⟨place, held⟩
    exact (Single.le_iff _ _).mpr ⟨place, held, top, ranked, bound other member place held⟩
  · rintro ⟨⟨top, ranked⟩, bound⟩
    refine ⟨top, ranked, ?_⟩
    intro other member place held
    obtain ⟨low, first, high, second, below⟩ :=
      (Single.le_iff _ _).mp (bound other member ⟨place, held⟩)
    cases Option.mem_unique first held
    cases Option.mem_unique second ranked
    exact below

/-- Where the draw does not ask to explore, the policy picks among the positions of the greatest
learned values; with no exploration it always does. With full exploration it picks among all
positions, whatever the values. -/
theorem select_greatest (store : Table.Store Float32) (definition : Definition Float)
    (state : State Float) (actions : List (Action Float)) (filled : actions ≠ []) :
    (∀ values, learnedValues store definition state actions = .ok values →
      ∃ positions, pool false store definition state actions = .ok positions ∧
        positions.Pairwise (· < ·) ∧
        (∀ position, position ∈ positions ↔ HasGreatest values position) ∧
        (∀ exploration source, ¬(source.fraction : Float × Source).1 < exploration →
          DrawnFrom actions positions (source.fraction : Float × Source).2
            (select exploration store definition state actions source)) ∧
        ∀ source, DrawnFrom actions positions (source.fraction : Float × Source).2
          (select 0.0 store definition state actions source)) ∧
      ∀ source, DrawnFrom actions (List.range actions.length) (source.fraction : Float × Source).2
        (select 1.0 store definition state actions source) := by
  have count := List.length_pos_of_ne_nil filled
  refine ⟨?_, ?_⟩
  · intro values looked
    have length : actions.length = values.length :=
      ((mapM_eq_ok_iff _ _ _).mp looked).length_eq
    obtain ⟨ascending, taken⟩ := bestPositions_greatest values
    have pooled : pool false store definition state actions = .ok (bestPositions values) := by
      rw [pool, if_neg Bool.false_ne_true, looked]
      rfl
    have occupied : bestPositions values ≠ [] := by
      apply bestPositions_ne_nil
      rw [ne_eq, List.eq_nil_iff_length_eq_zero]
      omega
    have within : ∀ position ∈ bestPositions values, position < actions.length := by
      intro position member
      obtain ⟨value, stands, _⟩ := (taken position).mp member
      rw [length]
      exact (List.getElem?_eq_some_iff.mp stands).1
    have greedy (exploration : Float) (source : Source)
        (exploits : ¬(source.fraction : Float × Source).1 < exploration) :
        DrawnFrom actions (bestPositions values) (source.fraction : Float × Source).2
          (select exploration store definition state actions source) := by
      apply drawnFrom_select exploration store definition state actions source _ _ occupied within
      rw [decide_eq_false exploits]
      exact pooled
    exact ⟨_, pooled, ascending, taken, greedy,
      fun source => greedy 0.0 source source.fraction_mem.1⟩
  · intro source
    apply drawnFrom_select
    · rw [decide_eq_true source.fraction_mem.2]
      rfl
    · rw [ne_eq, List.range_eq_nil]
      omega
    · exact fun position member => List.mem_range.mp member

def fiveThrusts : Definition Float where
  name := "hover"
  methods := [.monteCarlo]
  priority := 0
  params := ⟨0.5, 0.5, 0.5, 0.0⟩
  reward := none
  terminalReward := none
  formulas := []
  symmetryAxes := []
  passDownSymmetry := false
  state := []
  action := [⟨"thrust", 0.0, 4.0, some 1.0⟩]
  quantizers := [("thrust", ⟨1.0, 0.0⟩)]
  childNames := []
  selectors := []
  success := []
  holds := []
  layout := ⟨[], [⟨"thrust", 0, 4⟩], [1], 5, .dense⟩

/-- The second and the fourth thrust share the greatest value; the first has no number as its value
and the third has minus infinity. -/
theorem select_greatest_tie :
    let store : Table.Store Float32 :=
      ⟨"hover", 5, .dense #[0.0 / 0.0, 2.0, -(1.0 / 0.0), 2.0, 1.0]⟩
    let state : State Float := ⟨⟨fiveThrusts, none, []⟩⟩
    let actions := candidates fiveThrusts state fun _ => false
    actions ≠ [] ∧ (∃ values, learnedValues store fiveThrusts state actions = .ok values) ∧
      ∀ source : Source,
        DrawnFrom actions [1, 3] (source.fraction : Float × Source).2
          (select 0.0 store fiveThrusts state actions source) ∧
        DrawnFrom actions [0, 1, 2, 3, 4] (source.fraction : Float × Source).2
          (select 1.0 store fiveThrusts state actions source) := by
  intro store state actions
  have filled : actions ≠ [] := List.ne_nil_of_length_pos (by decide +kernel)
  have pooled : pool false store fiveThrusts state actions = .ok [1, 3] :=
    eq_ok_of_toOption (by decide +kernel)
  obtain ⟨values, looked, _⟩ : ∃ values, learnedValues store fiveThrusts state actions =
      .ok values ∧ bestPositions values = [1, 3] := map_eq_ok.mp pooled
  obtain ⟨greedy, explored⟩ := select_greatest store fiveThrusts state actions filled
  obtain ⟨positions, made, _, _, _, always⟩ := greedy values looked
  cases made.symm.trans pooled
  exact ⟨filled, ⟨values, looked⟩, fun source => ⟨always source, explored source⟩⟩

end Learning

end Autoland
