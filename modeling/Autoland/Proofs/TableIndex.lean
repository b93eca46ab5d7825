import Autoland.Proofs.MixedRadix

/-! Table indices: those of accepted layouts stand for the buckets inside their ranges. -/

namespace Autoland.Grid

namespace Layout

theorem weigh_eq_ok (ranges : List FieldRange) (weights : List Nat) (total : Nat)
    (accepted : weigh ranges = .ok (weights, total)) :
    weights = tailVolumes ranges ∧ total = volume ranges ∧ Nonempty ranges ∧
      volume ranges < Word.limit := by
  induction ranges generalizing weights total with
  | nil =>
      cases accepted
      exact ⟨rfl, rfl, fun _ member => (List.not_mem_nil member).elim, by decide⟩
  | cons range ranges ih =>
      rw [weigh] at accepted
      cases tail : weigh ranges with
      | error fault =>
          rw [tail] at accepted
          cases accepted
      | ok found =>
          rcases found with ⟨inner, size⟩
          rcases ih inner size tail with ⟨rfl, rfl, nonempty, _⟩
          simp only [tail, bind, Except.bind] at accepted
          split at accepted
          · cases accepted
          · split at accepted
            · cases accepted
            · cases accepted
              refine ⟨rfl, rfl, ?_, ?_⟩
              · exact List.forall_mem_cons.mpr ⟨by omega, nonempty⟩
              · rw [volume]
                omega

/-- What is known of a layout that was accepted. -/
structure Accepted (layout : Layout) : Prop where
  weights : layout.weights = tailVolumes layout.ranges
  total : layout.total = volume layout.ranges
  nonempty : Nonempty layout.ranges
  counted : volume layout.ranges < Word.limit

theorem build_eq_ok (state action : List FieldRange) (cap : Nat) (layout : Layout)
    (accepted : build state action cap = .ok layout) :
    layout.state = state ∧ layout.action = action ∧ layout.Accepted := by
  unfold build at accepted
  cases found : weigh (state ++ action) with
  | error fault =>
      rw [found] at accepted
      cases accepted
  | ok pair =>
      rcases pair with ⟨weights, total⟩
      rcases weigh_eq_ok _ _ _ found with ⟨rfl, rfl, nonempty, counted⟩
      rw [found] at accepted
      cases accepted
      exact ⟨rfl, rfl, rfl, rfl, nonempty, counted⟩

namespace Accepted

variable {layout : Layout}

theorem index_lt_total (accepted : layout.Accepted) (regular : Regular layout.ranges)
    (state action : List Int) : layout.index state action < layout.total := by
  rw [index, accepted.weights, accepted.total]
  exact sumDigits_lt _ regular _

/-- All indices are in the table exactly where a word counts the buckets of every field. -/
theorem index_lt_total_iff (accepted : layout.Accepted) :
    (∀ state action, layout.index state action < layout.total) ↔ Regular layout.ranges := by
  constructor
  · intro below
    by_contra irregular
    have reached := (le_sumDigits_highest layout.ranges accepted.nonempty).2 irregular
    have inside := below (layout.state.map (·.max)) (layout.action.map (·.max))
    rw [index, accepted.weights, accepted.total, ← List.map_append] at inside
    exact absurd inside (Nat.not_lt.mpr reached)
  · exact accepted.index_lt_total

theorem index_eq_iff (accepted : layout.Accepted) (state action state' action' : List Int)
    (first : (state ++ action).length = layout.ranges.length)
    (second : (state' ++ action').length = layout.ranges.length) :
    layout.index state action = layout.index state' action' ↔
      clampAll layout.ranges (state ++ action) = clampAll layout.ranges (state' ++ action') := by
  unfold index
  constructor
  · intro same
    rw [accepted.weights] at same
    exact clampAll_eq_of_sumDigits_eq _ accepted.nonempty accepted.counted _ _ first second same
  · exact sumDigits_congr _ _ _ _ first second

theorem decode_index (accepted : layout.Accepted) (regular : Regular layout.ranges)
    (state action : List Int) (first : state.length = layout.state.length)
    (second : action.length = layout.action.length) :
    layout.decode? (layout.index state action) =
      some (clampAll layout.state state, clampAll layout.action action) := by
  have fits : (state ++ action).length = layout.ranges.length := by
    rw [ranges, List.length_append, List.length_append, first, second]
  rw [decode?, if_pos (accepted.index_lt_total regular state action), index, accepted.weights,
    takeDigits_sumDigits _ regular _ fits, ranges, clampAll_append _ _ _ _ first]
  have width := length_clampAll layout.state state first
  rw [List.splitAt_eq, ← width, List.take_left, List.drop_left]

theorem decode_of_lt (accepted : layout.Accepted) (regular : Regular layout.ranges) (index : Nat)
    (below : index < layout.total) :
    ∃ state action, layout.decode? index = some (state, action) ∧ Within layout.state state ∧
      Within layout.action action ∧ layout.index state action = index := by
  have counted := below
  rw [accepted.total] at counted
  have within := within_takeDigits _ regular index counted
  have restored := sumDigits_takeDigits _ regular index counted
  rw [← accepted.weights] at within restored
  refine ⟨_, _, by rw [decode?, if_pos below, List.splitAt_eq], ?_, ?_, ?_⟩
  · have front := List.forall₂_take layout.state.length within
    rwa [ranges, List.take_left] at front
  · have back := List.forall₂_drop layout.state.length within
    rwa [ranges, List.drop_left] at back
  · rw [Layout.index, List.take_append_drop, restored]

theorem index_lt_iff (accepted : layout.Accepted) (regular : Regular layout.ranges)
    (state action state' action' : List Int) (first : state.length = layout.state.length)
    (second : action.length = layout.action.length)
    (third : state'.length = layout.state.length)
    (fourth : action'.length = layout.action.length) :
    layout.index state action < layout.index state' action' ↔
      clampAll layout.state state ++ clampAll layout.action action <
        clampAll layout.state state' ++ clampAll layout.action action' := by
  rw [index, index, accepted.weights, sumDigits_lt_iff _ regular]
  · rw [ranges, clampAll_append _ _ _ _ first, clampAll_append _ _ _ _ third]
  · rw [ranges, List.length_append, List.length_append, first, second]
  · rw [ranges, List.length_append, List.length_append, third, fourth]

end Accepted

/-- Indices and buckets inside their ranges determine each other. Buckets outside are read as the
nearer end, and larger buckets of earlier fields have larger indices. -/
theorem index_bijective (state action : List FieldRange) (cap : Nat) (layout : Layout)
    (built : build state action cap = .ok layout)
    (narrow : ∀ range ∈ state ++ action, range.max - range.min + 1 ≤ Word.signedLimit) :
    (∀ s a : List Int, s.length = state.length → a.length = action.length →
      layout.decode? (layout.index s a) = some (clampAll state s, clampAll action a)) ∧
    (∀ index < layout.total, ∃ s a, layout.decode? index = some (s, a) ∧ Within state s ∧
      Within action a ∧ layout.index s a = index) ∧
    (∀ index, layout.decode? index = none ↔ layout.total ≤ index) ∧
    (∀ s a s' a' : List Int, s.length = state.length → a.length = action.length →
      s'.length = state.length → a'.length = action.length →
      (layout.index s a < layout.index s' a' ↔
        clampAll state s ++ clampAll action a < clampAll state s' ++ clampAll action a')) ∧
    Set.BijOn (fun buckets : List Int × List Int => layout.index buckets.1 buckets.2)
      {buckets | Within state buckets.1 ∧ Within action buckets.2} (Set.Iio layout.total) := by
  rcases build_eq_ok _ _ _ _ built with ⟨rfl, rfl, accepted⟩
  have regular : Regular layout.ranges := by
    intro range member
    have width := narrow range member
    have smaller : (Word.signedLimit : Int) < Word.limit := by decide
    exact ⟨accepted.nonempty range member, by omega⟩
  refine ⟨accepted.decode_index regular, accepted.decode_of_lt regular, ?_,
    accepted.index_lt_iff regular, ?_, ?_, ?_⟩
  · intro index
    rw [decode?]
    split <;> simp_all
  · intro buckets _
    exact accepted.index_lt_total regular _ _
  · intro front one back two same
    rcases front with ⟨s, a⟩
    rcases back with ⟨s', a'⟩
    rcases one with ⟨first, second⟩
    rcases two with ⟨third, fourth⟩
    have left := accepted.decode_index regular s a first.length_eq.symm second.length_eq.symm
    have right := accepted.decode_index regular s' a' third.length_eq.symm fourth.length_eq.symm
    rw [clampAll_of_within _ _ first, clampAll_of_within _ _ second] at left
    rw [clampAll_of_within _ _ third, clampAll_of_within _ _ fourth] at right
    exact Option.some.inj (left.symm.trans ((congrArg layout.decode? same).trans right))
  · intro index below
    rcases accepted.decode_of_lt regular index below with ⟨s, a, _, first, second, restored⟩
    exact ⟨(s, a), ⟨first, second⟩, restored⟩

theorem index_bijective_two_by_two_by_three :
    ∃ layout, build [⟨"a", 0, 1⟩, ⟨"b", -1, 0⟩] [⟨"c", 0, 2⟩] 100 = .ok layout ∧
      layout.total = 12 ∧ layout.decode? (layout.index [7, -9] [40]) = some ([1, -1], [2]) ∧
      ∃ s a, layout.decode? 7 = some (s, a) ∧ layout.index s a = 7 := by
  have built : build [⟨"a", 0, 1⟩, ⟨"b", -1, 0⟩] [⟨"c", 0, 2⟩] 100 =
      .ok ⟨[⟨"a", 0, 1⟩, ⟨"b", -1, 0⟩], [⟨"c", 0, 2⟩], [6, 3, 1], 12, .dense⟩ := by decide
  rcases index_bijective _ _ _ _ built (by decide) with ⟨outward, inward, _⟩
  rcases inward 7 (by decide) with ⟨s, a, decoded, _, _, restored⟩
  exact ⟨_, built, rfl, outward [7, -9] [40] rfl rfl, s, a, decoded, restored⟩

end Layout

end Autoland.Grid
