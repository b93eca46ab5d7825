import Autoland.Number.Binary
import Autoland.Proofs.Candidates
import Autoland.Proofs.TableSize
import Mathlib.Data.Set.Lattice
import Mathlib.Order.CompletePartialOrder

/-! Where the candidates of a state stand in the table. Without selectors they are the consecutive
indices of one block, in the order in which they are listed, and the blocks of all states make up
the table. -/

namespace Autoland

namespace Grid

theorem flatMap_range (count size : Nat) :
    (List.range count).flatMap (fun digit => (List.range size).map (digit * size + ·)) =
      List.range (count * size) := by
  induction count with
  | zero => simp
  | succ count ih =>
      rw [List.range_succ, List.flatMap_append, ih, List.flatMap_singleton, Nat.succ_mul,
        List.range_add]

/-- The digits of the first fields count blocks of the others. -/
theorem sumDigits_append (front back : List FieldRange) (left right : List Int)
    (fits : left.length = front.length) :
    Layout.sumDigits (front ++ back) (tailVolumes (front ++ back)) (left ++ right) =
      Layout.sumDigits front (tailVolumes front) left * volume back +
        Layout.sumDigits back (tailVolumes back) right := by
  induction front generalizing left with
  | nil =>
      rw [List.length_nil, List.length_eq_zero_iff] at fits
      subst fits
      simp [Layout.sumDigits]
  | cons range front ih =>
      cases left with
      | nil => cases fits
      | cons bucket left =>
          simp only [List.cons_append, tailVolumes, Layout.sumDigits, volume_append,
            ih left (Nat.succ.inj fits)]
          ring

end Grid

namespace Learning

open Problem Grid

theorem sumDigits_combinations (ranges : List FieldRange) (regular : Regular ranges) :
    (combinations (ranges.map fun range => (range.name, range.buckets))).map (fun choice =>
      Layout.sumDigits ranges (tailVolumes ranges) (choice.map (·.2))) =
        List.range (volume ranges) := by
  induction ranges with
  | nil => rfl
  | cons range ranges ih =>
      rcases List.forall_mem_cons.mp regular with ⟨head, rest⟩
      have width : (range.max - range.min + 1).toNat = range.digits := by
        have count := range.digits_of_regular head
        omega
      have block : ∀ digit ∈ List.range range.digits,
          (combinations (ranges.map fun range => (range.name, range.buckets))).map (fun choice =>
            range.digit (range.min + digit) * volume ranges +
              Layout.sumDigits ranges (tailVolumes ranges) (choice.map (·.2))) =
          (List.range (volume ranges)).map (digit * volume ranges + ·) := by
        intro digit member
        rw [range.digit_offset head digit (List.mem_range.mp member), ← ih rest, List.map_map]
        rfl
      rw [volume, Nat.mul_comm, ← flatMap_range, List.map_cons, combinations_cons,
        FieldRange.buckets, width, List.flatMap_map, List.map_flatMap]
      simp only [List.map_map]
      exact List.flatMap_congr block

theorem read_chosen (read : String → Option Int) (ranges : List FieldRange)
    (choice : List (String × Int))
    (named : List.Forall₂ (fun range entry => entry.1 = FieldRange.name range) ranges choice)
    (reads : ∀ entry ∈ choice, read entry.1 = some entry.2) :
    ranges.map (fun range => (read range.name).getD range.min) = choice.map (·.2) := by
  induction named with
  | nil => rfl
  | cons same _ ih =>
      rcases List.forall_mem_cons.mp reads with ⟨head, rest⟩
      rw [List.map_cons, List.map_cons, ih rest, ← same, head, Option.getD_some]

def carry (ranges : List FieldRange) (buckets : List Int) : List (String × Int) :=
  List.zipWith (fun range bucket => (range.name, bucket)) ranges buckets

theorem carry_spec (ranges : List FieldRange) (buckets : List Int)
    (fits : ranges.length = buckets.length) :
    List.Forall₂ (fun range entry => entry.1 = FieldRange.name range) ranges
        (carry ranges buckets) ∧
      (carry ranges buckets).map (·.2) = buckets := by
  induction ranges generalizing buckets with
  | nil =>
      cases buckets with
      | nil => exact ⟨.nil, rfl⟩
      | cons bucket buckets => cases fits
  | cons range ranges ih =>
      cases buckets with
      | nil => cases fits
      | cons bucket buckets =>
          obtain ⟨named, values⟩ := ih buckets (Nat.succ.inj fits)
          exact ⟨.cons rfl named, congrArg (bucket :: ·) values⟩

theorem names_of_named (ranges : List FieldRange) (choice : List (String × Int))
    (named : List.Forall₂ (fun range entry => entry.1 = FieldRange.name range) ranges choice) :
    choice.map (·.1) = ranges.map (·.name) := by
  induction named with
  | nil => rfl
  | cons same _ ih => rw [List.map_cons, List.map_cons, ih, same]

/-- The buckets of the declared state fields, each inside its range. A field that is not carried
counts as its lowest bucket. -/
def declaredBuckets {ν : Type} (definition : Definition ν) (state : State ν) : List Int :=
  definition.layout.state.map fun range => range.clamp ((state.bucket? range.name).getD range.min)

def blockNumber {ν : Type} (definition : Definition ν) (state : State ν) : Nat :=
  Layout.sumDigits definition.layout.state (tailVolumes definition.layout.state)
    (definition.layout.state.map fun range => (state.bucket? range.name).getD range.min)

variable {ν : Type} [Scalar ν]

def block (definition : Definition ν) (state : State ν) (isActive : String → Bool) : Set Nat :=
  {index | ∃ action ∈ candidates definition state isActive,
    definition.indexOf state action = .ok index}

section Blocks

variable {definition : Definition ν} (sound : definition.Sound)
  (plain : definition.selectors = []) (regular : Regular definition.layout.ranges)
  (isActive : String → Bool)

omit [Scalar ν] in
theorem regular_parts (regular : Regular definition.layout.ranges) :
    Regular definition.layout.state ∧ Regular definition.layout.action :=
  List.forall_mem_append.mp regular

include plain

theorem columns_plain (state : State ν) :
    columns definition state isActive =
      definition.layout.action.map fun range => (range.name, range.buckets) := by
  have none_chosen : ∀ range, declaredColumn definition state isActive range = range.buckets := by
    intro range
    rw [declaredColumn, Definition.selector?, plain]
    rfl
  rw [columns_eq, plain]
  simp [none_chosen]

include sound regular

theorem indices_candidates (state : State ν) (owned : state.definition = definition) :
    (candidates definition state isActive).map (definition.indexOf state) =
      (List.range (volume definition.layout.action)).map fun offset =>
        .ok (blockNumber definition state * volume definition.layout.action + offset) := by
  have distinct : (definition.selectors.map (·.field)).Nodup := by
    rw [plain]
    exact List.nodup_nil
  have names := columns_distinct sound distinct state isActive
  have each : ∀ choice ∈ combinations (columns definition state isActive),
      definition.indexOf state (Action.ofBuckets definition choice state.axis) =
        .ok (blockNumber definition state * volume definition.layout.action +
          Layout.sumDigits definition.layout.action (tailVolumes definition.layout.action)
            (choice.map (·.2))) := by
    intro choice member
    have chooses := (mem_combinations _ _).mp member
    have unique := chooses_names _ _ chooses ▸ names
    rw [columns_plain plain, Chooses, List.forall₂_map_left_iff] at chooses
    have read := read_chosen (fun field => choice.lookup field) definition.layout.action choice
      (chooses.imp fun _ _ chosen => chosen.1)
      fun entry inside => lookup_eq_some_of_mem _ _ _ unique inside
    rw [Action.ofBuckets_of_nodup _ _ _ unique]
    simp only [Definition.indexOf, owned, Action.definition, ne_eq, not_true_eq_false, if_false,
      Action.bucket?, Record.bucket?, read]
    rw [Layout.index, sound.layout.weights, Layout.ranges,
      sumDigits_append _ _ _ _ (List.length_map _), blockNumber]
  rw [candidates, List.map_map, ← sumDigits_combinations _ (regular_parts regular).2, List.map_map,
    ← columns_plain plain isActive state]
  exact List.map_congr_left each

theorem mem_block (state : State ν) (owned : state.definition = definition) (index : Nat) :
    index ∈ block definition state isActive ↔
      index / volume definition.layout.action = blockNumber definition state := by
  have positive := volume_positive definition.layout.action fun range member =>
    ((regular_parts regular).2 range member).1
  have listed : index ∈ block definition state isActive ↔ Except.ok index ∈
      (candidates definition state isActive).map (definition.indexOf state) := List.mem_map.symm
  rw [listed, indices_candidates sound plain regular isActive state owned, List.mem_map]
  constructor
  · rintro ⟨offset, below, same⟩
    cases same
    rw [Nat.mul_comm, Nat.mul_add_div positive, Nat.div_eq_of_lt (List.mem_range.mp below),
      Nat.add_zero]
  · intro quotient
    rw [← quotient]
    exact ⟨index % volume definition.layout.action, List.mem_range.mpr (Nat.mod_lt _ positive),
      congrArg _ (Nat.div_add_mod' _ _)⟩

omit [Scalar ν] sound plain in
theorem takeDigits_blockNumber (state : State ν) :
    Layout.takeDigits definition.layout.state (tailVolumes definition.layout.state)
      (blockNumber definition state) = declaredBuckets definition state := by
  rw [blockNumber, Layout.takeDigits_sumDigits _ (regular_parts regular).1 _ (List.length_map _),
    clampAll_map, declaredBuckets]

omit plain in
theorem exists_state (number : Nat) (below : number < volume definition.layout.state) :
    ∃ state : State ν, state.definition = definition ∧ blockNumber definition state = number := by
  have narrow := (regular_parts regular).1
  have restored := Layout.sumDigits_takeDigits _ narrow number below
  have within := Layout.within_takeDigits _ narrow number below
  generalize Layout.takeDigits definition.layout.state (tailVolumes definition.layout.state)
    number = buckets at restored within
  let carried := carry definition.layout.state buckets
  obtain ⟨named, values⟩ := carry_spec definition.layout.state buckets within.length_eq
  have unique : (carried.map (·.1)).Nodup := by
    have distinct := sound.distinct
    rw [List.map_append, List.nodup_append, ← sound.stateNames] at distinct
    exact names_of_named _ _ named ▸ distinct.1
  refine ⟨⟨⟨definition, none, carried⟩⟩, rfl, ?_⟩
  rw [← restored, ← values, blockNumber]
  congr 1
  exact read_chosen (fun field => carried.lookup field) _ carried named
    fun entry inside => lookup_eq_some_of_mem _ _ _ unique inside

end Blocks

/-- Without selectors, the candidates of a state have the consecutive indices of one block, as many
as the action fields have combinations of buckets. States whose declared buckets differ have
disjoint blocks, and the blocks of all states make up the table. -/
theorem candidates_scan_blocks [Elementary ν] (document : Document ν)
    (compiler after : Formula.Compiler ν) (denseCap : Nat) (definition : Definition ν)
    (accepted : document.finalize compiler denseCap = (.ok definition, after))
    (plain : definition.selectors = [])
    (narrow : ∀ range ∈ definition.layout.ranges,
      range.max - range.min + 1 ≤ Word.signedLimit) (isActive : String → Bool) :
    (∀ state, state.definition = definition → ∃ base,
      (candidates definition state isActive).head?.map (definition.indexOf state) =
          some (.ok base) ∧
      (candidates definition state isActive).map (definition.indexOf state) =
        (List.range (exactVolume definition.layout.action)).map fun offset =>
          .ok (base + offset)) ∧
    (∀ state other, state.definition = definition → other.definition = definition →
      declaredBuckets definition state ≠ declaredBuckets definition other →
        Disjoint (block definition state isActive) (block definition other isActive)) ∧
    {index | ∃ state, state.definition = definition ∧ index ∈ block definition state isActive} =
      Set.Iio definition.tableSize := by
  have sound := Document.sound_of_finalize _ _ _ _ _ accepted
  have regular : Regular definition.layout.ranges := by
    intro range member
    have width := narrow range member
    have smaller : (Word.signedLimit : Int) < Word.limit := by decide
    exact ⟨sound.layout.nonempty range member, by omega⟩
  have parts := regular_parts regular
  have positive := volume_positive definition.layout.action fun range member =>
    (parts.2 range member).1
  refine ⟨?_, ?_, ?_⟩
  · intro state owned
    have listed := indices_candidates sound plain regular isActive state owned
    rw [← volume_eq_exactVolume _ parts.2]
    refine ⟨_, ?_, listed⟩
    rw [← List.head?_map, listed, List.head?_map, List.head?_range, if_neg positive.ne']
    rfl
  · intro state other owned same differ
    rw [Set.disjoint_left]
    intro index inside shared
    rw [mem_block sound plain regular isActive state owned] at inside
    rw [mem_block sound plain regular isActive other same] at shared
    apply differ
    rw [← takeDigits_blockNumber regular state, ← inside, shared,
      takeDigits_blockNumber regular other]
  · ext index
    rw [Set.mem_Iio, Definition.tableSize, sound.layout.total, Layout.ranges, volume_append,
      ← Nat.div_lt_iff_lt_mul positive]
    constructor
    · rintro ⟨state, owned, inside⟩
      rw [(mem_block sound plain regular isActive state owned index).mp inside]
      exact Layout.sumDigits_lt _ parts.1 _
    · intro below
      obtain ⟨state, owned, number⟩ := exists_state sound regular _ below
      exact ⟨state, owned, (mem_block sound plain regular isActive state owned index).mpr
        number.symm⟩

def threeHeights : Document Float :=
  { Document.blank with
    name := "hover"
    state := [⟨"height", 1.0, 3.0, some 1.0⟩]
    action := [⟨"thrust", 0.0, 1.0, some 1.0⟩, ⟨"tilt", 0.0, 2.0, some 1.0⟩] }

theorem candidates_scan_blocks_three_heights :
    ∃ definition after, threeHeights.finalize Formula.Compiler.standard 100 =
        (.ok definition, after) ∧
      let high : State Float := ⟨⟨definition, none, [("height", 5)]⟩⟩
      let bare : State Float := ⟨⟨definition, none, []⟩⟩
      let isActive := fun _ : String => false
      (candidates definition high isActive).map (definition.indexOf high) =
        [.ok 12, .ok 13, .ok 14, .ok 15, .ok 16, .ok 17] ∧
      Disjoint (block definition high isActive) (block definition bare isActive) ∧
      ∃ state, state.definition = definition ∧ 7 ∈ block definition state isActive := by
  have evaluated : (threeHeights.finalize Formula.Compiler.standard 100).1.toOption.any
      (fun definition =>
        let high : State Float := ⟨⟨definition, none, [("height", 5)]⟩⟩
        definition.layout = ⟨[⟨"height", 0, 2⟩], [⟨"thrust", 0, 1⟩, ⟨"tilt", 0, 2⟩], [6, 3, 1], 18,
          .dense⟩ && definition.selectors.length == 0 &&
            (candidates definition high fun _ => false).head?.bind (fun action =>
              (definition.indexOf high action).toOption) == some 12) = true := by
    decide +kernel
  cases finalized : threeHeights.finalize Formula.Compiler.standard 100 with
  | mk result after =>
      rw [finalized] at evaluated
      obtain ⟨definition, made, checked⟩ := (Option.any_eq_true _ _).mp evaluated
      cases eq_ok_of_toOption made
      simp only [Bool.and_eq_true, decide_eq_true_eq, beq_iff_eq] at checked
      obtain ⟨⟨layout, plain⟩, first⟩ := checked
      refine ⟨definition, after, rfl, ?_⟩
      intro high bare isActive
      have narrow : ∀ range ∈ definition.layout.ranges,
          range.max - range.min + 1 ≤ Word.signedLimit := by
        rw [layout]
        decide
      obtain ⟨listed, apart, covered⟩ := candidates_scan_blocks threeHeights _ after 100 definition
        finalized (List.length_eq_zero_iff.mp plain) narrow isActive
      obtain ⟨base, head, indices⟩ := listed high rfl
      have lowest : base = 12 := by
        obtain ⟨action, taken, found⟩ := Option.map_eq_some_iff.mp head
        rw [taken, Option.bind_some, found] at first
        exact Option.some.inj first
      have six : exactVolume definition.layout.action = 6 := by
        rw [layout]
        rfl
      rw [lowest, six] at indices
      refine ⟨indices, apart high bare rfl rfl ?_, ?_⟩
      · simp [declaredBuckets, layout, high, bare, State.bucket?, Record.bucket?, FieldRange.clamp]
      · have inside : 7 ∈ Set.Iio definition.tableSize := by
          rw [Definition.tableSize, layout]
          decide
        rw [← covered] at inside
        exact inside

end Learning

end Autoland
