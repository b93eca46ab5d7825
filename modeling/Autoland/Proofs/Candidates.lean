import Autoland.Learning.Policy
import Autoland.Proofs.Finalization
import Autoland.Proofs.Odometer
import Autoland.Proofs.Pairs

/-! The candidates of a state: one bucket from each column, under one index for each choice of
buckets that the layout keeps apart. -/

namespace Autoland

theorem Record.insertBucket_of_fresh (field : String) (bucket : Int) (buckets : List (String × Int))
    (fresh : field ∉ buckets.map (·.1)) :
    Record.insertBucket field bucket buckets = buckets ++ [(field, bucket)] := by
  induction buckets with
  | nil => rfl
  | cons entry buckets ih =>
      rcases entry with ⟨name, old⟩
      rw [List.map_cons, List.mem_cons, not_or] at fresh
      rw [insertBucket, if_neg (Ne.symm fresh.1), ih fresh.2]
      rfl

theorem Action.ofBuckets_of_nodup {ν : Type} (definition : Problem.Definition ν)
    (buckets : List (String × Int)) (axis : Option Axis)
    (distinct : (buckets.map (·.1)).Nodup) :
    Action.ofBuckets definition buckets axis = ⟨⟨definition, axis, buckets⟩⟩ := by
  suffices general : ∀ front : List (String × Int), ((front ++ buckets).map (·.1)).Nodup →
      buckets.foldl (fun record (entry : String × Int) => record.setBucket entry.1 entry.2)
        (⟨definition, axis, front⟩ : Record ν) = ⟨definition, axis, front ++ buckets⟩ by
    exact congrArg Action.mk (general [] distinct)
  clear distinct
  induction buckets with
  | nil =>
      intro front _
      rw [List.append_nil]
      rfl
  | cons entry buckets ih =>
      intro front distinct
      have fresh : entry.1 ∉ front.map (·.1) := by
        rw [List.map_append, List.map_cons, List.nodup_append] at distinct
        intro member
        exact distinct.2.2 _ member _ List.mem_cons_self rfl
      have step : (⟨definition, axis, front⟩ : Record ν).setBucket entry.1 entry.2 =
          ⟨definition, axis, front ++ [entry]⟩ := by
        rw [Record.setBucket, Record.insertBucket_of_fresh _ _ _ fresh]
      rw [List.append_cons] at distinct
      rw [List.foldl_cons, step, ih _ distinct, ← List.append_cons]

namespace Learning

open Problem

abbrev Chooses : List (String × List Int) → List (String × Int) → Prop :=
  List.Forall₂ fun column entry => entry.1 = column.1 ∧ entry.2 ∈ column.2

theorem mem_combinations (columns : List (String × List Int)) (choice : List (String × Int)) :
    choice ∈ combinations columns ↔ Chooses columns choice := by
  induction columns generalizing choice with
  | nil => simp [combinations_nil]
  | cons column columns ih =>
      rcases column with ⟨field, buckets⟩
      simp only [combinations_cons, List.mem_flatMap, List.mem_map, ih, List.forall₂_cons_left_iff]
      constructor
      · intro made
        rcases made with ⟨bucket, member, rest, chooses, rfl⟩
        exact ⟨(field, bucket), rest, ⟨rfl, member⟩, chooses, rfl⟩
      · intro chosen
        rcases chosen with ⟨⟨name, bucket⟩, rest, ⟨rfl, member⟩, chooses, rfl⟩
        exact ⟨bucket, member, rest, chooses, rfl⟩

theorem chooses_names (columns : List (String × List Int)) (choice : List (String × Int))
    (chooses : Chooses columns choice) : choice.map (·.1) = columns.map (·.1) := by
  induction chooses with
  | nil => rfl
  | cons head _ ih => rw [List.map_cons, List.map_cons, ih, head.1]

theorem chooses_lookup (columns : List (String × List Int)) (choice : List (String × Int))
    (distinct : (columns.map (·.1)).Nodup) (chooses : Chooses columns choice)
    (column : String × List Int) (member : column ∈ columns) :
    ∃ bucket ∈ column.2, choice.lookup column.1 = some bucket := by
  have names := chooses_names _ _ chooses
  rcases exists_of_mem_right chooses.flip column member with ⟨entry, inside, name, held⟩
  refine ⟨entry.2, held, lookup_eq_some_of_mem _ _ _ (names ▸ distinct) ?_⟩
  rw [← name]
  exact inside

/-- A choice that takes a given bucket from one column and the first bucket from each other. -/
def chooseAt (field : String) (bucket : Int) (columns : List (String × List Int)) :
    List (String × Int) :=
  columns.map fun column => (column.1, if column.1 = field then bucket else column.2.headD 0)

theorem chooses_chooseAt (columns : List (String × List Int)) (field : String) (bucket : Int)
    (full : ∀ column ∈ columns, column.2 ≠ [])
    (held : ∀ column ∈ columns, column.1 = field → bucket ∈ column.2) :
    Chooses columns (chooseAt field bucket columns) := by
  rw [chooseAt, Chooses, List.forall₂_map_right_iff, List.forall₂_same]
  intro column member
  refine ⟨rfl, ?_⟩
  split
  · rename_i same
    exact held column member same
  · have some := full column member
    cases buckets : column.2 with
    | nil => exact absurd buckets some
    | cons first rest => exact List.mem_cons_self

theorem lookup_chooseAt (columns : List (String × List Int)) (field : String) (bucket : Int)
    (distinct : (columns.map (·.1)).Nodup) (column : String × List Int)
    (member : column ∈ columns) :
    (chooseAt field bucket columns).lookup column.1 =
      some (if column.1 = field then bucket else column.2.headD 0) := by
  apply lookup_eq_some_of_mem
  · rw [chooseAt, List.map_map]
    exact distinct
  · exact List.mem_map.mpr ⟨column, member, rfl⟩

section Definition

variable {ν : Type} [Scalar ν] {definition : Definition ν}

theorem ids_nonempty (sound : definition.Sound) (selector : Selector ν)
    (member : selector ∈ definition.selectors) : selector.ids ≠ [] := by
  rcases sound.offered selector member with ⟨some_option, known, ids⟩
  rcases List.exists_mem_of_ne_nil _ some_option with ⟨option, inside⟩
  rcases idOf?_of_mem _ _ (known option inside) with ⟨id, found⟩
  rw [ids]
  exact List.ne_nil_of_mem ((mem_optionIds _ _ id).mpr ⟨option, inside, found⟩)

theorem legalChildren_nonempty (sound : definition.Sound) (selector : Selector ν)
    (member : selector ∈ definition.selectors) (state : State ν) (isActive : String → Bool) :
    legalChildren definition selector state isActive ≠ [] := by
  unfold legalChildren
  split
  · exact ids_nonempty sound selector member
  · split
    · exact List.cons_ne_nil _ _
    · exact ids_nonempty sound selector member

def declaredColumn (definition : Definition ν) (state : State ν) (isActive : String → Bool)
    (range : Grid.FieldRange) : List Int :=
  match definition.selector? range.name with
  | some selector => legalChildren definition selector state isActive
  | none => range.buckets

theorem columns_eq (state : State ν) (isActive : String → Bool) :
    columns definition state isActive =
      (definition.layout.action.map fun range =>
        (range.name, declaredColumn definition state isActive range)) ++
      (definition.selectors.filter fun selector => !selector.indexed).map fun selector =>
        (selector.field, legalChildren definition selector state isActive) := by
  rw [columns]
  congr 1
  apply List.map_congr_left
  intro range _
  unfold declaredColumn
  cases definition.selector? range.name with
  | none => rfl
  | some selector => rfl

theorem columns_full (sound : definition.Sound) (state : State ν) (isActive : String → Bool) :
    ∀ column ∈ columns definition state isActive, column.2 ≠ [] := by
  intro column member
  rw [columns_eq, List.mem_append, List.mem_map, List.mem_map] at member
  rcases member with ⟨range, declared, rfl⟩ | ⟨selector, choice, rfl⟩
  · change declaredColumn definition state isActive range ≠ []
    unfold declaredColumn
    split
    · rename_i selector found
      exact legalChildren_nonempty sound selector (List.mem_of_find?_eq_some found) state isActive
    · have nonempty := sound.layout.nonempty range (List.mem_append_right _ declared)
      exact List.ne_nil_of_mem ((range.mem_buckets range.min).mpr ⟨le_rfl, nonempty⟩)
  · exact legalChildren_nonempty sound selector (List.mem_filter.mp choice).1 state isActive

theorem ranges_distinct (sound : definition.Sound) :
    (definition.layout.action.map (·.name)).Nodup := by
  have declared := sound.distinct
  rw [List.map_append, List.nodup_append] at declared
  rw [sound.actionNames]
  exact declared.2.1

theorem columns_distinct (sound : definition.Sound)
    (distinct : (definition.selectors.map (·.field)).Nodup) (state : State ν)
    (isActive : String → Bool) :
    ((columns definition state isActive).map (·.1)).Nodup := by
  have names : (columns definition state isActive).map (·.1) =
      definition.action.map (·.name) ++
        (definition.selectors.filter fun selector => !selector.indexed).map (·.field) := by
    rw [columns_eq, List.map_append, List.map_map, List.map_map, ← sound.actionNames]
    rfl
  rw [names, List.nodup_append]
  refine ⟨sound.actionNames ▸ ranges_distinct sound,
    distinct.sublist (List.filter_sublist.map _), ?_⟩
  intro name present other choice same
  subst same
  rcases List.mem_map.mp choice with ⟨selector, member, rfl⟩
  rcases List.mem_filter.mp member with ⟨inside, free⟩
  rcases List.mem_map.mp present with ⟨field, declares, same⟩
  have indexed : definition.isActionField selector.field = true :=
    List.any_eq_true.mpr ⟨field, declares, decide_eq_true same⟩
  rw [sound.indexed selector inside, indexed] at free
  cases free

theorem mem_candidates (sound : definition.Sound)
    (distinct : (definition.selectors.map (·.field)).Nodup) (state : State ν)
    (isActive : String → Bool) (action : Action ν) :
    action ∈ candidates definition state isActive ↔
      ∃ choice, Chooses (columns definition state isActive) choice ∧
        action = ⟨⟨definition, state.axis, choice⟩⟩ := by
  have names := columns_distinct sound distinct state isActive
  rw [candidates, List.mem_map]
  constructor
  · intro listed
    rcases listed with ⟨choice, member, rfl⟩
    have chooses := (mem_combinations _ _).mp member
    exact ⟨choice, chooses,
      Action.ofBuckets_of_nodup _ _ _ (chooses_names _ _ chooses ▸ names)⟩
  · intro chosen
    rcases chosen with ⟨choice, chooses, rfl⟩
    exact ⟨choice, (mem_combinations _ _).mpr chooses,
      Action.ofBuckets_of_nodup _ _ _ (chooses_names _ _ chooses ▸ names)⟩

theorem bucket_of_candidate (sound : definition.Sound)
    (distinct : (definition.selectors.map (·.field)).Nodup) (state : State ν)
    (isActive : String → Bool) (action : Action ν)
    (candidate : action ∈ candidates definition state isActive) (range : Grid.FieldRange)
    (declared : range ∈ definition.layout.action) :
    ∃ bucket ∈ declaredColumn definition state isActive range,
      action.bucket? range.name = some bucket := by
  rcases (mem_candidates sound distinct _ _ _).mp candidate with ⟨choice, chooses, rfl⟩
  refine chooses_lookup _ _ (columns_distinct sound distinct state isActive) chooses
    (range.name, declaredColumn definition state isActive range) ?_
  rw [columns_eq]
  exact List.mem_append_left _ (List.mem_map.mpr ⟨range, declared, rfl⟩)

end Definition

end Learning

end Autoland
