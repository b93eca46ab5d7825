import Autoland.Number.Binary
import Autoland.Proofs.Candidates
import Mathlib.Algebra.BigOperators.Group.List.Basic

/-! The order of the candidates. An odometer with a digit for each column runs through all
combinations, the last column fastest. -/

namespace Autoland

namespace Learning

open Problem

theorem mem_allDigits (lengths digits : List Nat) :
    digits ∈ allDigits lengths ↔ List.Forall₂ (· < ·) digits lengths := by
  induction lengths generalizing digits with
  | nil => simp [allDigits]
  | cons length lengths ih =>
      simp only [allDigits, List.mem_flatMap, List.mem_range, List.mem_map, ih,
        List.forall₂_cons_right_iff]
      constructor
      · rintro ⟨digit, below, rest, within, rfl⟩
        exact ⟨digit, rest, below, within, rfl⟩
      · rintro ⟨digit, rest, below, within, rfl⟩
        exact ⟨digit, below, rest, within, rfl⟩

theorem pairwise_allDigits (lengths : List Nat) : (allDigits lengths).Pairwise (· < ·) := by
  induction lengths with
  | nil => exact List.pairwise_singleton _ _
  | cons length lengths ih =>
      rw [allDigits, List.pairwise_flatMap]
      constructor
      · intro digit _
        exact List.pairwise_map.mpr (ih.imp fun less => List.Lex.cons less)
      · refine List.pairwise_lt_range.imp fun {digit other} below => ?_
        simp only [List.mem_map]
        rintro _ ⟨rest, _, rfl⟩ _ ⟨following, _, rfl⟩
        exact List.Lex.rel below

theorem nodup_combinations (columns : List (String × List Int))
    (distinct : ∀ column ∈ columns, column.2.Nodup) : (combinations columns).Nodup := by
  induction columns with
  | nil => exact List.nodup_singleton []
  | cons column columns ih =>
      obtain ⟨field, buckets⟩ := column
      obtain ⟨head, rest⟩ := List.forall_mem_cons.mp distinct
      rw [combinations_cons, List.nodup_flatMap]
      constructor
      · intro bucket _
        exact (ih rest).map fun first second same => (List.cons.inj same).2
      · refine head.imp fun {bucket other} differ => ?_
        simp only [Function.onFun, List.disjoint_left, List.mem_map]
        rintro _ ⟨first, _, rfl⟩ ⟨second, _, same⟩
        exact differ (Prod.mk.inj (List.cons.inj same).1).2.symm

theorem choice_eq_lookups (columns : List (String × List Int)) (choice : List (String × Int))
    (distinct : (columns.map (·.1)).Nodup) (chooses : Chooses columns choice) :
    choice = columns.map fun column => (column.1, (choice.lookup column.1).getD 0) := by
  have names := chooses_names _ _ chooses
  calc choice
    _ = choice.map fun entry => (entry.1, (choice.lookup entry.1).getD 0) := by
      conv_lhs => rw [← List.map_id choice]
      refine List.map_congr_left fun entry member => ?_
      rw [lookup_eq_some_of_mem choice _ entry.2 (names ▸ distinct) member]
      rfl
    _ = (choice.map (·.1)).map fun field => (field, (choice.lookup field).getD 0) := by
      rw [List.map_map]
      rfl
    _ = columns.map fun column => (column.1, (choice.lookup column.1).getD 0) := by
      rw [names, List.map_map]
      rfl

theorem choice_ext (columns : List (String × List Int)) (left right : List (String × Int))
    (distinct : (columns.map (·.1)).Nodup) (first : Chooses columns left)
    (second : Chooses columns right)
    (same : ∀ column ∈ columns, left.lookup column.1 = right.lookup column.1) : left = right := by
  rw [choice_eq_lookups columns left distinct first,
    choice_eq_lookups columns right distinct second]
  refine List.map_congr_left fun column member => ?_
  rw [same column member]

/-- Actions list every combination of the buckets of columns once, in the order of an odometer. -/
structure CrossProduct {ν : Type} (definition : Definition ν) (axis : Option Axis)
    (columns : List (String × List Int)) (actions : List (Action ν)) : Prop where
  /-- The odometer passes all digits, in ascending order, and each gives an action. -/
  ordered : ∃ visited, Sweep (lengths columns) visited ∧ visited.Pairwise (· < ·) ∧
    (∀ digits, digits ∈ visited ↔ List.Forall₂ (· < ·) digits (lengths columns)) ∧
    actions = visited.map fun digits => ⟨⟨definition, axis, choiceAt columns digits⟩⟩
  count : actions.length = (lengths columns).prod
  filled : actions ≠ []
  carries : ∀ action ∈ actions, action.definition = definition ∧ action.axis = axis ∧
    Chooses columns action.record.buckets
  once : ∀ choice, Chooses columns choice →
    ∃! position : Nat, actions[position]? = some ⟨⟨definition, axis, choice⟩⟩
  apart : actions.Pairwise fun left right =>
    ∃ column ∈ columns, left.bucket? column.1 ≠ right.bucket? column.1

theorem crossProduct_combinations {ν : Type} (definition : Definition ν) (axis : Option Axis)
    (columns : List (String × List Int)) (named : (columns.map (·.1)).Nodup)
    (full : ∀ column ∈ columns, column.2 ≠ []) (distinct : ∀ column ∈ columns, column.2.Nodup) :
    CrossProduct definition axis columns
      ((combinations columns).map fun choice => ⟨⟨definition, axis, choice⟩⟩) := by
  have positive : ∀ length ∈ lengths columns, 0 < length := by
    intro length member
    obtain ⟨column, inside, rfl⟩ := List.mem_map.mp member
    exact List.length_pos_of_ne_nil (full column inside)
  have sweep := sweep_allDigits (lengths columns) positive
  have unique := nodup_combinations columns distinct
  refine ⟨⟨_, sweep, pairwise_allDigits _, mem_allDigits _, ?_⟩, ?_, ?_, ?_, ?_, ?_⟩
  · rw [combinations_eq, List.map_map]
    rfl
  · rw [List.length_map, combinations_eq, List.length_map, length_allDigits]
  · rw [combinations_eq, ne_eq, List.map_eq_nil_iff, List.map_eq_nil_iff]
    intro empty
    have start := sweep.start
    rw [empty] at start
    cases start
  · intro action member
    obtain ⟨choice, inside, rfl⟩ := List.mem_map.mp member
    exact ⟨rfl, rfl, (mem_combinations _ _).mp inside⟩
  · intro choice chooses
    obtain ⟨position, below, stands⟩ := List.getElem_of_mem ((mem_combinations _ _).mpr chooses)
    have placed : (combinations columns)[position]? = some choice :=
      List.getElem?_eq_some_iff.mpr ⟨below, stands⟩
    refine ⟨position, ?_, fun other found => ?_⟩
    · simp only [List.getElem?_map, placed, Option.map_some]
    · simp only [List.getElem?_map] at found
      obtain ⟨again, held, same⟩ := Option.map_eq_some_iff.mp found
      cases same
      exact ((List.getElem?_inj below unique).mp (placed.trans held.symm)).symm
  · rw [List.pairwise_map]
    refine List.Pairwise.imp_of_mem (fun {left right} first second differ => ?_) unique
    by_contra alike
    push Not at alike
    exact differ (choice_ext columns left right named ((mem_combinations _ _).mp first)
      ((mem_combinations _ _).mp second) alike)

section Definition

variable {ν : Type} [Scalar ν] {definition : Definition ν} (sound : definition.Sound)

include sound

theorem legalChildren_nodup (selector : Selector ν) (member : selector ∈ definition.selectors)
    (state : State ν) (isActive : String → Bool) :
    (legalChildren definition selector state isActive).Nodup := by
  have own : selector.ids.Nodup := by
    rw [(sound.offered selector member).2.2]
    exact nodup_optionIds _ _
  unfold legalChildren
  split
  · exact own
  · split
    · exact List.nodup_singleton _
    · exact own

theorem columns_nodup (state : State ν) (isActive : String → Bool) :
    ∀ column ∈ columns definition state isActive, column.2.Nodup := by
  intro column member
  rw [columns_eq, List.mem_append, List.mem_map, List.mem_map] at member
  rcases member with ⟨range, _, rfl⟩ | ⟨selector, choice, rfl⟩
  · change (declaredColumn definition state isActive range).Nodup
    unfold declaredColumn
    split
    · rename_i selector found
      exact legalChildren_nodup sound selector (List.mem_of_find?_eq_some found) state isActive
    · exact range.nodup_buckets
  · exact legalChildren_nodup sound selector (List.mem_filter.mp choice).1 state isActive

omit sound in
theorem undeclared_selectors (sound : definition.Sound) :
    (definition.selectors.filter fun selector => !selector.indexed) =
      definition.selectors.filter fun selector => !definition.isActionField selector.field :=
  List.filter_congr fun selector member => by rw [sound.indexed selector member]

end Definition

/-- The candidates of a state list every combination of one bucket for each field once, the last
field fastest. The fields are the declared ones, with all their buckets or with the legal children
of their selector, and then the selectors that are not declared. -/
theorem candidates_cross_product {ν : Type} [Scalar ν] [Elementary ν] (document : Document ν)
    (compiler after : Formula.Compiler ν) (denseCap : Nat) (definition : Definition ν)
    (accepted : document.finalize compiler denseCap = (.ok definition, after))
    (distinct : (document.selectors.map (·.field)).Nodup) (state : State ν)
    (isActive : String → Bool) :
    definition.layout.action.map (·.name) = definition.action.map (·.name) ∧
    columns definition state isActive =
      (definition.layout.action.map fun range => (range.name,
        match definition.selector? range.name with
        | some selector => legalChildren definition selector state isActive
        | none => range.buckets)) ++
      ((definition.selectors.filter fun selector =>
        !definition.isActionField selector.field).map fun selector =>
          (selector.field, legalChildren definition selector state isActive)) ∧
    CrossProduct definition state.axis (columns definition state isActive)
      (candidates definition state isActive) := by
  have sound := Document.sound_of_finalize _ _ _ _ _ accepted
  rw [← Document.selectorFields_of_finalize _ _ _ _ _ accepted] at distinct
  have named := columns_distinct sound distinct state isActive
  have listed : candidates definition state isActive =
      (combinations (columns definition state isActive)).map fun choice =>
        ⟨⟨definition, state.axis, choice⟩⟩ := by
    refine List.map_congr_left fun choice member => ?_
    have names := chooses_names _ _ ((mem_combinations _ _).mp member)
    exact Action.ofBuckets_of_nodup _ _ _ (names ▸ named)
  refine ⟨sound.actionNames, ?_, ?_⟩
  · rw [columns_eq, undeclared_selectors sound]
    rfl
  · rw [listed]
    exact crossProduct_combinations _ _ _ named (columns_full sound state isActive)
      (columns_nodup sound state isActive)

def repeatedOption : Document Float :=
  { Document.blank with
    name := "parent"
    action := [⟨"thrust", 0.0, 1.0, some 1.0⟩]
    selectors := [⟨"child", ["land", "hover", "land"], []⟩] }

theorem candidates_cross_product_repeated_option :
    ∃ definition after, repeatedOption.finalize Formula.Compiler.standard 100 =
        (.ok definition, after) ∧ (repeatedOption.selectors.map (·.field)).Nodup ∧
      let state : State Float := ⟨Record.empty definition (some .x)⟩
      CrossProduct definition (some .x) [("thrust", [0, 1]), ("child", [0, 1])]
        (candidates definition state fun _ => true) := by
  have evaluated : (repeatedOption.finalize Formula.Compiler.standard 100).1.toOption.any
      (fun definition => columns definition ⟨Record.empty definition (some .x)⟩ (fun _ => true) =
        [("thrust", [0, 1]), ("child", [0, 1])]) = true := by decide +kernel
  obtain ⟨definition, after, finalized, listed⟩ := exists_ok_of_any evaluated
  have distinct : (repeatedOption.selectors.map (·.field)).Nodup := by decide
  refine ⟨definition, after, finalized, distinct, ?_⟩
  rw [← of_decide_eq_true listed]
  exact (candidates_cross_product repeatedOption _ after 100 definition finalized distinct
    ⟨Record.empty definition (some .x)⟩ fun _ => true).2.2

end Learning

end Autoland
