import Autoland.Number.Binary
import Autoland.Number.Exact
import Autoland.Proofs.Candidates
import Autoland.Proofs.ExactGrids

/-! Which candidates of a state share an entry of the value table. -/

namespace Autoland

namespace Grid

theorem rangeShift_of_natural (least : Int) (natural : 0 ≤ least) :
    rangeShift (Scalar.ofInt least : Rat) 1.0 = least :=
  rangeShift_of_nonneg _ _ (by norm_num) (Int.cast_nonneg natural)

theorem bucket_of_whole (shift value : Int) (above : shift ≤ value)
    (small : value - shift < Word.signedLimit) :
    (⟨1.0, (shift : Rat)⟩ : Quantizer Rat).bucket (Scalar.ofInt value) = value - shift := by
  have point : (Scalar.ofInt value : Rat) =
      (⟨1.0, (shift : Rat)⟩ : Quantizer Rat).value (value - shift) := by
    rw [Quantizer.value_eq]
    change (value : Rat) = _
    push_cast
    norm_num
  have fits : Word.isSigned (value - shift) = true := by
    rw [Word.isSigned, Bool.and_eq_true, decide_eq_true_eq, decide_eq_true_eq]
    omega
  rw [point, Quantizer.bucket_eq_hold, Quantizer.nearest_value _ (by norm_num),
    hold_of_isSigned _ fits]

theorem range_of_whole (field : String) (least most : Int) (natural : 0 ≤ least)
    (ordered : least ≤ most) (small : most - least < Word.signedLimit) :
    (Problem.Document.declare (⟨field, Scalar.ofInt least, Scalar.ofInt most, some 1.0⟩ :
      Problem.FieldSpec Rat)).range = ⟨field, 0, most - least⟩ := by
  have shift := rangeShift_of_natural least natural
  have low := bucket_of_whole least least le_rfl (by rw [sub_self]; decide)
  have high := bucket_of_whole least most ordered small
  rw [sub_self] at low
  simp only [Problem.Document.declare, Quantizer.forRange, Option.getD_some, shift, low, high]

end Grid

namespace Learning

open Problem

section Definition

variable {ν : Type} [Scalar ν] {definition : Definition ν}

theorem indexOf_eq_iff (sound : definition.Sound) (state : State ν) (left right : Action ν)
    (owned : state.definition = definition) (first : left.definition = definition)
    (second : right.definition = definition) :
    definition.indexOf state left = definition.indexOf state right ↔
      ∀ range ∈ definition.layout.action,
        range.clamp ((left.bucket? range.name).getD range.min) =
          range.clamp ((right.bucket? range.name).getD range.min) := by
  simp only [Definition.indexOf, owned, first, second, ne_eq, not_true_eq_false, if_false,
    Except.ok.injEq]
  rw [sound.layout.index_eq_iff _ _ _ _ (by simp [Grid.Layout.ranges])
    (by simp [Grid.Layout.ranges]), Grid.Layout.ranges,
    Grid.clampAll_append _ _ _ _ (by simp), Grid.clampAll_append _ _ _ _ (by simp),
    List.append_cancel_left_eq, Grid.clampAll_map, Grid.clampAll_map, List.map_inj_left]

/-- Whether the ranges of the declared selectors keep all legal children apart. -/
def ChildrenApart (definition : Definition ν) (state : State ν) (isActive : String → Bool) : Prop :=
  ∀ range ∈ definition.layout.action, ∀ selector,
    definition.selector? range.name = some selector →
      Set.InjOn range.clamp {id | id ∈ legalChildren definition selector state isActive}

theorem buckets_eq_of_clamp_eq (state : State ν) (isActive : String → Bool)
    (apart : ChildrenApart definition state isActive) (range : Grid.FieldRange)
    (declared : range ∈ definition.layout.action) (left right : Int)
    (first : left ∈ declaredColumn definition state isActive range)
    (second : right ∈ declaredColumn definition state isActive range)
    (same : range.clamp left = range.clamp right) : left = right := by
  unfold declaredColumn at first second
  cases found : definition.selector? range.name with
  | none =>
      rw [found] at first second
      rwa [range.clamp_of_holds _ ((range.mem_buckets left).mp first),
        range.clamp_of_holds _ ((range.mem_buckets right).mp second)] at same
  | some selector =>
      rw [found] at first second
      exact apart range declared selector found first second same

theorem index_ne_of_apart (sound : definition.Sound)
    (distinct : (definition.selectors.map (·.field)).Nodup) (state : State ν)
    (owned : state.definition = definition) (isActive : String → Bool)
    (apart : ChildrenApart definition state isActive) (left right : Action ν)
    (first : left ∈ candidates definition state isActive)
    (second : right ∈ candidates definition state isActive) (field : FieldSpec ν)
    (declares : field ∈ definition.action)
    (differ : left.bucket? field.name ≠ right.bucket? field.name) :
    definition.indexOf state left ≠ definition.indexOf state right := by
  intro same
  have named := List.mem_map_of_mem (f := FieldSpec.name) declares
  rw [← sound.actionNames] at named
  rcases List.mem_map.mp named with ⟨range, declared, name⟩
  obtain ⟨bucket, held, carried⟩ :=
    bucket_of_candidate sound distinct state isActive left first range declared
  obtain ⟨other, kept, brought⟩ :=
    bucket_of_candidate sound distinct state isActive right second range declared
  rcases (mem_candidates sound distinct _ _ _).mp first with ⟨_, _, rfl⟩
  rcases (mem_candidates sound distinct _ _ _).mp second with ⟨_, _, rfl⟩
  have clamped := (indexOf_eq_iff sound state _ _ owned rfl rfl).mp same range declared
  rw [carried, brought] at clamped
  apply differ
  rw [← name, carried, brought,
    buckets_eq_of_clamp_eq state isActive apart range declared bucket other held kept clamped]

theorem exists_index_eq_of_clamp_eq (sound : definition.Sound)
    (distinct : (definition.selectors.map (·.field)).Nodup) (state : State ν)
    (owned : state.definition = definition) (isActive : String → Bool) (range : Grid.FieldRange)
    (declared : range ∈ definition.layout.action) (selector : Selector ν)
    (found : definition.selector? range.name = some selector) (id other : Int)
    (legal : id ∈ legalChildren definition selector state isActive)
    (allowed : other ∈ legalChildren definition selector state isActive)
    (same : range.clamp id = range.clamp other) :
    ∃ left ∈ candidates definition state isActive,
      ∃ right ∈ candidates definition state isActive,
        left.bucket? range.name = some id ∧ right.bucket? range.name = some other ∧
          definition.indexOf state left = definition.indexOf state right := by
  have names := columns_distinct sound distinct state isActive
  have full := columns_full sound state isActive
  have column : ∀ inner ∈ definition.layout.action,
      (inner.name, declaredColumn definition state isActive inner) ∈
        columns definition state isActive := by
    intro inner member
    rw [columns_eq]
    exact List.mem_append_left _ (List.mem_map.mpr ⟨inner, member, rfl⟩)
  have taken : declaredColumn definition state isActive range =
      legalChildren definition selector state isActive := by
    rw [declaredColumn, found]
  have held : ∀ bucket ∈ legalChildren definition selector state isActive,
      ∀ entry ∈ columns definition state isActive, entry.1 = range.name → bucket ∈ entry.2 := by
    intro bucket member entry inside name
    have unique := List.inj_on_of_nodup_map names inside (column range declared) name
    rwa [unique, taken]
  have chosen : ∀ bucket ∈ legalChildren definition selector state isActive,
      (⟨⟨definition, state.axis,
        chooseAt range.name bucket (columns definition state isActive)⟩⟩ : Action ν) ∈
          candidates definition state isActive := by
    intro bucket member
    exact (mem_candidates sound distinct _ _ _).mpr
      ⟨_, chooses_chooseAt _ _ _ full (held bucket member), rfl⟩
  refine ⟨_, chosen id legal, _, chosen other allowed, ?_, ?_, ?_⟩
  · exact (lookup_chooseAt _ _ _ names _ (column range declared)).trans (by rw [if_pos rfl])
  · exact (lookup_chooseAt _ _ _ names _ (column range declared)).trans (by rw [if_pos rfl])
  · -- both choices take the first bucket of every other column
    rw [indexOf_eq_iff sound state _ _ owned rfl rfl]
    intro inner member
    change inner.clamp ((List.lookup inner.name _).getD _) =
      inner.clamp ((List.lookup inner.name _).getD _)
    rw [lookup_chooseAt _ _ _ names _ (column inner member),
      lookup_chooseAt _ _ _ names _ (column inner member), Option.getD_some, Option.getD_some]
    split
    · rename_i name
      have unique : inner = range :=
        List.inj_on_of_nodup_map (ranges_distinct sound) member declared name
      rwa [unique]
    · rfl

theorem natural_of_legal (sound : definition.Sound) (selector : Selector ν)
    (member : selector ∈ definition.selectors) (state : State ν) (isActive : String → Bool)
    (id : Int) (legal : id ∈ legalChildren definition selector state isActive) : 0 ≤ id := by
  have natural : ∀ id ∈ selector.ids, 0 ≤ id := by
    intro id inside
    rw [(sound.offered selector member).2.2, mem_optionIds] at inside
    rcases inside with ⟨option, _, found⟩
    exact (idOf?_bounds _ _ _ found).1
  unfold legalChildren at legal
  split at legal
  · exact natural id legal
  · split at legal
    · rename_i found
      rw [List.mem_singleton] at legal
      rw [legal]
      exact (idOf?_bounds _ _ _ found).1
    · exact natural id legal

end Definition

/-- In exact arithmetic the range of a declared selector runs from 0 to the difference of its
highest and its lowest id, and of the legal ids at most one may lie at its end or past it. -/
theorem childrenApart_iff_of_exact (definition : Definition Rat) (sound : definition.Sound)
    (few : definition.childNames.length ≤ Word.signedLimit) (state : State Rat)
    (isActive : String → Bool) :
    ChildrenApart definition state isActive ↔
      ∀ range ∈ definition.layout.action, ∀ selector,
        definition.selector? range.name = some selector → ∃ least most,
          (selector.options.filterMap (idOf? definition.childNames)).min? = some least ∧
          (selector.options.filterMap (idOf? definition.childNames)).max? = some most ∧
          ∀ id ∈ legalChildren definition selector state isActive,
            ∀ other ∈ legalChildren definition selector state isActive,
              id ≠ other → id < most - least ∨ other < most - least := by
  refine forall₄_congr fun range declared selector found => ?_
  rcases sound.choices range declared selector found with ⟨least, most, first, last, spans⟩
  have ordered : least ≤ most := (List.min?_eq_some_iff.mp first).2 most (List.max?_mem last)
  rcases List.mem_filterMap.mp (List.min?_mem first) with ⟨_, _, lowest⟩
  rcases List.mem_filterMap.mp (List.max?_mem last) with ⟨_, _, highest⟩
  replace lowest := idOf?_bounds _ _ _ lowest
  replace highest := idOf?_bounds _ _ _ highest
  rw [Grid.range_of_whole _ _ _ lowest.1 ordered (by omega)] at spans
  have natural := natural_of_legal sound selector (List.mem_of_find?_eq_some found) state isActive
  constructor
  · intro apart
    refine ⟨least, most, first, last, ?_⟩
    intro id legal other allowed differ
    by_contra past
    push Not at past
    apply differ
    apply apart legal allowed
    subst spans
    simp only [Grid.FieldRange.clamp]
    have positive := natural id legal
    have natural := natural other allowed
    grind
  · intro bounded id legal other allowed clamped
    rcases bounded with ⟨_, _, again, same, below⟩
    cases first.symm.trans again
    cases last.symm.trans same
    by_contra differ
    have inside := below id legal other allowed differ
    have positive := natural id legal
    have natural := natural other allowed
    subst spans
    simp only [Grid.FieldRange.clamp] at clamped
    grind

/-- Candidates that differ in a declared action field have different indices exactly where the
ranges of the declared selectors keep the legal children apart. The range of a selector is shifted
by its lowest id and the ids are not, so that those past its end are merged. -/
theorem candidates_apart_iff {ν : Type} [Scalar ν] [Elementary ν] (document : Document ν)
    (compiler after : Formula.Compiler ν) (denseCap : Nat) (definition : Definition ν)
    (accepted : document.finalize compiler denseCap = (.ok definition, after))
    (distinct : (document.selectors.map (·.field)).Nodup) (state : State ν)
    (owned : state.definition = definition) (isActive : String → Bool) :
    (∀ action ∈ candidates definition state isActive,
      ∃ index, definition.indexOf state action = .ok index) ∧
    ((∀ left ∈ candidates definition state isActive,
        ∀ right ∈ candidates definition state isActive, ∀ field ∈ definition.action,
          left.bucket? field.name ≠ right.bucket? field.name →
            definition.indexOf state left ≠ definition.indexOf state right) ↔
      ChildrenApart definition state isActive) := by
  have sound := Document.sound_of_finalize _ _ _ _ _ accepted
  rw [← Document.selectorFields_of_finalize _ _ _ _ _ accepted] at distinct
  refine ⟨?_, ?_, ?_⟩
  · intro action member
    rcases (mem_candidates sound distinct _ _ _).mp member with ⟨choice, _, rfl⟩
    simp [Definition.indexOf, owned, Action.definition]
  · intro separate range declared selector found id legal other allowed same
    obtain ⟨left, first, right, second, carried, brought, alike⟩ :=
      exists_index_eq_of_clamp_eq sound distinct state owned isActive range declared selector found
        id other legal allowed same
    by_contra differ
    have named := List.mem_map_of_mem (f := Grid.FieldRange.name) declared
    rw [sound.actionNames] at named
    rcases List.mem_map.mp named with ⟨field, declares, name⟩
    refine separate left first right second field declares ?_ alike
    rw [name, carried, brought]
    exact fun agree => differ (Option.some.inj agree)
  · intro apart left first right second field declares differ
    exact index_ne_of_apart sound distinct state owned isActive apart left right first second field
      declares differ

/-- A parent of three children. The second selector is declared and offers those with the ids 1
and 2. -/
def forkedDocument : Document Float :=
  { Document.blank with
    name := "parent"
    action := [⟨"second", 0.0, 0.0, none⟩]
    selectors := [⟨"first", ["a"], []⟩, ⟨"second", ["b", "c"], []⟩] }

theorem candidates_merged_past_range :
    ∃ definition after, forkedDocument.finalize Formula.Compiler.standard 100 =
        (.ok definition, after) ∧
      ∃ left ∈ candidates definition ⟨Record.empty definition none⟩ fun _ => true,
        ∃ right ∈ candidates definition ⟨Record.empty definition none⟩ fun _ => true,
          ∃ field ∈ definition.action, left.bucket? field.name ≠ right.bucket? field.name ∧
            definition.indexOf ⟨Record.empty definition none⟩ left =
              definition.indexOf ⟨Record.empty definition none⟩ right := by
  have evaluated : ((forkedDocument.finalize Formula.Compiler.standard 100).1.toOption.map
      fun made => (made.layout.action, (made.selector? "second").map fun selector =>
        (selector.rules.length, selector.ids))) =
      some ([⟨"second", 0, 1⟩], some (0, [1, 2])) := by decide +kernel
  cases finalized : forkedDocument.finalize Formula.Compiler.standard 100 with
  | mk result after =>
      rw [finalized] at evaluated
      cases result with
      | error error => cases evaluated
      | ok definition =>
          rcases Prod.mk.inj (Option.some.inj evaluated) with ⟨ranges, offered⟩
          rcases Option.map_eq_some_iff.mp offered with ⟨selector, found, ids⟩
          rcases Prod.mk.inj ids with ⟨no_rules, ids⟩
          have legal : legalChildren definition selector ⟨Record.empty definition none⟩
              (fun _ => true) = [1, 2] := by
            rw [legalChildren, List.length_eq_zero_iff.mp no_rules]
            exact ids
          have merged : ¬ ChildrenApart definition ⟨Record.empty definition none⟩
              fun _ => true := by
            intro apart
            have declared : ⟨"second", 0, 1⟩ ∈ definition.layout.action := by
              rw [ranges]
              exact List.mem_singleton_self _
            have separate := apart _ declared selector found
            rw [legal] at separate
            have same : (1 : Int) = 2 := separate (by simp) (by simp) (by decide)
            cases same
          have exactly := (candidates_apart_iff forkedDocument _ after 100 definition finalized
            (by decide) ⟨Record.empty definition none⟩ rfl fun _ => true).2
          rw [← exactly] at merged
          push Not at merged
          exact ⟨definition, after, rfl, merged⟩

end Learning

end Autoland
