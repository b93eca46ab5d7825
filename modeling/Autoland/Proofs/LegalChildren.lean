import Autoland.Number.Binary
import Autoland.Proofs.Candidates

/-! Which children a selector may take. The rules of a selector name children freely, and a child
has one id for all selectors of a definition. So a rule may decide for a child that only another
selector offers, and only for such a child does a selector leave its own options. -/

namespace Autoland

open Problem

theorem Problem.Document.offered_of_finalize {ν : Type} [Scalar ν] [Elementary ν]
    (document : Document ν) (compiler after : Formula.Compiler ν) (denseCap : Nat)
    (definition : Definition ν)
    (accepted : document.finalize compiler denseCap = (.ok definition, after)) (name : String) :
    name ∈ definition.childNames ↔ ∃ selector ∈ definition.selectors, name ∈ selector.options := by
  rcases finalize_eq_ok _ _ _ _ _ accepted with ⟨outline, selectors, _, outlined, compiles, rfl⟩
  change name ∈ outline.childNames ↔ ∃ selector ∈ selectors, name ∈ selector.options
  rw [outlined.childNames, mem_childNames]
  constructor
  · rintro ⟨spec, member, offered⟩
    rcases exists_of_mem_right compiles.flip spec member with ⟨_, inside, _, rfl⟩
    exact ⟨_, inside, offered⟩
  · rintro ⟨selector, member, offered⟩
    rcases exists_of_mem_right compiles selector member with ⟨spec, inside, _, rfl⟩
    exact ⟨spec, inside, offered⟩

namespace Learning

variable {ν : Type} [Scalar ν]

section Deciding

variable (rules : List (Rule ν)) (last : Rule ν) (state : State ν)

theorem decidingRule_mem (member : last ∈ rules) (isActive : String → Bool) :
    decidingRule rules last state isActive ∈ rules := by
  unfold decidingRule
  dsimp only
  split
  · rename_i rule found
    exact List.mem_of_find?_eq_some found
  · split
    · exact member
    · cases found : rules.find? fun rule => isActive rule.child with
      | none => exact member
      | some rule => exact List.mem_of_find?_eq_some found

theorem child_of_decidingRule (rule : Rule ν) (member : rule ∈ rules) :
    (decidingRule rules last state fun name => name = rule.child).child = rule.child := by
  unfold decidingRule
  dsimp only
  split
  · rename_i chosen found
    have holds := List.find?_some found
    rw [Bool.and_eq_true] at holds
    exact of_decide_eq_true holds.1
  · split
    · rename_i active
      exact of_decide_eq_true active
    · cases found : rules.find? fun other => decide (other.child = rule.child) with
      | none =>
          have inactive := List.find?_eq_none.mp found rule member
          exact absurd (decide_eq_true rfl) inactive
      | some chosen =>
          have active := List.find?_some found
          exact of_decide_eq_true active

end Deciding

section Selector

variable {definition : Definition ν} (selector : Selector ν) (state : State ν)
  (isActive : String → Bool)

theorem legalChildren_cases :
    legalChildren definition selector state isActive = selector.ids ∨
      ∃ rule ∈ selector.rules, ∃ id, definition.childId? rule.child = some id ∧
        legalChildren definition selector state isActive = [id] := by
  unfold legalChildren
  split
  · exact .inl rfl
  · rename_i last latest
    have member := decidingRule_mem selector.rules last state (List.mem_of_getLast? latest) isActive
    split
    · rename_i id known
      exact .inr ⟨_, member, id, known, rfl⟩
    · exact .inl rfl

theorem legalChildren_of_rule (rule : Rule ν) (member : rule ∈ selector.rules) (id : Int)
    (known : definition.childId? rule.child = some id) :
    legalChildren definition selector state (fun name => name = rule.child) = [id] := by
  unfold legalChildren
  cases latest : selector.rules.getLast? with
  | none =>
      rw [List.getLast?_eq_none_iff.mp latest] at member
      cases member
  | some last =>
      dsimp only
      rw [child_of_decidingRule selector.rules last state rule member, known]

variable (sound : definition.Sound) (offers : selector ∈ definition.selectors)

include sound offers

theorem mem_ids_iff (name : String) (id : Int) (known : definition.childId? name = some id) :
    id ∈ selector.ids ↔ name ∈ selector.options := by
  rw [(sound.offered selector offers).2.2, mem_optionIds]
  constructor
  · rintro ⟨option, offered, found⟩
    -- an id has one name only
    have same := (getElem?_of_idOf? _ _ _ known).symm.trans (getElem?_of_idOf? _ _ _ found)
    rwa [Option.some.inj same]
  · intro offered
    exact ⟨name, offered, known⟩

theorem legalChildren_subset_iff :
    (∀ isActive, ∀ id ∈ legalChildren definition selector state isActive, id ∈ selector.ids) ↔
      ∀ rule ∈ selector.rules, rule.child ∈ definition.childNames →
        rule.child ∈ selector.options := by
  constructor
  · intro own rule member named
    rcases idOf?_of_mem _ _ named with ⟨id, known⟩
    rw [← mem_ids_iff selector sound offers rule.child id known]
    apply own fun name => name = rule.child
    rw [legalChildren_of_rule selector state rule member id known]
    exact List.mem_singleton_self id
  · intro named isActive id legal
    rcases legalChildren_cases selector state isActive with
      all | ⟨rule, member, chosen, known, single⟩
    · rwa [all] at legal
    · rw [single, List.mem_singleton] at legal
      subst legal
      rw [mem_ids_iff selector sound offers rule.child _ known]
      exact named rule member (List.mem_of_getElem? (getElem?_of_idOf? _ _ _ known))

theorem exists_bounds_of_declared (range : Grid.FieldRange)
    (declared : range ∈ definition.layout.action)
    (found : definition.selector? range.name = some selector) :
    ∃ least ∈ selector.ids, ∃ most ∈ selector.ids,
      range = (Document.declare (⟨selector.field, Scalar.ofInt least, Scalar.ofInt most, some 1.0⟩ :
        FieldSpec ν)).range ∧
      ∀ id ∈ selector.ids, least ≤ id ∧ id ≤ most := by
  rcases sound.choices range declared selector found with ⟨least, most, first, last, spans⟩
  have same : ∀ id, id ∈ selector.ids ↔
      id ∈ selector.options.filterMap (idOf? definition.childNames) := by
    intro id
    rw [(sound.offered selector offers).2.2, mem_optionIds, List.mem_filterMap]
  refine ⟨least, (same least).mpr (List.min?_mem first), most,
    (same most).mpr (List.max?_mem last), spans, ?_⟩
  intro id member
  rw [same] at member
  exact ⟨(List.min?_eq_some_iff.mp first).2 id member, (List.max?_eq_some_iff.mp last).2 id member⟩

end Selector

/-- A selector always has a child to take. What it may take are its own options, whatever is active,
exactly if none of its rules names a child that other selectors offer and it does not. The range of
a declared selector is made for its own options. -/
theorem legalChildren_own_iff [Elementary ν] (document : Document ν)
    (compiler after : Formula.Compiler ν) (denseCap : Nat) (definition : Definition ν)
    (accepted : document.finalize compiler denseCap = (.ok definition, after))
    (selector : Selector ν) (offers : selector ∈ definition.selectors) (state : State ν) :
    (∀ isActive, legalChildren definition selector state isActive ≠ []) ∧
    ((∀ isActive, ∀ id ∈ legalChildren definition selector state isActive, id ∈ selector.ids) ↔
      ∀ rule ∈ selector.rules, ∀ other ∈ definition.selectors, rule.child ∈ other.options →
        rule.child ∈ selector.options) ∧
    ∀ range ∈ definition.layout.action, definition.selector? range.name = some selector →
      ∃ least ∈ selector.ids, ∃ most ∈ selector.ids,
        range = (Document.declare (⟨selector.field, Scalar.ofInt least, Scalar.ofInt most,
          some 1.0⟩ : FieldSpec ν)).range ∧
        ∀ id ∈ selector.ids, least ≤ id ∧ id ≤ most := by
  have sound := Document.sound_of_finalize _ _ _ _ _ accepted
  refine ⟨legalChildren_nonempty sound selector offers state, ?_,
    exists_bounds_of_declared selector sound offers⟩
  rw [legalChildren_subset_iff selector state sound offers]
  refine forall₂_congr fun rule _ => ?_
  rw [document.offered_of_finalize _ _ _ _ accepted]
  exact ⟨fun named other inside offered => named ⟨other, inside, offered⟩,
    fun named ⟨other, inside, offered⟩ => named other inside offered⟩

/-- A parent whose first selector offers one child and has a rule for the child of the second. -/
def borrowedChild : Document Float :=
  { Document.blank with
    name := "parent"
    action := [⟨"first", 0.0, 0.0, none⟩]
    selectors := [⟨"first", ["a"], [⟨"TRUE", "b"⟩]⟩, ⟨"second", ["b"], []⟩] }

theorem legalChildren_own_iff_borrowed_child :
    ∃ definition after, borrowedChild.finalize Formula.Compiler.standard 100 =
        (.ok definition, after) ∧
      ∃ selector ∈ definition.selectors, selector.ids = [0] ∧
        ∀ state : State Float,
          (∀ isActive, legalChildren definition selector state isActive ≠ []) ∧
          ∃ isActive, ∃ id ∈ legalChildren definition selector state isActive,
            id ∉ selector.ids := by
  have evaluated : ((borrowedChild.finalize Formula.Compiler.standard 100).1.toOption.map
      fun made => made.selectors.map fun selector =>
        (selector.ids, selector.options, selector.rules.map (·.child))) =
      some [([0], ["a"], ["b"]), ([1], ["b"], [])] := by decide +kernel
  cases finalized : borrowedChild.finalize Formula.Compiler.standard 100 with
  | mk result after =>
      rw [finalized] at evaluated
      cases result with
      | error error => cases evaluated
      | ok definition =>
          have listed := Option.some.inj evaluated
          rcases List.map_eq_cons_iff.mp listed with ⟨first, others, selectors, offered, rest⟩
          rcases List.map_eq_cons_iff.mp rest with ⟨second, _, remaining, offers, _⟩
          simp only [Prod.mk.injEq] at offered offers
          refine ⟨definition, after, rfl, first, by simp [selectors], offered.1, ?_⟩
          intro state
          have exactly := legalChildren_own_iff borrowedChild _ after 100 definition finalized first
            (by simp [selectors]) state
          refine ⟨exactly.1, ?_⟩
          by_contra own
          push Not at own
          rcases List.map_eq_cons_iff.mp offered.2.2 with ⟨rule, _, rules, named, _⟩
          have within := exactly.2.1.mp own rule (by simp [rules]) second
            (by simp [selectors, remaining]) (by simp [named, offers.2.1])
          rw [offered.2.1, named] at within
          exact absurd within (by decide)

end Learning

end Autoland
