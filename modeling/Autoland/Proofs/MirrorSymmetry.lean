import Autoland.Proofs.AxisNames
import Autoland.Proofs.Decisions
import Autoland.Proofs.FieldGrids

/-! Mirrored values. A definition that names no axis makes the same state of values along one axis
and of their mirror image along the other. -/

namespace Autoland

namespace Formula

variable {ν : Type}

namespace Term

mutual

theorem subset_fieldsAfter (seen : List String) (term : Term ν) :
    seen ⊆ fieldsAfter seen term := by
  cases term with
  | literal text value negated => exact List.Subset.refl seen
  | field name negated =>
      rw [fieldsAfter]
      split
      · exact List.Subset.refl seen
      · exact List.subset_append_left seen [name]
  | call name operator args negated =>
      rw [fieldsAfter]
      exact subset_listFieldsAfter seen args

theorem subset_listFieldsAfter (seen : List String) (args : List (Term ν)) :
    seen ⊆ listFieldsAfter seen args := by
  cases args with
  | nil => exact List.Subset.refl seen
  | cons arg args =>
      rw [listFieldsAfter]
      exact List.Subset.trans (subset_fieldsAfter seen arg) (subset_listFieldsAfter _ args)

end

variable [Scalar ν] (first second : String → ν)

mutual

theorem evaluate_congr (seen : List String) (term : Term ν)
    (agree : ∀ name ∈ fieldsAfter seen term, first name = second name) :
    evaluate first term = evaluate second term := by
  cases term with
  | literal text value negated => rfl
  | field name negated =>
      have read : name ∈ fieldsAfter seen (.field name negated : Term ν) := by
        rw [fieldsAfter]
        split
        · assumption
        · exact List.mem_append_right seen List.mem_cons_self
      rw [evaluate, evaluate, agree name read]
  | call name operator args negated =>
      cases operator with
      | none => rfl
      | some operator =>
          rw [fieldsAfter] at agree
          rw [evaluate, evaluate, evaluateList_congr seen args agree]

theorem evaluateList_congr (seen : List String) (args : List (Term ν))
    (agree : ∀ name ∈ listFieldsAfter seen args, first name = second name) :
    evaluateList first args = evaluateList second args := by
  cases args with
  | nil => rfl
  | cons arg args =>
      rw [listFieldsAfter] at agree
      have head : ∀ name ∈ fieldsAfter seen arg, first name = second name :=
        fun name read => agree name (subset_listFieldsAfter _ args read)
      rw [evaluateList, evaluateList, evaluate_congr seen arg head,
        evaluateList_congr _ args agree]

end

end Term

theorem Expression.evaluate_congr [Scalar ν] (expression : Expression ν) (first second : Fields ν)
    (agree : ∀ name ∈ expression.fields, first name = second name) :
    expression.evaluate first = expression.evaluate second := by
  apply Term.evaluate_congr _ _ [] expression.root
  intro name read
  rw [agree name read]

end Formula

open Problem

variable {ν : Type}

/-- Whether a definition names no axis: neither a field or a selector, nor what it computes or reads
to compute, nor a symmetric field, which has a name. A formula for a symmetric field may read
anything, as it is not computed along an axis. -/
structure Problem.Definition.AxisFree (definition : Definition ν) : Prop where
  declared : ∀ field ∈ definition.state ++ definition.action, Axis.Untagged field.name
  chosen : ∀ selector ∈ definition.selectors, Axis.Untagged selector.field
  computed : ∀ entry ∈ definition.formulas, Axis.Untagged entry.1
  read : ∀ entry ∈ definition.formulas, definition.isSymmetryAxis entry.1 = false →
    ∀ name ∈ entry.2.fields, Axis.Untagged name
  symmetric : ∀ name ∈ definition.symmetryAxes, name ≠ "" ∧ Axis.Untagged name

variable [Scalar ν]

namespace Problem.Document

omit [Scalar ν] in
/-- The only field that sets the grid of a tagged name is the symmetric one it is a part of. -/
theorem tag_mem_gridNames (document : Document ν) (stem name : String) (axis : Axis)
    (untagged : Axis.Untagged name) :
    Axis.tag stem (some axis) ∈ document.gridNames name ↔
      name = stem ∧ name ∈ document.symmetryAxes := by
  have part : ∀ along : Axis, name ++ String.singleton along.letter =
      Axis.tag name (some along) := by
    intro along
    apply String.toList_inj.mp
    simp [Axis.tag]
  rw [mem_gridNames]
  constructor
  · intro named
    rcases named with same | ⟨symmetric, letter, listed, same⟩
    · exact absurd same.symm (Axis.untagged_ne_tag untagged stem axis)
    · refine ⟨?_, symmetric⟩
      simp only [List.mem_cons, List.not_mem_nil, or_false] at listed
      rcases listed with rfl | rfl | rfl
      · exact (Axis.tag_some_inj stem name axis .x (same.trans (part .x))).1.symm
      · exact (Axis.tag_some_inj stem name axis .y (same.trans (part .y))).1.symm
      · have letters := congrArg String.toList same
        rw [Axis.tag, String.toList_push, String.toList_append] at letters
        have last := (List.append_inj' letters rfl).2
        cases axis <;> simp [Axis.letter] at last
  · intro named
    rcases named with ⟨rfl, symmetric⟩
    refine .inr ⟨symmetric, String.singleton axis.letter, ?_, (part axis).symm⟩
    cases axis <;> decide

theorem lastGrid?_tag (document : Document ν) (stem : String) (one two : Axis)
    (fields : List (FieldSpec ν)) (untagged : ∀ field ∈ fields, Axis.Untagged field.name) :
    document.lastGrid? (Axis.tag stem (some one)) fields =
      document.lastGrid? (Axis.tag stem (some two)) fields := by
  induction fields with
  | nil => rfl
  | cons field fields ih =>
      rcases List.forall_mem_cons.mp untagged with ⟨head, tail⟩
      simp only [lastGrid?, ih tail, tag_mem_gridNames document stem _ _ head]

omit [Scalar ν] in
theorem choosesAside_tag (document : Document ν) (action : List (FieldSpec ν)) (stem : String)
    (axis : Axis)
    (untagged : ∀ selector ∈ document.selectors, Axis.Untagged selector.field) :
    document.choosesAside action (Axis.tag stem (some axis)) = false := by
  rw [choosesAside, List.any_eq_false]
  intro selector member chosen
  rw [Bool.and_eq_true, decide_eq_true_eq] at chosen
  exact Axis.untagged_ne_tag (untagged selector member) stem axis chosen.1

section Finalized

variable [Elementary ν] (document : Document ν) (compiler after : Formula.Compiler ν)
  (denseCap : Nat) (definition : Definition ν)
  (accepted : document.finalize compiler denseCap = (.ok definition, after))
  (free : definition.AxisFree)

include accepted free

theorem lookup_tag (stem : String) (one two : Axis) :
    definition.quantizers.lookup (Axis.tag stem (some one)) =
      definition.quantizers.lookup (Axis.tag stem (some two)) := by
  have selectors := selectorFields_of_finalize _ _ _ _ _ accepted
  rcases finalize_eq_ok _ _ _ _ _ accepted with
    ⟨outline, _, _, outlined, _, rfl⟩
  have whole : outline.state ++ outline.action =
      ((outline.state ++ outline.action).map (·.field)).map declare := by
    rw [List.map_append, List.map_append, ← declares_made _ _ _ _ outlined.state,
      ← declares_made _ _ _ _ outlined.action]
  have declared : ∀ field ∈ (outline.state ++ outline.action).map (·.field),
      Axis.Untagged field.name := by
    rw [List.map_append]
    exact free.declared
  have chosen : ∀ selector ∈ document.selectors, Axis.Untagged selector.field := by
    rw [← List.forall_mem_map, ← selectors, List.forall_mem_map]
    exact free.chosen
  change (document.quantizers outline).lookup _ = (document.quantizers outline).lookup _
  rw [lookup_quantizers document outline _ whole, lookup_quantizers document outline _ whole,
    choosesAside_tag document _ stem one chosen, choosesAside_tag document _ stem two chosen,
    lastGrid?_tag document stem one two _ declared]

theorem quantizer_mirror (name : String) :
    definition.quantizer (Axis.mirror name) = definition.quantizer name := by
  cases ends : Axis.ofName? name with
  | none => rw [Axis.mirror_of_ofName?_eq_none name ends]
  | some axis =>
      rcases Axis.exists_tag_of_ofName? name axis ends with ⟨stem, nonempty, rfl⟩
      rw [Axis.mirror_tag stem axis nonempty, Definition.quantizer, Definition.quantizer,
        lookup_tag document compiler after denseCap definition accepted free stem axis.other axis,
        Axis.untag?_tag stem axis nonempty, Axis.untag?_tag stem axis.other nonempty]

end Finalized

end Problem.Document

namespace Record

omit [Scalar ν] in
theorem lookup_insertBucket (field : String) (bucket : Int) (buckets : List (String × Int))
    (name : String) :
    (insertBucket field bucket buckets).lookup name =
      if name = field then some bucket else buckets.lookup name := by
  induction buckets with
  | nil => rw [insertBucket, lookup_cons_eq]
  | cons entry buckets ih =>
      rcases entry with ⟨other, old⟩
      rw [insertBucket]
      split
      · rename_i found
        rw [lookup_cons_eq, lookup_cons_eq, found]
        by_cases same : name = field
        · rw [if_pos same, if_pos same]
        · rw [if_neg same, if_neg same, if_neg same]
      · rename_i differs
        rw [lookup_cons_eq, lookup_cons_eq, ih]
        by_cases same : name = other
        · rw [if_pos same, if_pos same, if_neg (same ▸ differs)]
        · rw [if_neg same, if_neg same]

omit [Scalar ν] in
theorem forall_insertBucket (property : String → Prop) (field : String) (bucket : Int)
    (buckets : List (String × Int)) (given : property field)
    (held : ∀ entry ∈ buckets, property entry.1) :
    ∀ entry ∈ insertBucket field bucket buckets, property entry.1 := by
  induction buckets with
  | nil => simpa [insertBucket] using given
  | cons entry buckets ih =>
      rcases entry with ⟨name, old⟩
      rcases List.forall_mem_cons.mp held with ⟨head, tail⟩
      rw [insertBucket]
      split
      · exact List.forall_mem_cons.mpr ⟨given, tail⟩
      · exact List.forall_mem_cons.mpr ⟨head, ih tail⟩

omit [Scalar ν] in
theorem forall_foldl_insertBucket (property : String → Prop) (buckets held : List (String × Int))
    (given : ∀ entry ∈ buckets, property entry.1) (before : ∀ entry ∈ held, property entry.1) :
    ∀ entry ∈ buckets.foldl (fun held entry => insertBucket entry.1 entry.2 held) held,
      property entry.1 := by
  induction buckets generalizing held with
  | nil => exact before
  | cons entry buckets ih =>
      rcases List.forall_mem_cons.mp given with ⟨head, tail⟩
      exact ih _ tail (forall_insertBucket property _ _ _ head before)

/-- Whether a record along an axis is the mirror image of another one, along the other axis, on
grids that know no axis. -/
structure Mirrors (axis : Axis) (one two : Record ν) : Prop where
  owner : two.definition = one.definition
  along : one.axis = some axis
  across : two.axis = some axis.other
  grids : ∀ name, one.definition.quantizer (Axis.mirror name) = one.definition.quantizer name
  buckets : ∀ name, two.bucket? (Axis.mirror name) = one.bucket? name

namespace Mirrors

variable {axis : Axis} {one two : Record ν}

theorem value? (mirrors : Mirrors axis one two) (name : String) :
    two.value? (Axis.mirror name) = one.value? name := by
  rw [Record.value?, Record.value?, mirrors.buckets, mirrors.owner, mirrors.grids]

theorem set (mirrors : Mirrors axis one two) (field : String) (value : ν) :
    Mirrors axis (one.set field value) (two.set (Axis.mirror field) value) := by
  refine ⟨mirrors.owner, mirrors.along, mirrors.across, mirrors.grids, ?_⟩
  intro name
  have carried := mirrors.buckets name
  simp only [bucket?] at carried
  simp only [Record.set, setBucket, bucket?, lookup_insertBucket, Axis.mirror_inj, mirrors.owner,
    mirrors.grids, carried]

theorem setAll (mirrors : Mirrors axis one two) (values : List (String × ν)) :
    Mirrors axis (one.setAll values)
      (two.setAll (Axis.mirrorAll values)) := by
  induction values generalizing one two with
  | nil => exact mirrors
  | cons entry values ih => exact ih (mirrors.set entry.1 entry.2)

theorem takeAxis (mirrors : Mirrors axis one two)
    (symmetric : ∀ name ∈ one.definition.symmetryAxes, name ≠ "" ∧ Axis.Untagged name) :
    Mirrors axis (State.takeAxis one) (State.takeAxis two) := by
  rw [State.takeAxis, State.takeAxis, mirrors.along, mirrors.across, mirrors.owner]
  dsimp only
  generalize one.definition.symmetryAxes = names at symmetric
  induction names generalizing one two with
  | nil => exact mirrors
  | cons name names ih =>
      rcases List.forall_mem_cons.mp symmetric with ⟨⟨nonempty, untagged⟩, others⟩
      have part := mirrors.value? (Axis.tag name (some axis))
      rw [Axis.mirror_tag name axis nonempty] at part
      simp only [List.foldl_cons, part]
      cases one.value? (Axis.tag name (some axis)) with
      | none => exact ih mirrors others
      | some value =>
          have step := mirrors.set name value
          rw [Axis.mirror_untagged untagged] at step
          exact ih step others

theorem compute (mirrors : Mirrors axis one two)
    (computed : ∀ entry ∈ one.definition.formulas, Axis.Untagged entry.1 ∧
      (one.definition.isSymmetryAxis entry.1 = false →
        ∀ name ∈ entry.2.fields, Axis.Untagged name)) :
    Mirrors axis (State.compute one) (State.compute two) := by
  rw [State.compute, State.compute, mirrors.owner]
  generalize one.definition.formulas = formulas at computed
  induction formulas generalizing one two with
  | nil => exact mirrors
  | cons entry formulas ih =>
      rcases entry with ⟨name, formula⟩
      rcases List.forall_mem_cons.mp computed with ⟨⟨untagged, read⟩, others⟩
      simp only [List.foldl_cons, mirrors.along, mirrors.across, mirrors.owner,
        Option.isSome_some, Bool.true_and]
      split
      · exact ih mirrors others
      · rename_i plain
        have same : formula.evaluate two.fields = formula.evaluate one.fields := by
          apply formula.evaluate_congr
          intro field reads
          have value := mirrors.value? field
          rwa [Axis.mirror_untagged (read (Bool.eq_false_iff.mpr plain) field reads)] at value
        have step := mirrors.set name (formula.evaluate one.fields)
        rw [Axis.mirror_untagged untagged] at step
        rw [same]
        exact ih step others

end Mirrors

end Record

theorem State.ofValues_mirrors (definition : Definition ν) (free : definition.AxisFree)
    (grids : ∀ name, definition.quantizer (Axis.mirror name) = definition.quantizer name)
    (values : List (String × ν)) (axis : Axis) :
    Record.Mirrors axis (ofValues definition values (some axis)).record
      (ofValues definition (Axis.mirrorAll values) (some axis.other)).record := by
  have blank : Record.Mirrors axis (.empty definition (some axis))
      (.empty definition (some axis.other)) := ⟨rfl, rfl, rfl, grids, fun _ => rfl⟩
  have filled := blank.setAll values
  have owner := (Record.setAll_sameOwner values (.empty definition (some axis))).1
  have taken := filled.takeAxis (owner ▸ free.symmetric)
  apply taken.compute
  rw [(takeAxis_sameOwner _).1, owner]
  exact fun entry member => ⟨free.computed entry member, free.read entry member⟩

theorem Problem.Definition.indexOf_congr (definition : Definition ν) (sound : definition.Sound)
    (one two : State ν) (owner : two.definition = one.definition)
    (buckets : ∀ field ∈ definition.state, one.bucket? field.name = two.bucket? field.name)
    (action : Action ν) : definition.indexOf one action = definition.indexOf two action := by
  have carried : ∀ range ∈ definition.layout.state,
      one.bucket? range.name = two.bucket? range.name := by
    intro range member
    have named := List.mem_map_of_mem (f := Grid.FieldRange.name) member
    rw [sound.stateNames] at named
    rcases List.mem_map.mp named with ⟨field, declared, same⟩
    rw [← same]
    exact buckets field declared
  have places : (definition.layout.state.map fun range =>
      (one.bucket? range.name).getD range.min) =
        definition.layout.state.map fun range => (two.bucket? range.name).getD range.min := by
    apply List.map_congr_left
    intro range member
    rw [carried range member]
  rw [Definition.indexOf, Definition.indexOf, owner, places]

namespace Action

omit [Scalar ν] in
theorem ofBuckets_eq (definition : Definition ν) (buckets : List (String × Int))
    (axis : Option Axis) :
    ofBuckets definition buckets axis = ⟨⟨definition, axis,
      buckets.foldl (fun held entry => Record.insertBucket entry.1 entry.2 held) []⟩⟩ := by
  suffices general : ∀ held, buckets.foldl
      (fun record (entry : String × Int) => record.setBucket entry.1 entry.2)
      (⟨definition, axis, held⟩ : Record ν) = ⟨definition, axis,
        buckets.foldl (fun held entry => Record.insertBucket entry.1 entry.2 held) held⟩ by
    exact congrArg Action.mk (general [])
  induction buckets with
  | nil => exact fun _ => rfl
  | cons entry buckets ih => exact fun held => ih (Record.insertBucket entry.1 entry.2 held)

theorem commandFields_eq (definition : Definition ν) (axis : Option Axis)
    (held : List (String × Int)) :
    commandFields ⟨⟨definition, axis, held⟩⟩ = held.map fun entry =>
      (if definition.isSymmetryAxis entry.1 = true then Axis.tag entry.1 axis else entry.1,
        (⟨definition, none, held⟩ : Record ν).value entry.1) :=
  List.map_map

theorem commandFields_mirrored (definition : Definition ν) (free : definition.AxisFree)
    (buckets : List (String × Int)) (untagged : ∀ entry ∈ buckets, Axis.Untagged entry.1)
    (axis : Axis) :
    (ofBuckets definition buckets (some axis.other)).commandFields =
      Axis.mirrorAll (ofBuckets definition buckets (some axis)).commandFields := by
  have names := Record.forall_foldl_insertBucket Axis.Untagged buckets [] untagged
    fun _ member => nomatch member
  rw [ofBuckets_eq, ofBuckets_eq, commandFields_eq, commandFields_eq, Axis.mirrorAll, List.map_map]
  apply List.map_congr_left
  intro entry member
  rw [Function.comp_apply]
  by_cases symmetric : definition.isSymmetryAxis entry.1 = true
  · have listed : entry.1 ∈ definition.symmetryAxes := of_decide_eq_true symmetric
    rw [if_pos symmetric, if_pos symmetric,
      Axis.mirror_tag _ _ (free.symmetric entry.1 listed).1]
  · rw [if_neg symmetric, if_neg symmetric, Axis.mirror_untagged (names entry member)]

end Action

/-- A definition that names no axis does not tell values along one axis from their mirror image
along the other: both make the same state, under the same indices. What it decides along one axis it
commands as the mirror image of what it decides along the other. -/
theorem State.mirrored [Elementary ν] (document : Document ν) (compiler after : Formula.Compiler ν)
    (denseCap : Nat) (definition : Definition ν)
    (accepted : document.finalize compiler denseCap = (.ok definition, after))
    (free : definition.AxisFree) :
    (∀ values : List (String × ν),
      let along := ofValues definition values (some .x)
      let across := ofValues definition (Axis.mirrorAll values) (some .y)
      (∀ field ∈ definition.state, along.bucket? field.name = across.bucket? field.name) ∧
        along.same across = true ∧
        ∀ action, definition.indexOf along action = definition.indexOf across action) ∧
    ∀ buckets : List (String × Int), (∀ entry ∈ buckets, Axis.Untagged entry.1) →
      (Action.ofBuckets definition buckets (some .x)).commandFields =
        Axis.mirrorAll (Action.ofBuckets definition buckets (some .y)).commandFields := by
  have sound := document.sound_of_finalize compiler after denseCap definition accepted
  have grids := document.quantizer_mirror compiler after denseCap definition accepted free
  constructor
  · intro values along across
    have mirrors := ofValues_mirrors definition free grids values .x
    have owned := (ofValues_owner definition values (some .x)).1
    have carried : ∀ field ∈ definition.state,
        along.bucket? field.name = across.bucket? field.name := by
      intro field declared
      have same := mirrors.buckets field.name
      rw [Axis.mirror_untagged (free.declared field (List.mem_append_left _ declared))] at same
      exact same.symm
    refine ⟨carried, ?_, definition.indexOf_congr sound along across mirrors.owner carried⟩
    rw [State.same, Record.agreesOn, Bool.and_eq_true, beq_iff_eq, List.all_eq_true]
    refine ⟨congrArg Definition.name mirrors.owner.symm, ?_⟩
    intro field declared
    rw [beq_iff_eq]
    exact carried field (owned ▸ declared)
  · intro buckets untagged
    exact Action.commandFields_mirrored definition free buckets untagged .y

/-- A definition of one position and one nozzle that serve both axes. -/
def steadyDocument : Document Float :=
  { Document.blank with
    name := "steady"
    symmetryAxes := ["position", "nozzle"]
    state := [⟨"position", 0.0, 4.0, some 1.0⟩, ⟨"distance", 0.0, 4.0, some 1.0⟩]
    action := [⟨"nozzle", 0.0, 2.0, some 1.0⟩]
    formulas := [⟨"position", "Add(positionX,positionY)"⟩, ⟨"distance", "Abs(position)"⟩] }

theorem State.mirrored_steady :
    ∃ definition : Definition Float,
      (∃ compiler, steadyDocument.finalize .standard 100 = (.ok definition, compiler)) ∧
      definition.AxisFree ∧
      (ofValues definition [("positionY", -2.0), ("positionX", 3.0)] (some .y)).bucket? "distance" =
        some 2 ∧
      (ofValues definition [("positionX", -2.0), ("positionY", 3.0)] (some .x)).bucket? "distance" =
        some 2 ∧
      (Action.ofBuckets definition [("nozzle", 1)] (some .y)).commandFields = [("nozzleY", 1.0)] ∧
      (Action.ofBuckets definition [("nozzle", 1)] (some .x)).commandFields =
        [("nozzleX", 1.0)] := by
  have computed : (steadyDocument.finalize .standard 100).1.toOption.any (fun definition =>
      ((∀ field ∈ definition.state ++ definition.action, Axis.Untagged field.name) ∧
        (∀ selector ∈ definition.selectors, Axis.Untagged selector.field) ∧
        (∀ entry ∈ definition.formulas, Axis.Untagged entry.1) ∧
        (∀ entry ∈ definition.formulas, definition.isSymmetryAxis entry.1 = false →
          ∀ name ∈ entry.2.fields, Axis.Untagged name) ∧
        ∀ name ∈ definition.symmetryAxes, name ≠ "" ∧ Axis.Untagged name) ∧
      definition.state.map (·.name) = ["position", "distance"] ∧
      (ofValues definition [("positionY", -2.0), ("positionX", 3.0)] (some .y)).bucket?
        "distance" = some 2 ∧
      (Action.ofBuckets definition [("nozzle", 1)] (some .y)).commandFields =
        [("nozzleY", 1.0)]) = true := by
    decide +kernel
  rcases (Option.any_eq_true _ _).mp computed with ⟨definition, found, facts⟩
  rcases of_decide_eq_true facts with ⟨⟨declared, chosen, made, read, symmetric⟩, names, bucket,
    command⟩
  have accepted : steadyDocument.finalize .standard 100 =
      (.ok definition, (steadyDocument.finalize .standard 100).2) :=
    Prod.ext (eq_ok_of_toOption found) rfl
  have free : definition.AxisFree := ⟨declared, chosen, made, read, symmetric⟩
  rcases mirrored steadyDocument _ _ 100 definition accepted free with ⟨states, commands⟩
  have listed : "distance" ∈ definition.state.map (·.name) := by
    rw [names]
    decide
  rcases List.mem_map.mp listed with ⟨field, member, named⟩
  have same := (states [("positionX", -2.0), ("positionY", 3.0)]).1 field member
  rw [named] at same
  refine ⟨definition, ⟨_, accepted⟩, free, bucket, same.trans ?_, command, ?_⟩
  · rw [← bucket]
    have swapped : Axis.mirrorAll [("positionX", (-2.0 : Float)), ("positionY", 3.0)] =
        [("positionY", -2.0), ("positionX", 3.0)] := by
      decide
    rw [swapped]
  · rw [commands [("nozzle", 1)] (by decide), command]
    decide

end Autoland
