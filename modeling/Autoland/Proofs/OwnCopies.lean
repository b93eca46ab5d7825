import Autoland.Proofs.RecordWrites

/-! Copies under the own definition. A definition that computes nothing from what it has derived
derives the same once more, and so moving a record to where it is changes nothing. -/

namespace Autoland

open Problem

variable {ν : Type}

/-- Whether a definition derives fields from given ones only: no formula reads a computed field, and
neither a computed nor a symmetric field is the part of a symmetric one along an axis. -/
structure Problem.Definition.Unmixed (definition : Definition ν) : Prop where
  reads : ∀ entry ∈ definition.formulas, ∀ name ∈ entry.2.fields,
    name ∉ definition.formulas.map (·.1)
  computedParts : ∀ name ∈ definition.symmetryAxes, ∀ axis,
    Axis.tag name (some axis) ∉ definition.formulas.map (·.1)
  symmetricParts : ∀ name ∈ definition.symmetryAxes, ∀ axis,
    Axis.tag name (some axis) ∉ definition.symmetryAxes

variable [Scalar ν]

/-- Whether the value of each carried bucket belongs to that bucket. -/
def Record.Kept (record : Record ν) : Prop :=
  ∀ entry ∈ record.buckets, (record.definition.quantizer entry.1).bucket
    ((record.definition.quantizer entry.1).value entry.2) = entry.2

instance (record : Record ν) : Decidable record.Kept :=
  inferInstanceAs (Decidable (∀ entry ∈ record.buckets, _))

namespace State

def part (axis : Axis) (record : Record ν) (field : String) : Option (String × ν) :=
  (record.value? (Axis.tag field (some axis))).map (field, ·)

def parts (record : Record ν) : List (String × ν) :=
  match record.axis with
  | none => []
  | some axis => record.definition.symmetryAxes.filterMap (part axis record)

def computation (record : Record ν) (entry : String × Formula.Expression ν) :
    Option (String × ν) :=
  if record.axis.isSome && record.definition.isSymmetryAxis entry.1 then none
  else some (entry.1, entry.2.evaluate record.fields)

def computations (record : Record ν) : List (String × ν) :=
  record.definition.formulas.filterMap (computation record)

section Congr

variable {names : List String} {one two : Record ν} (agrees : one.AgreesOff names two)

include agrees

theorem part_congr (axis : Axis) (field : String)
    (outside : Axis.tag field (some axis) ∉ names) : part axis two field = part axis one field := by
  rw [part, part, agrees.value? _ outside]

theorem parts_congr (outside : ∀ field ∈ one.definition.symmetryAxes, ∀ axis,
    Axis.tag field (some axis) ∉ names) : parts two = parts one := by
  rw [parts, parts, agrees.owner.1, agrees.owner.2]
  cases one.axis with
  | none => rfl
  | some axis =>
      exact List.filterMap_congr fun field member =>
        part_congr agrees axis field (outside field member axis)

theorem computation_congr (entry : String × Formula.Expression ν)
    (outside : ∀ name ∈ entry.2.fields, name ∉ names) :
    computation two entry = computation one entry := by
  have same : entry.2.evaluate two.fields = entry.2.evaluate one.fields :=
    entry.2.evaluate_congr _ _ fun name read => agrees.value? name (outside name read)
  rw [computation, computation, agrees.owner.1, agrees.owner.2, same]

theorem computations_congr (outside : ∀ entry ∈ one.definition.formulas,
    ∀ name ∈ entry.2.fields, name ∉ names) : computations two = computations one := by
  rw [computations, computations, agrees.owner.1]
  exact List.filterMap_congr fun entry member =>
    computation_congr agrees entry (outside entry member)

end Congr

theorem symmetric_of_mem_parts (record : Record ν) (entry : String × ν)
    (member : entry ∈ parts record) :
    record.axis.isSome = true ∧ entry.1 ∈ record.definition.symmetryAxes := by
  unfold parts at member
  split at member
  · cases member
  · rename_i axis along
    obtain ⟨field, symmetric, set⟩ := List.mem_filterMap.mp member
    obtain ⟨value, _, rfl⟩ := Option.map_eq_some_iff.mp set
    exact ⟨by rw [along]; rfl, symmetric⟩

theorem named_of_computation (record : Record ν) (entry : String × Formula.Expression ν)
    (set : String × ν) (made : computation record entry = some set) :
    set.1 = entry.1 ∧ (record.axis.isSome && record.definition.isSymmetryAxis set.1) = false := by
  unfold computation at made
  split at made
  · cases made
  · rename_i plain
    cases made
    exact ⟨rfl, Bool.eq_false_iff.mpr plain⟩

theorem named_of_mem_computations (record : Record ν) (entry : String × ν)
    (member : entry ∈ computations record) :
    entry.1 ∈ record.definition.formulas.map (·.1) ∧
      (record.axis.isSome && record.definition.isSymmetryAxis entry.1) = false := by
  obtain ⟨formula, listed, made⟩ := List.mem_filterMap.mp member
  obtain ⟨named, plain⟩ := named_of_computation record formula entry made
  exact ⟨named ▸ List.mem_map_of_mem listed, plain⟩

section Derive

variable (record : Record ν) (unmixed : record.definition.Unmixed)

include unmixed

theorem takeAxis_eq : takeAxis record = record.setAll (parts record) := by
  unfold takeAxis parts
  cases record.axis with
  | none => rfl
  | some axis =>
      rw [← Record.foldl_writes record.definition.symmetryAxes (part axis)]
      · dsimp only
        congr 1
        funext held field
        unfold part
        cases held.value? (Axis.tag field (some axis)) <;> rfl
      · intro field member one two agrees
        exact part_congr agrees axis field (unmixed.symmetricParts field member axis)
      · intro field member other entry set
        obtain ⟨value, _, rfl⟩ := Option.map_eq_some_iff.mp set
        exact member

theorem compute_eq : compute record = record.setAll (computations record) := by
  unfold compute computations
  rw [← Record.foldl_writes (record.definition.formulas.map (·.1)) computation]
  · congr 1
    funext held entry
    obtain ⟨name, formula⟩ := entry
    unfold computation
    dsimp only
    split <;> rfl
  · intro entry member one two agrees
    exact computation_congr agrees entry (unmixed.reads entry member)
  · intro entry member other set made
    rw [(named_of_computation other entry set made).1]
    exact List.mem_map_of_mem member

theorem takeAxis_agrees :
    record.AgreesOff record.definition.symmetryAxes (takeAxis record) := by
  rw [takeAxis_eq record unmixed]
  exact (Record.AgreesOff.refl _ record).setAll _ fun entry member =>
    (symmetric_of_mem_parts record entry member).2

theorem compute_agrees :
    record.AgreesOff (record.definition.formulas.map (·.1)) (compute record) := by
  rw [compute_eq record unmixed]
  exact (Record.AgreesOff.refl _ record).setAll _ fun entry member =>
    (named_of_mem_computations record entry member).1

end Derive

section Again

variable {record : Record ν}

/-- A field that took its part along the axis is not computed, so it holds that part in the end. -/
theorem bucket?_of_parts (unmixed : record.definition.Unmixed) (name : String) (bucket : Int)
    (last : (Record.bucketsOf record.definition (parts record)).reverse.lookup name =
      some bucket) : (compute (takeAxis record)).bucket? name = some bucket := by
  have owner := takeAxis_sameOwner record
  have still : (takeAxis record).definition.Unmixed := owner.1 ▸ unmixed
  obtain ⟨entry, member, same⟩ :=
    List.mem_map.mp (List.mem_reverse.mp (mem_of_lookup_eq_some _ _ _ last))
  obtain ⟨along, symmetric⟩ := symmetric_of_mem_parts record entry member
  have named : entry.1 = name := congrArg Prod.fst same
  have held : (takeAxis record).bucket? name = some bucket := by
    rw [takeAxis_eq record unmixed, Record.bucket?_setAll, last, Option.some_or]
  rw [compute_eq _ still, Record.bucket?_setAll, held]
  cases found : (Record.bucketsOf (takeAxis record).definition
      (computations (takeAxis record))).reverse.lookup name with
  | none => rfl
  | some other =>
      obtain ⟨set, made, alike⟩ :=
        List.mem_map.mp (List.mem_reverse.mp (mem_of_lookup_eq_some _ _ _ found))
      have plain := (named_of_mem_computations _ set made).2
      have sameName : set.1 = name := congrArg Prod.fst alike
      rw [sameName, ← named, owner.1, owner.2, along, Bool.true_and] at plain
      exact absurd (decide_eq_true symmetric) (Bool.eq_false_iff.mp plain)

theorem distinct_takeAxis (unmixed : record.definition.Unmixed) (distinct : record.Distinct) :
    (takeAxis record).Distinct := by
  rw [takeAxis_eq record unmixed]
  exact distinct.setAll _

theorem distinct_compute (unmixed : record.definition.Unmixed) (distinct : record.Distinct) :
    (compute record).Distinct := by
  rw [compute_eq record unmixed]
  exact distinct.setAll _

theorem compute_compute (unmixed : record.definition.Unmixed) (distinct : record.Distinct) :
    compute (compute record) = compute record := by
  have agrees := compute_agrees record unmixed
  have still : (compute record).definition.Unmixed := agrees.owner.1 ▸ unmixed
  have same : computations (compute record) = computations record :=
    computations_congr agrees unmixed.reads
  rw [compute_eq _ still, same]
  refine Record.setAll_eq_self _ (distinct_compute unmixed distinct) _ fun name bucket last => ?_
  rw [agrees.owner.1] at last
  rw [compute_eq record unmixed, Record.bucket?_setAll, last, Option.some_or]

theorem takeAxis_compute_takeAxis (unmixed : record.definition.Unmixed)
    (distinct : record.Distinct) :
    takeAxis (compute (takeAxis record)) = compute (takeAxis record) := by
  have owner := takeAxis_sameOwner record
  have still : (takeAxis record).definition.Unmixed := owner.1 ▸ unmixed
  have early := takeAxis_agrees record unmixed
  have late := compute_agrees (takeAxis record) still
  have final : (compute (takeAxis record)).definition.Unmixed := late.owner.1 ▸ still
  have once := distinct_compute still (distinct_takeAxis unmixed distinct)
  have same : parts (compute (takeAxis record)) = parts record :=
    (parts_congr late still.computedParts).trans (parts_congr early unmixed.symmetricParts)
  rw [takeAxis_eq _ final, same]
  refine Record.setAll_eq_self _ once _ fun name bucket last => ?_
  rw [late.owner.1, owner.1] at last
  exact bucket?_of_parts unmixed name bucket last

theorem distinct_derive (unmixed : record.definition.Unmixed) (distinct : record.Distinct) :
    (derive record).record.Distinct :=
  distinct_compute ((takeAxis_sameOwner record).1 ▸ unmixed) (distinct_takeAxis unmixed distinct)

theorem derive_derive (unmixed : record.definition.Unmixed) (distinct : record.Distinct) :
    derive (derive record).record = derive record := by
  have still : (takeAxis record).definition.Unmixed := (takeAxis_sameOwner record).1 ▸ unmixed
  have mirrored := takeAxis_compute_takeAxis unmixed distinct
  have recomputed := compute_compute still (distinct_takeAxis unmixed distinct)
  change State.mk (compute (takeAxis (compute (takeAxis record)))) = _
  rw [mirrored, recomputed]
  rfl

end Again

end State

namespace Record

theorem bucketsOf_values (record : Record ν) :
    bucketsOf record.definition record.values = (record.buckets.map (·.1)).map fun name =>
      (name, (record.definition.quantizer name).bucket (record.value name)) := by
  rw [bucketsOf, values, List.map_map, List.map_map]
  rfl

variable (record : Record ν) (kept : record.Kept)

include kept

theorem bucket?_moveTo_own (field : String) :
    (record.moveTo record.definition).bucket? field = record.bucket? field := by
  have moved : (record.moveTo record.definition).bucket? field =
      if field ∈ record.buckets.map (·.1) then
        some ((record.definition.quantizer field).bucket (record.value field)) else none := by
    have written : ((empty record.definition record.axis).setAll record.values).bucket? field =
        ((bucketsOf record.definition record.values).reverse.lookup field).or none :=
      bucket?_setAll _ record.values field
    rw [moveTo, written, bucketsOf_values, ← List.map_reverse, lookup_map_names, Option.or_none]
    simp only [List.mem_reverse]
  rw [moved]
  cases carried : record.bucket? field with
  | none => rw [if_neg ((lookup_eq_none_iff_unnamed _ _).mp carried)]
  | some bucket =>
      have member := mem_of_lookup_eq_some _ _ _ carried
      have read : record.value field = (record.definition.quantizer field).value bucket := by
        rw [value, value?, carried]
        rfl
      rw [if_pos (List.mem_map.mpr ⟨_, member, rfl⟩), read, kept _ member]

theorem moveTo_own (distinct : record.Distinct) : record.moveTo record.definition = record := by
  have names : (bucketsOf record.definition record.values).map (·.1) =
      record.buckets.map (·.1) := by
    rw [bucketsOf_values, List.map_map]
    exact List.map_id _
  have once : ((bucketsOf record.definition record.values).map (·.1)).Nodup := names ▸ distinct
  have written : record.moveTo record.definition =
      ⟨record.definition, record.axis, bucketsOf record.definition record.values⟩ := by
    have inserted := Action.ofBuckets_of_nodup record.definition _ record.axis once
    rw [Action.ofBuckets_eq] at inserted
    rw [moveTo, setAll_eq]
    exact congrArg Action.record inserted
  have buckets : bucketsOf record.definition record.values = record.buckets := by
    refine eq_of_lookup_eq _ _ names once fun name => ?_
    have same := record.bucket?_moveTo_own kept name
    rwa [written] at same
  rw [written, buckets]

end Record

theorem State.ofValues_moveTo_own (definition : Definition ν) (unmixed : definition.Unmixed)
    (values : List (String × ν)) (axis : Option Axis)
    (kept : (ofValues definition values axis).record.Kept) :
    (ofValues definition values axis).moveTo definition = ofValues definition values axis := by
  have owner := Record.setAll_sameOwner values (.empty definition axis)
  have blank : (Record.empty definition axis).Distinct := List.nodup_nil
  have filled := blank.setAll values
  have free : ((Record.empty definition axis).setAll values).definition.Unmixed := owner.1 ▸ unmixed
  have copied := (ofValues definition values axis).record.moveTo_own kept
    (distinct_derive free filled)
  have owned : (ofValues definition values axis).record.definition = definition :=
    (ofValues_owner definition values axis).1
  rw [owned] at copied
  rw [moveTo, copied]
  exact derive_derive free filled

/-- Moving what a definition made to that definition changes nothing, if the value of each carried
bucket belongs to it. A definition that derives fields from given ones only gives back every state
it made of values or of a snapshot, along either axis or none. Every definition gives back every
action with its axis and its buckets. -/
theorem copies_under_own_definition :
    (∀ definition : Definition ν, definition.Unmixed → ∀ axis,
      (∀ values, (State.ofValues definition values axis).record.Kept →
        (State.ofValues definition values axis).moveTo definition =
          State.ofValues definition values axis) ∧
      ∀ [Elementary ν] (snapshot : Flight.Snapshot ν),
        (State.ofSnapshot definition snapshot axis).record.Kept →
          (State.ofSnapshot definition snapshot axis).moveTo definition =
            State.ofSnapshot definition snapshot axis) ∧
    ∀ action : Action ν, action.record.Kept →
      (action.moveTo action.definition).definition = action.definition ∧
      (action.moveTo action.definition).axis = action.axis ∧
      ∀ field, (action.moveTo action.definition).bucket? field = action.bucket? field := by
  refine ⟨?_, ?_⟩
  · intro definition unmixed axis
    refine ⟨fun values kept => State.ofValues_moveTo_own definition unmixed values axis kept, ?_⟩
    intro _ snapshot kept
    exact State.ofValues_moveTo_own definition unmixed snapshot.fieldList axis kept
  · intro action kept
    obtain ⟨definition, axis⟩ := Record.setAll_sameOwner action.record.values
      (.empty action.definition action.axis)
    exact ⟨definition, axis, action.record.bucket?_moveTo_own kept⟩

def brakingDocument : Document Float :=
  { Document.blank with
    name := "braking"
    symmetryAxes := ["position", "velocity"]
    state := [⟨"position", 0.0, 4.0, some 0.5⟩, ⟨"velocity", 0.0, 4.0, some 1.0⟩,
      ⟨"altitude", 0.0, 8.0, some 1.0⟩]
    action := [⟨"nozzle", 0.0, 2.0, some 0.5⟩]
    formulas := [⟨"position", "Add(positionX,positionY)"⟩, ⟨"altitude", "Mult(height,3)"⟩,
      ⟨"square", "Mult(velocity,velocity)"⟩, ⟨"altitude", "(height)"⟩] }

/-- A state along one axis holds its position and velocity along that axis and the second altitude.
Moved to the definition it stays the same, and so does a decision. -/
theorem copies_under_own_definition_braking :
    ∃ definition : Definition Float,
      (∃ compiler, brakingDocument.finalize .standard 100 = (.ok definition, compiler)) ∧
      definition.Unmixed ∧
      let state := State.ofValues definition
        [("positionX", 3.0), ("positionY", -2.3), ("velocityY", 1.7), ("height", 3.4)] (some .y)
      let action := Action.ofValues definition [("nozzle", 1.2)] (some .x)
      state.record.buckets = [("positionX", 6), ("positionY", -5), ("velocityY", 2),
        ("height", 34000000), ("position", -5), ("velocity", 2), ("altitude", 3),
        ("square", 40000000)] ∧
      state.record.Kept ∧ state.moveTo definition = state ∧
      action.record.Kept ∧ (action.moveTo definition).bucket? "nozzle" = some 2 := by
  have computed : (brakingDocument.finalize .standard 100).1.toOption.any (fun definition =>
      let state := State.ofValues definition
        [("positionX", 3.0), ("positionY", -2.3), ("velocityY", 1.7), ("height", 3.4)] (some .y)
      let action := Action.ofValues definition [("nozzle", 1.2)] (some .x)
      ((∀ entry ∈ definition.formulas, ∀ name ∈ entry.2.fields,
          name ∉ definition.formulas.map (·.1)) ∧
        (∀ name ∈ definition.symmetryAxes, ∀ axis ∈ Axis.both,
          Axis.tag name (some axis) ∉ definition.formulas.map (·.1) ∧
            Axis.tag name (some axis) ∉ definition.symmetryAxes)) ∧
      state.record.buckets = [("positionX", 6), ("positionY", -5), ("velocityY", 2),
        ("height", 34000000), ("position", -5), ("velocity", 2), ("altitude", 3),
        ("square", 40000000)] ∧
      state.record.Kept ∧ action.record.Kept ∧ action.bucket? "nozzle" = some 2) = true := by
    decide +kernel
  obtain ⟨definition, found, facts⟩ := (Option.any_eq_true _ _).mp computed
  obtain ⟨⟨reads, tagged⟩, buckets, kept, held, chosen⟩ := of_decide_eq_true facts
  have listed : ∀ axis, axis ∈ Axis.both := by
    intro axis
    cases axis <;> decide
  have unmixed : definition.Unmixed :=
    ⟨reads, fun name member axis => (tagged name member axis (listed axis)).1,
      fun name member axis => (tagged name member axis (listed axis)).2⟩
  have accepted : brakingDocument.finalize .standard 100 =
      (.ok definition, (brakingDocument.finalize .standard 100).2) :=
    Prod.ext (eq_ok_of_toOption found) rfl
  obtain ⟨states, actions⟩ := @copies_under_own_definition Float _
  refine ⟨definition, ⟨_, accepted⟩, unmixed, buckets, kept,
    (states definition unmixed (some .y)).1 _ kept, held, ?_⟩
  exact ((actions _ held).2.2 "nozzle").trans chosen

end Autoland
