import Autoland.Engine.Flight
import Autoland.Number.Binary
import Autoland.Proofs.MirrorSymmetry

/-! Whether a command depends on the order in which the fields of an action are set. -/

namespace Autoland

namespace Flight.Command

variable {ν : Type}

def slots : List String := ["thrust", "gimbalX", "gimbalY", "lateralThrustX", "lateralThrustY"]

theorem mem_slots (field : String) :
    field ∈ slots ↔ field = "thrust" ∨ field = "gimbalX" ∨ field = "gimbalY" ∨
      field = "lateralThrustX" ∨ field = "lateralThrustY" := by
  simp [slots]

theorem set_of_not_slot (command : Command ν) (field : String) (value : ν)
    (none : field ∉ slots) : command.set field value = command := by
  rw [mem_slots] at none
  push Not at none
  obtain ⟨thrust, gimbalX, gimbalY, lateralX, lateralY⟩ := none
  rw [set, set?]
  · rfl
  all_goals assumption

theorem get?_set (command : Command ν) (field : String) (value : ν) (slot : field ∈ slots) :
    (command.set field value).get? field = some value := by
  rcases (mem_slots field).mp slot with rfl | rfl | rfl | rfl | rfl <;> rfl

theorem set_comm (command : Command ν) (field other : String) (value another : ν)
    (differ : field ≠ other) :
    (command.set field value).set other another = (command.set other another).set field value := by
  by_cases first : field ∈ slots
  · by_cases second : other ∈ slots
    · rcases (mem_slots field).mp first with rfl | rfl | rfl | rfl | rfl <;>
        rcases (mem_slots other).mp second with rfl | rfl | rfl | rfl | rfl <;>
        first | rfl | exact absurd rfl differ
    · rw [set_of_not_slot _ _ _ second, set_of_not_slot _ _ _ second]
  · rw [set_of_not_slot _ _ _ first, set_of_not_slot _ _ _ first]

def OneEach (fields : List (String × ν)) : Prop :=
  ∀ slot ∈ slots, ∀ value other, (slot, value) ∈ fields → (slot, other) ∈ fields → value = other

theorem get?_setAll_last (command : Command ν) (fields : List (String × ν)) (slot : String)
    (value : ν) (known : slot ∈ slots) :
    (command.setAll (fields ++ [(slot, value)])).get? slot = some value := by
  rw [setAll, List.foldl_append]
  exact get?_set _ slot value known

theorem setAll_perm_iff (fields : List (String × ν)) :
    (∀ first second, first.Perm fields → second.Perm fields → ∀ command : Command ν,
      command.setAll first = command.setAll second) ↔ OneEach fields := by
  constructor
  · intro settled slot known value other member inside
    -- each of the two values can come last
    obtain ⟨before, behind, split⟩ := List.append_of_mem member
    obtain ⟨front, back, parted⟩ := List.append_of_mem inside
    have first : (before ++ behind ++ [(slot, value)]).Perm fields := by
      rw [split, List.append_assoc]
      exact List.Perm.append_left before (List.perm_append_singleton _ _)
    have second : (front ++ back ++ [(slot, other)]).Perm fields := by
      rw [parted, List.append_assoc]
      exact List.Perm.append_left front (List.perm_append_singleton _ _)
    have same := congrArg (fun command => command.get? slot)
      (settled _ _ first second ⟨value, value, value, value, value⟩)
    simp only [get?_setAll_last _ _ _ _ known] at same
    exact Option.some.inj same
  · intro once first second one two command
    have ordered : ∀ order : List (String × ν), order.Perm fields →
        command.setAll order = command.setAll fields := by
      intro order perm
      refine perm.foldl_eq' ?_ command
      rintro ⟨field, value⟩ member ⟨other, another⟩ inside current
      change (current.set field value).set other another =
        (current.set other another).set field value
      by_cases same : field = other
      · subst same
        by_cases known : field ∈ slots
        · rw [once field known value another (perm.mem_iff.mp member) (perm.mem_iff.mp inside)]
        · simp only [set_of_not_slot _ _ _ known]
      · exact set_comm current field other value another same
    rw [ordered first one, ordered second two]

end Flight.Command

namespace Record

theorem mem_names_insertBucket (field : String) (bucket : Int) (buckets : List (String × Int))
    (name : String) :
    name ∈ (insertBucket field bucket buckets).map (·.1) ↔
      name = field ∨ name ∈ buckets.map (·.1) := by
  induction buckets with
  | nil => simp [insertBucket]
  | cons entry buckets ih =>
      obtain ⟨other, old⟩ := entry
      rw [insertBucket]
      split
      · rename_i found
        simp [found]
      · rw [List.map_cons, List.mem_cons, ih, List.map_cons, List.mem_cons]
        exact or_left_comm

theorem nodup_insertBucket (field : String) (bucket : Int) (buckets : List (String × Int))
    (distinct : (buckets.map (·.1)).Nodup) :
    ((insertBucket field bucket buckets).map (·.1)).Nodup := by
  induction buckets with
  | nil => exact List.nodup_singleton field
  | cons entry buckets ih =>
      obtain ⟨other, old⟩ := entry
      rw [List.map_cons, List.nodup_cons] at distinct
      rw [insertBucket]
      split
      · rename_i found
        rw [List.map_cons, List.nodup_cons, ← found]
        exact distinct
      · rename_i differs
        rw [List.map_cons, List.nodup_cons, mem_names_insertBucket, not_or]
        exact ⟨⟨differs, distinct.1⟩, ih distinct.2⟩

theorem nodup_foldl_insertBucket (buckets held : List (String × Int))
    (distinct : (held.map (·.1)).Nodup) :
    ((buckets.foldl (fun held entry => insertBucket entry.1 entry.2 held) held).map
      (·.1)).Nodup := by
  induction buckets generalizing held with
  | nil => exact distinct
  | cons entry buckets ih => exact ih _ (nodup_insertBucket entry.1 entry.2 held distinct)

end Record

namespace Learning

open Problem Flight

variable {ν : Type} [Scalar ν]

/-- Whether the command of an action is the same in whatever order its fields are set. -/
def Settled (action : Action ν) : Prop :=
  ∀ first second, first.Perm action.commandFields → second.Perm action.commandFields →
    ∀ command : Command ν, command.setAll first = command.setAll second

/-- Whether two fields reach one slot along an axis: a symmetric field, and a field of its own with
the name of the part of the symmetric field along the axis. -/
structure Meets (definition : Definition ν) (axis : Option Axis) (field other : String) : Prop where
  symmetric : definition.isSymmetryAxis field = true
  plain : definition.isSymmetryAxis other = false
  tagged : Axis.tag field axis = other
  slot : other ∈ Command.slots

omit [Scalar ν] in
theorem Meets.ne {definition : Definition ν} {axis : Option Axis} {field other : String}
    (meets : Meets definition axis field other) : field ≠ other := by
  rintro rfl
  have symmetric := meets.symmetric
  rw [meets.plain] at symmetric
  cases symmetric

def sentName (definition : Definition ν) (axis : Option Axis) (field : String) : String :=
  if definition.isSymmetryAxis field = true then Axis.tag field axis else field

omit [Scalar ν] in
theorem tag_inj (axis : Option Axis) (first second : String)
    (same : Axis.tag first axis = Axis.tag second axis) : first = second := by
  cases axis with
  | none => exact same
  | some axis => exact (Axis.tag_some_inj first second axis axis same).1

omit [Scalar ν] in
theorem meets_of_sentName_eq (definition : Definition ν) (axis : Option Axis)
    (field other : String) (same : sentName definition axis field = sentName definition axis other)
    (slot : sentName definition axis field ∈ Command.slots) :
    field = other ∨ Meets definition axis field other ∨ Meets definition axis other field := by
  unfold sentName at same slot
  cases first : definition.isSymmetryAxis field <;>
    cases second : definition.isSymmetryAxis other <;>
    simp only [first, second, if_true, if_false, Bool.false_eq_true] at same slot
  · exact .inl same
  · exact .inr (.inr ⟨second, first, same.symm, slot⟩)
  · exact .inr (.inl ⟨first, second, same, same ▸ slot⟩)
  · exact .inl (tag_inj axis field other same)

theorem commandFields_of_nodup (definition : Definition ν) (axis : Option Axis)
    (held : List (String × Int)) (distinct : (held.map (·.1)).Nodup) :
    Action.commandFields ⟨⟨definition, axis, held⟩⟩ = held.map fun entry =>
      (sentName definition axis entry.1, (definition.quantizer entry.1).value entry.2) := by
  rw [Action.commandFields_eq]
  refine List.map_congr_left fun entry member => ?_
  have carried := lookup_eq_some_of_mem held entry.1 entry.2 distinct member
  simp only [Record.value, Record.value?, Record.bucket?, carried, Option.map_some,
    Option.getD_some]
  rfl

theorem settled_of_nodup (definition : Definition ν) (axis : Option Axis)
    (held : List (String × Int)) (distinct : (held.map (·.1)).Nodup) :
    Settled (⟨⟨definition, axis, held⟩⟩ : Action ν) ↔
      ∀ entry ∈ held, ∀ other ∈ held, Meets definition axis entry.1 other.1 →
        (definition.quantizer entry.1).value entry.2 =
          (definition.quantizer other.1).value other.2 := by
  rw [Settled, Command.setAll_perm_iff, commandFields_of_nodup definition axis held distinct]
  simp only [Command.OneEach, List.mem_map, Prod.mk.injEq]
  constructor
  · rintro once ⟨field, bucket⟩ member ⟨other, another⟩ inside meets
    have sent : sentName definition axis other = other := by
      simp [sentName, meets.plain]
    have tagged : sentName definition axis field = other := by
      simp [sentName, meets.symmetric, meets.tagged]
    exact once other meets.slot _ _ ⟨_, member, tagged, rfl⟩ ⟨_, inside, sent, rfl⟩
  · rintro equal slot known _ _ ⟨entry, member, rfl, rfl⟩ ⟨other, inside, same, rfl⟩
    rcases meets_of_sentName_eq definition axis entry.1 other.1 same.symm known with
      one | meets | meets
    · rw [List.inj_on_of_nodup_map distinct member inside one]
    · exact equal entry member other inside meets
    · exact (equal other inside entry member meets).symm

theorem settled_iff (definition : Definition ν) (axis : Option Axis)
    (choice : List (String × Int)) :
    let action := Action.ofBuckets definition choice axis
    Settled action ↔ ∀ field other bucket another, action.bucket? field = some bucket →
      action.bucket? other = some another → Meets definition axis field other →
        (definition.quantizer field).value bucket = (definition.quantizer other).value another := by
  dsimp only
  have distinct := Record.nodup_foldl_insertBucket choice [] List.nodup_nil
  rw [Action.ofBuckets_eq]
  generalize choice.foldl (fun held entry => Record.insertBucket entry.1 entry.2 held) [] = held
    at distinct ⊢
  have carried (field : String) (bucket : Int) :
      (⟨⟨definition, axis, held⟩⟩ : Action ν).bucket? field = some bucket ↔
        (field, bucket) ∈ held :=
    ⟨mem_of_lookup_eq_some _ _ _, lookup_eq_some_of_mem _ _ _ distinct⟩
  rw [settled_of_nodup definition axis held distinct]
  simp only [carried]
  constructor
  · intro equal field other bucket another member inside meets
    exact equal (field, bucket) member (other, another) inside meets
  · rintro equal ⟨field, bucket⟩ member ⟨other, another⟩ inside meets
    exact equal field other bucket another member inside meets

theorem exists_choice_of_two (columns : List (String × List Int))
    (full : ∀ column ∈ columns, column.2 ≠ []) (distinct : (columns.map (·.1)).Nodup)
    (column other : String × List Int) (member : column ∈ columns) (inside : other ∈ columns)
    (differ : column.1 ≠ other.1) (bucket another : Int) (held : bucket ∈ column.2)
    (kept : another ∈ other.2) :
    ∃ choice, Chooses columns choice ∧ (column.1, bucket) ∈ choice ∧
      (other.1, another) ∈ choice := by
  let pick (entry : String × List Int) : Int :=
    if entry.1 = column.1 then bucket else if entry.1 = other.1 then another else entry.2.headD 0
  refine ⟨columns.map fun entry => (entry.1, pick entry), ?_, ?_, ?_⟩
  · rw [Chooses, List.forall₂_map_right_iff, List.forall₂_same]
    intro entry listed
    refine ⟨rfl, ?_⟩
    by_cases first : entry.1 = column.1
    · rw [List.inj_on_of_nodup_map distinct listed member first]
      simpa [pick] using held
    · by_cases second : entry.1 = other.1
      · rw [List.inj_on_of_nodup_map distinct listed inside second]
        simpa [pick, differ.symm] using kept
      · obtain ⟨least, rest, filled⟩ := List.exists_cons_of_ne_nil (full entry listed)
        simp [pick, first, second, filled]
  · exact List.mem_map.mpr ⟨column, member, by simp [pick]⟩
  · exact List.mem_map.mpr ⟨other, inside, by simp [pick, differ.symm]⟩

theorem choices_settled_iff (definition : Definition ν) (sound : definition.Sound)
    (distinct : (definition.selectors.map (·.field)).Nodup) (state : State ν)
    (isActive : String → Bool) (axis : Option Axis) :
    (∀ choice, Chooses (columns definition state isActive) choice →
        Settled (Action.ofBuckets definition choice axis)) ↔
      ∀ column ∈ columns definition state isActive,
        ∀ other ∈ columns definition state isActive, Meets definition axis column.1 other.1 →
          ∀ bucket ∈ column.2, ∀ another ∈ other.2,
            (definition.quantizer column.1).value bucket =
              (definition.quantizer other.1).value another := by
  have names := columns_distinct sound distinct state isActive
  have settles : ∀ choice, Chooses (columns definition state isActive) choice →
      (Settled (Action.ofBuckets definition choice axis) ↔
        ∀ entry ∈ choice, ∀ other ∈ choice, Meets definition axis entry.1 other.1 →
          (definition.quantizer entry.1).value entry.2 =
            (definition.quantizer other.1).value other.2) := by
    intro choice chooses
    have unique := chooses_names _ _ chooses ▸ names
    rw [Action.ofBuckets_of_nodup definition choice axis unique]
    exact settled_of_nodup definition axis choice unique
  constructor
  · intro settled column member other inside meets bucket held another kept
    obtain ⟨choice, chooses, first, second⟩ := exists_choice_of_two _
      (columns_full sound state isActive) names column other member inside meets.ne bucket another
      held kept
    exact (settles choice chooses).mp (settled choice chooses) _ first _ second meets
  · intro equal choice chooses
    refine (settles choice chooses).mpr fun entry member other inside meets => ?_
    obtain ⟨column, listed, name, held⟩ := exists_of_mem_right chooses entry member
    obtain ⟨second, present, named, kept⟩ := exists_of_mem_right chooses other inside
    rw [name, named] at meets ⊢
    exact equal column listed second present meets entry.2 held other.2 kept

theorem commandOf_of_settled (actions : List (Action ν))
    (settled : ∀ action ∈ actions, Settled action) (orders : List (List (String × ν)))
    (visits : List.Forall₂ (fun order action => order.Perm action.commandFields) orders actions) :
    orders.foldl Command.setAll .zero = Run.commandOf actions := by
  rw [Run.commandOf]
  generalize (.zero : Command ν) = command
  induction visits generalizing command with
  | nil => rfl
  | cons perm _ ih =>
      obtain ⟨head, rest⟩ := List.forall_mem_cons.mp settled
      rw [List.foldl_cons, List.foldl_cons, head _ _ perm (List.Perm.refl _) command]
      exact ih rest _

theorem command_of_step {φ : Type} [Elementary ν] [RankedValue φ] [Stored ν φ] (run after : Run ν φ)
    (snapshot : Snapshot ν) (outcome : Outcome ν)
    (stepped : run.step snapshot = (.ok outcome, after)) :
    outcome.command = Run.commandOf outcome.actions.members := by
  unfold Run.step at stepped
  dsimp only at stepped
  split at stepped
  · cases stepped
  · cases stepped
    rfl

/-- The command of an action depends on the order in which its fields are set exactly if two of them
reach one slot with different values. A definition has such an action exactly if its columns offer
such values. Where no action of a step is one, the step has one command. -/
theorem commands_settled_iff {φ : Type} [Elementary ν] [RankedValue φ] [Stored ν φ]
    (document : Document ν) (compiler after : Formula.Compiler ν) (denseCap : Nat)
    (definition : Definition ν)
    (accepted : document.finalize compiler denseCap = (.ok definition, after)) (state : State ν)
    (isActive : String → Bool) (axis : Option Axis) :
    (∀ choice, Chooses (columns definition state isActive) choice →
      let action := Action.ofBuckets definition choice axis
      (Settled action ↔ ∀ field other bucket another, action.bucket? field = some bucket →
        action.bucket? other = some another → Meets definition axis field other →
          (definition.quantizer field).value bucket =
            (definition.quantizer other).value another)) ∧
    ((document.selectors.map (·.field)).Nodup →
      ((∀ choice, Chooses (columns definition state isActive) choice →
          Settled (Action.ofBuckets definition choice axis)) ↔
        ∀ column ∈ columns definition state isActive,
          ∀ other ∈ columns definition state isActive, Meets definition axis column.1 other.1 →
            ∀ bucket ∈ column.2, ∀ another ∈ other.2,
              (definition.quantizer column.1).value bucket =
                (definition.quantizer other.1).value another)) ∧
    ∀ (run after : Run ν φ) (snapshot : Snapshot ν) (outcome : Outcome ν),
      run.step snapshot = (.ok outcome, after) →
        (∀ action ∈ outcome.actions.members, Settled action) →
          ∀ orders, List.Forall₂ (fun order action => order.Perm action.commandFields) orders
            outcome.actions.members → orders.foldl Command.setAll .zero = outcome.command := by
  refine ⟨fun choice _ => settled_iff definition axis choice, ?_, ?_⟩
  · intro distinct
    rw [← Document.selectorFields_of_finalize _ _ _ _ _ accepted] at distinct
    have sound := Document.sound_of_finalize _ _ _ _ _ accepted
    exact choices_settled_iff definition sound distinct state isActive axis
  · intro run after snapshot outcome stepped settled orders visits
    rw [command_of_step run after snapshot outcome stepped]
    exact commandOf_of_settled _ settled orders visits

/-- A vehicle that steers by a symmetric field, and by another one with the name of the part of it
along the first axis. -/
def steeredTwice : Document Float :=
  { Document.blank with
    name := "steer"
    symmetryAxes := ["lateralThrust"]
    action := [⟨"lateralThrust", 0.0, 1.0, some 1.0⟩, ⟨"lateralThrustX", 0.0, 1.0, some 1.0⟩] }

/-- Along the first axis a command depends on the order of the fields; along the second none
does. -/
theorem commands_settled_iff_steered_twice :
    ∃ definition after, steeredTwice.finalize Formula.Compiler.standard 100 =
        (.ok definition, after) ∧
      let state : State Float := ⟨Record.empty definition none⟩
      let offered := columns definition state fun _ => true
      (∃ choice, Chooses offered choice ∧
        ¬Settled (Action.ofBuckets definition choice (some .x))) ∧
      ∀ choice, Chooses offered choice →
        Settled (Action.ofBuckets definition choice (some .y)) := by
  have evaluated : (steeredTwice.finalize Formula.Compiler.standard 100).1.toOption.any
      (fun definition =>
        columns definition ⟨Record.empty definition none⟩ (fun _ => true) =
          [("lateralThrust", [0, 1]), ("lateralThrustX", [0, 1])] &&
        definition.symmetryAxes = ["lateralThrust"] &&
        ((definition.quantizer "lateralThrust").value 0).toBits !=
          ((definition.quantizer "lateralThrustX").value 1).toBits) = true := by decide +kernel
  obtain ⟨definition, after, finalized, checked⟩ := exists_ok_of_any evaluated
  simp only [Bool.and_eq_true, decide_eq_true_eq, bne_iff_ne] at checked
  obtain ⟨⟨offers, symmetric⟩, apart⟩ := checked
  have exactly (axis : Option Axis) := (commands_settled_iff (φ := Float32) steeredTwice _
    after 100 definition finalized ⟨Record.empty definition none⟩ (fun _ => true) axis).2.1
      (by decide)
  refine ⟨definition, after, finalized, ?_, ?_⟩
  · by_contra all
    push Not at all
    have meets : Meets definition (some .x) "lateralThrust" "lateralThrustX" :=
      ⟨by simp [Definition.isSymmetryAxis, symmetric],
        by simp [Definition.isSymmetryAxis, symmetric], by decide +kernel, by decide +kernel⟩
    have first : ("lateralThrust", [0, 1]) ∈ columns definition
        ⟨Record.empty definition none⟩ fun _ => true := by
      rw [offers]
      exact List.mem_cons_self
    have second : ("lateralThrustX", [0, 1]) ∈ columns definition
        ⟨Record.empty definition none⟩ fun _ => true := by
      rw [offers]
      exact List.mem_cons_of_mem _ List.mem_cons_self
    have equal := (exactly (some .x)).mp all _ first _ second meets 0 (by decide) 1 (by decide)
    exact apart (congrArg Float.toBits equal)
  · refine (exactly (some .y)).mpr ?_
    rw [offers]
    -- no column has a name that ends in the letter of the second axis
    have free : ∀ column ∈ [("lateralThrust", [(0 : Int), 1]), ("lateralThrustX", [0, 1])],
        column.1.toList.getLast? ≠ some 'Y' := by decide +kernel
    intro column _ other inside meets
    refine absurd ?_ (free other inside)
    rw [← meets.tagged, Axis.tag, String.toList_push]
    simp [Axis.letter]

end Learning

end Autoland
