import Autoland.Number.Binary
import Autoland.Proofs.Finalization
import Autoland.Proofs.Pairs

/-! The grid under which a declared field is found, against the grid that its buckets were counted
on. They differ where a later declaration sets a grid under the same name. -/

namespace Autoland

open Problem

namespace Problem

theorem Document.mem_gridNames {ν : Type} (document : Document ν) (part name : String) :
    part ∈ document.gridNames name ↔ part = name ∨
      name ∈ document.symmetryAxes ∧ ∃ letter ∈ ["X", "Y", "Z"], part = name ++ letter := by
  unfold gridNames
  split
  · rename_i symmetric
    simp [symmetric]
  · rename_i plain
    simp [plain]

variable {ν : Type} [Scalar ν]

def FieldSpec.grid (field : FieldSpec ν) : Grid.Quantizer ν :=
  .forRange field.min (field.precision.getD 1.0)

def FieldSpec.range (field : FieldSpec ν) : Grid.FieldRange :=
  ⟨field.name, field.grid.bucket field.min, field.grid.bucket field.max⟩

namespace Document

/-- The grid that the last of some fields sets under a name: under its own or, if it is symmetric,
under that of a part. -/
def lastGrid? (document : Document ν) (name : String) :
    List (FieldSpec ν) → Option (Grid.Quantizer ν)
  | [] => none
  | field :: later =>
    (lastGrid? document name later).or
      (if name ∈ document.gridNames field.name then some field.grid else none)

def choosesAside (document : Document ν) (action : List (FieldSpec ν)) (name : String) : Bool :=
  document.selectors.any fun selector =>
    selector.field = name && !action.any (·.name = selector.field)

/-- The grid that is set under the name of a declared field after its own, if there is one. `later`
are the fields declared after it. -/
def regrid? (document : Document ν) (action later : List (FieldSpec ν)) (name : String) :
    Option (Grid.Quantizer ν) :=
  if document.choosesAside action name then some ⟨1.0, 0.0⟩ else document.lastGrid? name later

theorem lastGrid?_append (document : Document ν) (name : String)
    (front back : List (FieldSpec ν)) :
    document.lastGrid? name (front ++ back) =
      (document.lastGrid? name back).or (document.lastGrid? name front) := by
  induction front with
  | nil => simp [lastGrid?]
  | cons field front ih => rw [List.cons_append, lastGrid?, lastGrid?, ih, Option.or_assoc]

theorem lastGrid?_eq_none_iff (document : Document ν) (name : String)
    (fields : List (FieldSpec ν)) :
    document.lastGrid? name fields = none ↔
      ∀ field ∈ fields, name ∉ document.gridNames field.name := by
  induction fields with
  | nil => simp [lastGrid?]
  | cons field fields ih =>
      rw [lastGrid?, Option.or_eq_none_iff, ih, List.forall_mem_cons]
      by_cases named : name ∈ document.gridNames field.name
      · simp [named]
      · simp [named]

theorem grid_of_lastGrid? (document : Document ν) (name : String) (fields : List (FieldSpec ν))
    (grid : Grid.Quantizer ν) (found : document.lastGrid? name fields = some grid) :
    ∃ field ∈ fields, field.grid = grid := by
  induction fields with
  | nil => cases found
  | cons field fields ih =>
      rw [lastGrid?, Option.or_eq_some_iff] at found
      rcases found with later | ⟨_, own⟩
      · obtain ⟨other, member, same⟩ := ih later
        exact ⟨other, List.mem_cons_of_mem _ member, same⟩
      · split at own
        · exact ⟨field, List.mem_cons_self, Option.some.inj own⟩
        · cases own

theorem regrid?_eq_none_iff (document : Document ν) (action later : List (FieldSpec ν))
    (name : String) (fresh : ∀ other ∈ later, other.name ≠ name) :
    document.regrid? action later name = none ↔
      ((∃ selector ∈ document.selectors, selector.field = name) →
        ∃ field ∈ action, field.name = name) ∧
      ∀ other ∈ later, other.name ∈ document.symmetryAxes →
        ∀ letter ∈ ["X", "Y", "Z"], name ≠ other.name ++ letter := by
  have aside : document.choosesAside action name = true ↔
      ¬ ((∃ selector ∈ document.selectors, selector.field = name) →
        ∃ field ∈ action, field.name = name) := by
    simp only [choosesAside, List.any_eq_true, Bool.and_eq_true, decide_eq_true_eq,
      Bool.not_eq_true', List.any_eq_false]
    constructor
    · intro found given
      rcases found with ⟨selector, member, named, free⟩
      rcases given ⟨selector, member, named⟩ with ⟨field, declared, same⟩
      exact free field declared (same.trans named.symm)
    · intro refused
      rw [Classical.not_imp] at refused
      rcases refused with ⟨⟨selector, member, named⟩, none⟩
      refine ⟨selector, member, named, ?_⟩
      intro field declared same
      exact none ⟨field, declared, same.trans named⟩
  have parts : document.lastGrid? name later = none ↔
      ∀ other ∈ later, other.name ∈ document.symmetryAxes →
        ∀ letter ∈ ["X", "Y", "Z"], name ≠ other.name ++ letter := by
    rw [lastGrid?_eq_none_iff]
    apply forall₂_congr
    intro other member
    rw [mem_gridNames]
    have apart := fresh other member
    constructor
    · intro unnamed symmetric letter listed same
      exact unnamed (.inr ⟨symmetric, letter, listed, same⟩)
    · intro unnamed named
      rcases named with same | ⟨symmetric, letter, listed, same⟩
      · exact apart same.symm
      · exact unnamed symmetric letter listed same
  unfold regrid?
  split
  · rename_i chosen
    exact iff_of_false (by simp) fun both => aside.mp chosen both.1
  · rename_i free
    rw [parts]
    exact (and_iff_right (not_not.mp (mt aside.mpr free))).symm

theorem lookup_declared (document : Document ν) (declared : List (Declared ν)) (name : String)
    (made : declared = (declared.map (·.field)).map declare) :
    ((declared.flatMap fun item =>
      (document.gridNames item.field.name).map fun part => (part, item.quantizer)).reverse).lookup
        name = document.lastGrid? name (declared.map (·.field)) := by
  induction declared with
  | nil => rfl
  | cons item declared ih =>
      simp only [List.map_cons, List.cons.injEq] at made
      have grid : item.quantizer = item.field.grid := congrArg Declared.quantizer made.1
      rw [List.flatMap_cons, List.reverse_append, List.lookup_append, ih made.2, List.map_cons,
        lastGrid?, ← List.map_reverse, lookup_map_names, grid]
      simp only [List.mem_reverse]

theorem lookup_quantizers (document : Document ν) (outline : Outline ν) (name : String)
    (made : outline.state ++ outline.action =
      ((outline.state ++ outline.action).map (·.field)).map declare) :
    (document.quantizers outline).lookup name =
      (if document.choosesAside (outline.action.map (·.field)) name
        then some ⟨1.0, 0.0⟩ else none).or
      (document.lastGrid? name ((outline.state ++ outline.action).map (·.field))) := by
  rw [quantizers, List.reverse_append, List.lookup_append, lookup_declared document _ name made]
  congr 1
  have constant := lookup_map_names
    ((document.selectors.filter fun selector =>
      !outline.action.any (·.field.name = selector.field)).map (·.field)).reverse
    (fun _ => (⟨1.0, 0.0⟩ : Grid.Quantizer ν)) name
  rw [← List.map_reverse, List.map_map] at constant
  rw [← List.map_reverse]
  refine constant.trans ?_
  congr 1
  simp only [choosesAside, List.mem_map, List.mem_reverse, List.mem_filter, List.any_eq_true,
    Bool.and_eq_true, decide_eq_true_eq, List.any_map, Function.comp_def, eq_iff_iff]
  constructor
  · intro listed
    rcases listed with ⟨selector, ⟨member, free⟩, named⟩
    exact ⟨selector, member, named, free⟩
  · intro listed
    rcases listed with ⟨selector, member, named, free⟩
    exact ⟨selector, ⟨member, free⟩, named⟩

variable [Elementary ν]

theorem declares_made (document : Document ν) (isAction : Bool) (specs : List (FieldSpec ν))
    (declared : List (Declared ν)) (fields : document.Declares isAction specs declared) :
    declared = (declared.map (·.field)).map declare := by
  induction fields with
  | nil => rfl
  | cons head _ ih =>
      rw [List.map_cons, List.map_cons, ← ih, ← head.1]

omit [Elementary ν] in
theorem quantizer_of_lookup (definition : Definition ν) (name : String)
    (grid : Grid.Quantizer ν) (found : definition.quantizers.lookup name = some grid) :
    definition.quantizer name = grid := by
  rw [Definition.quantizer, found]

theorem quantizer_eq_getD (document : Document ν) (compiler after : Formula.Compiler ν)
    (denseCap : Nat) (definition : Definition ν)
    (accepted : document.finalize compiler denseCap = (.ok definition, after))
    (front later : List (FieldSpec ν)) (field : FieldSpec ν)
    (placed : definition.state ++ definition.action = front ++ field :: later) :
    definition.quantizer field.name =
      (document.regrid? definition.action later field.name).getD field.grid := by
  rcases finalize_eq_ok _ _ _ _ _ accepted with
    ⟨outline, _, _, outlined, _, rfl⟩
  have state := declares_made _ _ _ _ outlined.state
  have action := declares_made _ _ _ _ outlined.action
  have whole : outline.state ++ outline.action =
      ((outline.state ++ outline.action).map (·.field)).map declare := by
    rw [List.map_append, List.map_append, ← state, ← action]
  change outline.state.map (·.field) ++ outline.action.map (·.field) = _ at placed
  have own : field.name ∈ document.gridNames field.name :=
    (mem_gridNames document _ _).mpr (.inl rfl)
  have found := lookup_quantizers document outline field.name whole
  rw [List.map_append, placed, lastGrid?_append, lastGrid?, if_pos own] at found
  apply quantizer_of_lookup
  refine found.trans ?_
  change _ = some ((document.regrid? (outline.action.map (·.field)) later field.name).getD _)
  unfold regrid?
  split
  · rfl
  · cases document.lastGrid? field.name later with
    | none => rfl
    | some grid => rfl

theorem ranges_of_finalize (document : Document ν) (compiler after : Formula.Compiler ν)
    (denseCap : Nat) (definition : Definition ν)
    (accepted : document.finalize compiler denseCap = (.ok definition, after)) :
    definition.layout.ranges = (definition.state ++ definition.action).map (·.range) := by
  rcases finalize_eq_ok _ _ _ _ _ accepted with
    ⟨outline, _, _, outlined, _, rfl⟩
  rcases Grid.Layout.build_eq_ok _ _ _ _ outlined.layout with ⟨first, second, _⟩
  have ranges : ∀ declared : List (Declared ν), declared = (declared.map (·.field)).map declare →
      declared.map (·.range) = (declared.map (·.field)).map (·.range) := by
    intro declared made
    conv_lhs => rw [made]
    rw [List.map_map, List.map_map, List.map_map]
    rfl
  change outline.layout.state ++ outline.layout.action = _
  rw [first, second, ranges _ (declares_made _ _ _ _ outlined.state),
    ranges _ (declares_made _ _ _ _ outlined.action), ← List.map_append]
  rfl

/-- The buckets of every declared field are counted on its own grid, and the field is found under
that grid unless a later declaration sets another one under its name: a later symmetric field that
has it as a part along an axis, or a selector with the name of a state field. -/
theorem grids_of_declared (document : Document ν) (compiler after : Formula.Compiler ν)
    (denseCap : Nat) (definition : Definition ν)
    (accepted : document.finalize compiler denseCap = (.ok definition, after)) :
    definition.layout.ranges = (definition.state ++ definition.action).map (·.range) ∧
    ∀ front field later, definition.state ++ definition.action = front ++ field :: later →
      (definition.quantizer field.name = field.grid ↔
        ∀ grid, document.regrid? definition.action later field.name = some grid →
          grid = field.grid) ∧
      (∀ grid, document.regrid? definition.action later field.name = some grid →
        definition.quantizer field.name = grid) ∧
      (((∃ selector ∈ document.selectors, selector.field = field.name) →
          ∃ action ∈ definition.action, action.name = field.name) →
        (∀ other ∈ later, other.name ∈ document.symmetryAxes →
          ∀ letter ∈ ["X", "Y", "Z"], field.name ≠ other.name ++ letter) →
        definition.quantizer field.name = field.grid ∧
        ∃ range ∈ definition.layout.ranges, range.name = field.name ∧
          range.min = (definition.quantizer field.name).bucket field.min ∧
          range.max = (definition.quantizer field.name).bucket field.max) := by
  have ranges := ranges_of_finalize document compiler after denseCap definition accepted
  refine ⟨ranges, ?_⟩
  intro front field later placed
  have found := quantizer_eq_getD document compiler after denseCap definition accepted front later
    field placed
  have exactly : definition.quantizer field.name = field.grid ↔
      ∀ grid, document.regrid? definition.action later field.name = some grid →
        grid = field.grid := by
    rw [found]
    cases document.regrid? definition.action later field.name with
    | none => simp
    | some grid => simp
  refine ⟨exactly, ?_, ?_⟩
  · intro grid regridded
    rw [found, regridded]
    rfl
  · intro chosen parts
    have sound := sound_of_finalize document compiler after denseCap definition accepted
    have distinct := sound.distinct
    rw [placed, List.map_append, List.map_cons] at distinct
    have fresh : ∀ other ∈ later, other.name ≠ field.name := by
      intro other member same
      have apart := (List.nodup_cons.mp (List.nodup_append.mp distinct).2.1).1
      exact apart (same ▸ List.mem_map_of_mem member)
    have kept := (document.regrid?_eq_none_iff definition.action later field.name fresh).mpr
      ⟨chosen, parts⟩
    have own : definition.quantizer field.name = field.grid := by
      rw [found, kept]
      rfl
    refine ⟨own, field.range, ?_, rfl, ?_, ?_⟩
    · rw [ranges, placed]
      exact List.mem_map_of_mem (List.mem_append_right _ List.mem_cons_self)
    · rw [own]
      rfl
    · rw [own]
      rfl

def withPart (first second : FieldSpec Float) : Document Float :=
  { Document.blank with
    name := "parts"
    symmetryAxes := ["position"]
    state := [first, second] }

/-- Declared before the symmetric field, the part is found under a grid that is not its own;
declared after it, it is found under its own. -/
theorem grids_of_declared_part :
    let part : FieldSpec Float := ⟨"positionX", 0.0, 1.0, some 0.25⟩
    let whole : FieldSpec Float := ⟨"position", 0.0, 5.0, some 1.0⟩
    ∃ before after : Definition Float,
      (∃ compiler, (withPart part whole).finalize .standard 100 = (.ok before, compiler)) ∧
      (∃ compiler, (withPart whole part).finalize .standard 100 = (.ok after, compiler)) ∧
      before.quantizer "positionX" = whole.grid ∧ before.quantizer "positionX" ≠ part.grid ∧
      after.quantizer "positionX" = part.grid := by
  intro part whole
  have early : ((withPart part whole).finalize .standard 100).1.toOption.map
      (fun definition => (definition.state, definition.action)) = some ([part, whole], []) := by
    decide +kernel
  have late : ((withPart whole part).finalize .standard 100).1.toOption.map
      (fun definition => (definition.state, definition.action)) = some ([whole, part], []) := by
    decide +kernel
  rcases Option.map_eq_some_iff.mp early with ⟨before, first, fields⟩
  rcases Option.map_eq_some_iff.mp late with ⟨after, second, others⟩
  rcases Prod.mk.inj fields with ⟨state, action⟩
  rcases Prod.mk.inj others with ⟨otherState, otherAction⟩
  have firstOk : (withPart part whole).finalize .standard 100 =
      (.ok before, ((withPart part whole).finalize .standard 100).2) :=
    Prod.ext (eq_ok_of_toOption first) rfl
  have secondOk : (withPart whole part).finalize .standard 100 =
      (.ok after, ((withPart whole part).finalize .standard 100).2) :=
    Prod.ext (eq_ok_of_toOption second) rfl
  have earlier := (grids_of_declared _ _ _ _ _ firstOk).2 [] part [whole] (by simp [state, action])
  have later := (grids_of_declared _ _ _ _ _ secondOk).2 [whole] part []
    (by simp [otherState, otherAction])
  have regridded : (withPart part whole).regrid? before.action [whole] part.name =
      some whole.grid := by
    rw [action]
    decide +kernel
  have found := earlier.2.1 _ regridded
  have apart : whole.grid ≠ part.grid := by decide +kernel
  refine ⟨before, after, ⟨_, firstOk⟩, ⟨_, secondOk⟩, found, ?_, ?_⟩
  · exact found.trans_ne apart
  · have unchosen : ¬ ∃ selector ∈ (withPart whole part).selectors, selector.field = part.name := by
      simp [withPart, Document.blank]
    exact (later.2.2 (fun chosen => absurd chosen unchosen) (by simp)).1

end Document

end Problem

end Autoland
