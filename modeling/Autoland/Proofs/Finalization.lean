import Autoland.Problem.Finalize
import Autoland.Proofs.Results
import Autoland.Proofs.TableIndex

/-! What finalizing a document ensures of the definition it makes. -/

namespace Autoland

namespace Problem

variable {ν : Type}

theorem idOf?_of_mem (names : List String) (name : String) (member : name ∈ names) :
    ∃ id, idOf? names name = some id := by
  unfold idOf?
  cases found : names.findIdx? (· = name) with
  | none =>
      have absent := List.findIdx?_eq_none_iff.mp found name member
      simp at absent
  | some position => exact ⟨position, rfl⟩

theorem idOf?_bounds (names : List String) (name : String) (id : Int)
    (found : idOf? names name = some id) : 0 ≤ id ∧ id < names.length := by
  unfold idOf? at found
  cases first : names.findIdx? (· = name) with
  | none =>
      rw [first] at found
      cases found
  | some position =>
      rw [first] at found
      cases found
      rcases List.findIdx?_eq_some_iff_getElem.mp first with ⟨below, _⟩
      exact ⟨Int.natCast_nonneg position, Int.ofNat_lt.mpr below⟩

theorem getElem?_of_idOf? (names : List String) (name : String) (id : Int)
    (found : idOf? names name = some id) : names[id.toNat]? = some name := by
  unfold idOf? at found
  cases first : names.findIdx? (· = name) with
  | none =>
      rw [first] at found
      cases found
  | some position =>
      rw [first] at found
      cases found
      rcases List.findIdx?_eq_some_iff_getElem.mp first with ⟨below, same, _⟩
      rw [Int.toNat_natCast, List.getElem?_eq_getElem below, of_decide_eq_true same]

section Once

variable {α : Type} [DecidableEq α]

theorem mem_keepFirst (items kept : List α) (item : α) :
    item ∈ items.foldl (fun kept next => if next ∈ kept then kept else kept ++ [next]) kept ↔
      item ∈ kept ∨ item ∈ items := by
  induction items generalizing kept with
  | nil => simp
  | cons next items ih =>
      rw [List.foldl_cons, ih, List.mem_cons]
      split
      · rename_i present
        constructor
        · intro either
          rcases either with inside | inside
          · exact .inl inside
          · exact .inr (.inr inside)
        · intro either
          rcases either with inside | rfl | inside
          · exact .inl inside
          · exact .inl present
          · exact .inr inside
      · rw [List.mem_append, List.mem_singleton, or_assoc]

theorem nodup_keepFirst (items kept : List α) (distinct : kept.Nodup) :
    (items.foldl (fun kept next => if next ∈ kept then kept else kept ++ [next]) kept).Nodup := by
  induction items generalizing kept with
  | nil => exact distinct
  | cons next items ih =>
      rw [List.foldl_cons]
      split
      · exact ih kept distinct
      · rename_i fresh
        refine ih _ (List.nodup_append.mpr ⟨distinct, List.nodup_singleton next, ?_⟩)
        intro item held other single same
        rw [same, List.mem_singleton.mp single] at held
        exact fresh held

end Once

theorem mem_childNames (document : Document ν) (name : String) :
    name ∈ document.childNames ↔ ∃ selector ∈ document.selectors, name ∈ selector.options := by
  rw [Document.childNames, mem_keepFirst, List.mem_flatMap]
  simp

theorem mem_optionIds (names options : List String) (id : Int) :
    id ∈ Document.optionIds names options ↔ ∃ option ∈ options, idOf? names option = some id := by
  rw [Document.optionIds, mem_keepFirst, List.mem_filterMap]
  simp

theorem nodup_optionIds (names options : List String) :
    (Document.optionIds names options).Nodup :=
  nodup_keepFirst _ [] List.nodup_nil

variable [Scalar ν]

/-- What finalizing ensures: an accepted layout of distinct declared fields, and selectors that
offer children by their ids. A declared selector runs over the ids of its options. -/
structure Definition.Sound (definition : Definition ν) : Prop where
  layout : definition.layout.Accepted
  stateNames : definition.layout.state.map (·.name) = definition.state.map (·.name)
  actionNames : definition.layout.action.map (·.name) = definition.action.map (·.name)
  distinct : ((definition.state ++ definition.action).map (·.name)).Nodup
  offered : ∀ selector ∈ definition.selectors, selector.options ≠ [] ∧
    (∀ option ∈ selector.options, option ∈ definition.childNames) ∧
    selector.ids = Document.optionIds definition.childNames selector.options
  indexed : ∀ selector ∈ definition.selectors,
    selector.indexed = definition.isActionField selector.field
  choices : ∀ range ∈ definition.layout.action, ∀ selector,
    definition.selector? range.name = some selector → ∃ least most,
      (selector.options.filterMap (idOf? definition.childNames)).min? = some least ∧
      (selector.options.filterMap (idOf? definition.childNames)).max? = some most ∧
      range = (Document.declare ⟨selector.field, (Scalar.ofInt least : ν), Scalar.ofInt most,
        some 1.0⟩).range

namespace Document

theorem declare_field (field : FieldSpec ν) : (declare field).field = field := rfl

theorem declare_range_name (field : FieldSpec ν) : (declare field).range.name = field.name := rfl

theorem selectorField_eq_ok (names : List String) (selector : SelectorSpec) (field : FieldSpec ν)
    (accepted : selectorField names selector = .ok field) :
    ∃ least most, (selector.options.filterMap (idOf? names)).min? = some least ∧
      (selector.options.filterMap (idOf? names)).max? = some most ∧
      field = ⟨selector.field, Scalar.ofInt least, Scalar.ofInt most, some 1.0⟩ := by
  simp only [selectorField] at accepted
  split at accepted
  · rename_i least most first second
    exact ⟨least, most, first, second, (Except.ok.inj accepted).symm⟩
  · cases accepted

variable [Elementary ν]

theorem checkField_name (spec field : FieldSpec ν) (accepted : checkField spec = .ok field) :
    field.name = spec.name := by
  unfold checkField at accepted
  split at accepted
  · cases accepted
  · split at accepted
    · cases accepted
    · split at accepted
      · cases accepted
      · split at accepted
        · cases accepted
          rfl
        · cases accepted
          rfl

def declaredField (document : Document ν) (isAction : Bool) (spec : FieldSpec ν) :
    Except DocumentFault (FieldSpec ν) :=
  match document.selectors.find? (·.field = spec.name) with
  | some selector =>
    if isAction then selectorField document.childNames selector else checkField spec
  | none => checkField spec

theorem declareAll_cons (document : Document ν) (isAction : Bool) (seen : List String)
    (spec : FieldSpec ν) (specs : List (FieldSpec ν)) (fresh : spec.name ∉ seen) :
    document.declareAll isAction seen (spec :: specs) =
      document.declaredField isAction spec >>= fun field =>
        document.declareAll isAction (spec.name :: seen) specs >>= fun rest =>
          .ok (declare field :: rest) := by
  rw [declareAll, if_neg fresh, declaredField]
  cases document.selectors.find? (·.field = spec.name) with
  | none => rfl
  | some selector =>
      cases isAction with
      | false => rfl
      | true => rfl

theorem declaredField_name (document : Document ν) (isAction : Bool) (spec field : FieldSpec ν)
    (accepted : document.declaredField isAction spec = .ok field) : field.name = spec.name := by
  unfold declaredField at accepted
  split at accepted
  · rename_i selector found
    split at accepted
    · rcases selectorField_eq_ok _ _ _ accepted with ⟨_, _, _, _, rfl⟩
      simpa using List.find?_some found
    · exact checkField_name _ _ accepted
  · exact checkField_name _ _ accepted

abbrev Declares (document : Document ν) (isAction : Bool) :
    List (FieldSpec ν) → List (Declared ν) → Prop :=
  List.Forall₂ fun spec declared => declared = declare declared.field ∧
    document.declaredField isAction spec = .ok declared.field

theorem declareAll_eq_ok (document : Document ν) (isAction : Bool) (seen : List String)
    (specs : List (FieldSpec ν)) (declared : List (Declared ν))
    (accepted : document.declareAll isAction seen specs = .ok declared) :
    (∀ spec ∈ specs, spec.name ∉ seen) ∧ (specs.map (·.name)).Nodup ∧
      document.Declares isAction specs declared := by
  induction specs generalizing seen declared with
  | nil =>
      cases accepted
      exact ⟨by simp, List.nodup_nil, .nil⟩
  | cons spec specs ih =>
      by_cases fresh : spec.name ∈ seen
      · rw [declareAll, if_pos fresh] at accepted
        cases accepted
      · rw [declareAll_cons _ _ _ _ _ fresh] at accepted
        rcases bind_eq_ok.mp accepted with ⟨field, made, accepted⟩
        rcases bind_eq_ok.mp accepted with ⟨rest, tail, accepted⟩
        cases accepted
        rcases ih _ _ tail with ⟨unseen, distinct, fields⟩
        refine ⟨?_, ?_, .cons ⟨rfl, made⟩ fields⟩
        · intro next member
          rcases List.mem_cons.mp member with rfl | member
          · exact fresh
          · exact fun present => unseen next member (List.mem_cons_of_mem _ present)
        · rw [List.map_cons, List.nodup_cons]
          refine ⟨?_, distinct⟩
          intro present
          rcases List.mem_map.mp present with ⟨next, member, same⟩
          exact unseen next member (same ▸ List.mem_cons_self)

theorem names_of_declares (document : Document ν) (isAction : Bool) (specs : List (FieldSpec ν))
    (declared : List (Declared ν)) (fields : document.Declares isAction specs declared) :
    (declared.map (·.field)).map (·.name) = specs.map (·.name) ∧
      (declared.map (·.range)).map (·.name) = specs.map (·.name) := by
  induction fields with
  | nil => exact ⟨rfl, rfl⟩
  | cons head _ ih =>
      have name := declaredField_name _ _ _ _ head.2
      simp only [List.map_cons]
      rw [ih.1, ih.2, head.1, declare_field, declare_range_name, name]
      exact ⟨rfl, rfl⟩

theorem fields_eq_ok (document : Document ν) (fields : Declarations ν)
    (accepted : document.fields = .ok fields) :
    document.params.validate = .ok () ∧ fields.childNames = document.childNames ∧
      document.Declares false document.state fields.state ∧
      document.Declares true document.action fields.action ∧
      ((document.state ++ document.action).map (·.name)).Nodup := by
  unfold Document.fields at accepted
  rcases bind_eq_ok.mp accepted with ⟨_, params, accepted⟩
  rcases bind_eq_ok.mp accepted with ⟨state, first, accepted⟩
  rcases bind_eq_ok.mp accepted with ⟨action, second, accepted⟩
  cases accepted
  rcases declareAll_eq_ok _ _ _ _ _ first with ⟨_, front, stateFields⟩
  rcases declareAll_eq_ok _ _ _ _ _ second with ⟨unseen, back, actionFields⟩
  refine ⟨params, rfl, stateFields, actionFields, ?_⟩
  rw [List.map_append, List.nodup_append]
  refine ⟨front, back, ?_⟩
  intro name inside other member same
  rcases List.mem_map.mp member with ⟨spec, declared, named⟩
  rw [same, ← named] at inside
  exact unseen spec declared (List.mem_reverse.mpr inside)

theorem outline_eq_ok (document : Document ν) (fields : Declarations ν) (denseCap : Nat)
    (outline : Outline ν) (accepted : document.outline fields denseCap = .ok outline) :
    outline.toDeclarations = fields ∧ document.success.mapM checkSuccess = .ok outline.success ∧
      Grid.Layout.build (fields.state.map (·.range)) (fields.action.map (·.range)) denseCap =
        .ok outline.layout := by
  unfold Document.outline at accepted
  rcases bind_eq_ok.mp accepted with ⟨success, bounds, accepted⟩
  split at accepted
  · cases accepted
  · rename_i layout built
    cases accepted
    exact ⟨rfl, bounds, built⟩

def Compiles (fields : Declarations ν) (spec : SelectorSpec) (selector : Selector ν) : Prop :=
  ∃ rules, selector = selectorOf fields spec rules

theorem compileSelectors_eq_ok (fields : Declarations ν) (specs : List SelectorSpec)
    (compiler : Formula.Compiler ν) (selectors : List (Selector ν))
    (accepted : (compileSelectors fields specs compiler).1 = .ok selectors) :
    (∀ spec ∈ specs, spec.options ≠ []) ∧ List.Forall₂ (Compiles fields) specs selectors := by
  induction specs generalizing compiler selectors with
  | nil =>
      cases accepted
      exact ⟨List.forall_mem_nil _, .nil⟩
  | cons spec specs ih =>
      rw [compileSelectors] at accepted
      split at accepted
      · cases accepted
      · rename_i filled
        split at accepted
        split at accepted
        · cases accepted
        · rename_i rest after compiled
          cases accepted
          rcases ih _ rest (congrArg Prod.fst compiled) with ⟨options, others⟩
          refine ⟨List.forall_mem_cons.mpr ⟨?_, options⟩, .cons ⟨_, rfl⟩ others⟩
          simpa using filled

structure Outlined (document : Document ν) (denseCap : Nat) (outline : Outline ν) : Prop where
  params : document.params.validate = .ok ()
  childNames : outline.childNames = document.childNames
  state : document.Declares false document.state outline.state
  action : document.Declares true document.action outline.action
  distinct : ((document.state ++ document.action).map (·.name)).Nodup
  options : ∀ selector ∈ document.selectors, selector.options ≠ []
  success : document.success.mapM checkSuccess = .ok outline.success
  layout : Grid.Layout.build (outline.state.map (·.range)) (outline.action.map (·.range)) denseCap =
    .ok outline.layout

theorem assemble_fst (document : Document ν) (compiler : Formula.Compiler ν) (denseCap : Nat) :
    (document.assemble compiler denseCap).1 = (do
      let fields ← document.fields
      let selectors ← (compileSelectors fields document.selectors compiler).1
      let outline ← document.outline fields denseCap
      return document.define outline selectors
        (document.compileFormulas (compileSelectors fields document.selectors compiler).2).1) := by
  unfold assemble
  cases document.fields with
  | error fault => rfl
  | ok fields =>
      dsimp only [bind, Except.bind]
      rcases compileSelectors fields document.selectors compiler with ⟨fault | selectors, after⟩
      · rfl
      · dsimp only
        rcases document.compileFormulas after with ⟨compiled, _⟩
        dsimp only
        cases document.outline fields denseCap <;> rfl

theorem finalize_fst (document : Document ν) (compiler : Formula.Compiler ν) (denseCap : Nat) :
    (document.finalize compiler denseCap).1 =
      if (Text.trim document.name.toList).isEmpty then .error (.definition .noName)
      else (document.assemble compiler denseCap).1.mapError fun fault =>
        .definition (.document document.name fault) := by
  unfold finalize
  split
  · rfl
  · rcases document.assemble compiler denseCap with ⟨_ | _, _⟩ <;> rfl

theorem finalize_eq_ok (document : Document ν) (compiler after : Formula.Compiler ν)
    (denseCap : Nat) (definition : Definition ν)
    (accepted : document.finalize compiler denseCap = (.ok definition, after)) :
    ∃ outline selectors compiled, document.Outlined denseCap outline ∧
      List.Forall₂ (Compiles outline.toDeclarations) document.selectors selectors ∧
      document.define outline selectors compiled = definition := by
  have made := congrArg Prod.fst accepted
  rw [finalize_fst, assemble_fst] at made
  split at made
  · cases made
  · obtain ⟨fields, checked, made⟩ := bind_eq_ok.mp (mapError_eq_ok.mp made)
    obtain ⟨selectors, compiled, made⟩ := bind_eq_ok.mp made
    obtain ⟨outline, outlined, made⟩ := bind_eq_ok.mp made
    obtain ⟨rfl, success, layout⟩ := outline_eq_ok _ _ _ _ outlined
    obtain ⟨params, names, state, action, distinct⟩ := fields_eq_ok _ _ checked
    obtain ⟨options, compiles⟩ := compileSelectors_eq_ok _ _ _ _ compiled
    exact ⟨outline, selectors, _,
      ⟨params, names, state, action, distinct, options, success, layout⟩, compiles,
      Except.ok.inj made⟩

omit [Scalar ν] [Elementary ν] in
theorem find?_compiles (fields : Declarations ν) (specs : List SelectorSpec)
    (selectors : List (Selector ν)) (compiles : List.Forall₂ (Compiles fields) specs selectors)
    (name : String) (selector : Selector ν)
    (found : selectors.find? (·.field = name) = some selector) :
    ∃ spec, specs.find? (·.field = name) = some spec ∧ Compiles fields spec selector := by
  induction compiles with
  | nil => cases found
  | @cons spec head specs selectors relates _ ih =>
      obtain ⟨rules, rfl⟩ := relates
      have named : (selectorOf fields spec rules).field = spec.field := rfl
      rw [List.find?_cons] at found ⊢
      rw [named] at found
      by_cases same : spec.field = name
      · rw [decide_eq_true same] at found ⊢
        cases found
        exact ⟨spec, rfl, rules, rfl⟩
      · rw [decide_eq_false same] at found ⊢
        exact ih found

theorem choices_of_outlined (document : Document ν) (denseCap : Nat) (outline : Outline ν)
    (outlined : document.Outlined denseCap outline) (selectors : List (Selector ν))
    (compiles : List.Forall₂ (Compiles outline.toDeclarations) document.selectors selectors)
    (range : Grid.FieldRange) (member : range ∈ outline.action.map (·.range))
    (selector : Selector ν) (found : selectors.find? (·.field = range.name) = some selector) :
    ∃ least most,
      (selector.options.filterMap (idOf? outline.childNames)).min? = some least ∧
      (selector.options.filterMap (idOf? outline.childNames)).max? = some most ∧
      range = (declare ⟨selector.field, (Scalar.ofInt least : ν), Scalar.ofInt most,
        some 1.0⟩).range := by
  rcases List.mem_map.mp member with ⟨declared, inside, rfl⟩
  rcases exists_of_mem_right outlined.action declared inside with ⟨spec, _, made, accepted⟩
  rcases find?_compiles _ _ _ compiles _ _ found with ⟨choice, chosen, rules, rfl⟩
  have name := declaredField_name _ _ _ _ accepted
  rw [made, declare_range_name, name] at chosen
  rw [declaredField, chosen] at accepted
  rcases selectorField_eq_ok _ _ _ accepted with ⟨least, most, first, second, field⟩
  refine ⟨least, most, ?_, ?_, ?_⟩
  · rwa [outlined.childNames]
  · rwa [outlined.childNames]
  · rw [made, field]
    rfl

theorem sound_of_finalize (document : Document ν) (compiler after : Formula.Compiler ν)
    (denseCap : Nat) (definition : Definition ν)
    (accepted : document.finalize compiler denseCap = (.ok definition, after)) :
    definition.Sound := by
  rcases finalize_eq_ok _ _ _ _ _ accepted with
    ⟨outline, selectors, compiled, outlined, compiles, rfl⟩
  rcases Grid.Layout.build_eq_ok _ _ _ _ outlined.layout with ⟨first, second, layout⟩
  rcases names_of_declares _ _ _ _ outlined.state with ⟨stateFields, stateRanges⟩
  rcases names_of_declares _ _ _ _ outlined.action with ⟨actionFields, actionRanges⟩
  refine ⟨layout, ?_, ?_, ?_, ?_, ?_, ?_⟩
  · exact (congrArg _ first).trans (stateRanges.trans stateFields.symm)
  · exact (congrArg _ second).trans (actionRanges.trans actionFields.symm)
  · have names : ((outline.state.map (·.field) ++ outline.action.map (·.field)).map (·.name)) =
        (document.state ++ document.action).map (·.name) := by
      rw [List.map_append, List.map_append, stateFields, actionFields]
    exact names ▸ outlined.distinct
  · intro selector member
    rcases exists_of_mem_right compiles _ member with ⟨spec, inside, rules, rfl⟩
    refine ⟨outlined.options spec inside, ?_, rfl⟩
    intro option offered
    have known := (mem_childNames document option).mpr ⟨spec, inside, offered⟩
    rwa [← outlined.childNames] at known
  · intro selector member
    rcases exists_of_mem_right compiles _ member with ⟨spec, _, rules, rfl⟩
    change _ = (outline.action.map (·.field)).any (·.name = spec.field)
    rw [List.any_map]
    rfl
  · intro range member selector found
    have declared : range ∈ outline.action.map (·.range) := second ▸ member
    exact choices_of_outlined _ _ _ outlined _ compiles range declared selector found

theorem forall_fields_of_finalize (document : Document ν) (compiler after : Formula.Compiler ν)
    (denseCap : Nat) (definition : Definition ν)
    (accepted : document.finalize compiler denseCap = (.ok definition, after))
    (property : FieldSpec ν → Prop)
    (checked : ∀ spec field, checkField spec = .ok field → property field)
    (chosen : ∀ names selector field, selectorField names selector = .ok field → property field) :
    ∀ field ∈ definition.state ++ definition.action, property field := by
  obtain ⟨outline, selectors, compiled, outlined, _, rfl⟩ := finalize_eq_ok _ _ _ _ _ accepted
  have fine : ∀ isAction specs declared, document.Declares isAction specs declared →
      ∀ field ∈ declared.map (·.field), property field := by
    intro isAction specs declared fields field member
    obtain ⟨item, inside, rfl⟩ := List.mem_map.mp member
    obtain ⟨spec, _, _, made⟩ := exists_of_mem_right fields item inside
    unfold declaredField at made
    split at made
    · split at made
      · exact chosen _ _ _ made
      · exact checked _ _ made
    · exact checked _ _ made
  intro field member
  rcases List.mem_append.mp member with inside | inside
  · exact fine _ _ _ outlined.state field inside
  · exact fine _ _ _ outlined.action field inside

omit [Scalar ν] [Elementary ν] in
theorem fields_of_compiles (fields : Declarations ν) (specs : List SelectorSpec)
    (selectors : List (Selector ν)) (compiles : List.Forall₂ (Compiles fields) specs selectors) :
    selectors.map (·.field) = specs.map (·.field) := by
  induction compiles with
  | nil => rfl
  | cons relates _ ih =>
      obtain ⟨rules, rfl⟩ := relates
      rw [List.map_cons, List.map_cons, ih]
      rfl

theorem selectorFields_of_finalize (document : Document ν) (compiler after : Formula.Compiler ν)
    (denseCap : Nat) (definition : Definition ν)
    (accepted : document.finalize compiler denseCap = (.ok definition, after)) :
    definition.selectors.map (·.field) = document.selectors.map (·.field) := by
  rcases finalize_eq_ok _ _ _ _ _ accepted with ⟨_, _, _, _, compiles, rfl⟩
  exact fields_of_compiles _ _ _ compiles

end Document

end Problem

end Autoland
