import Autoland.Proofs.AttachedCopies
import Autoland.Proofs.RestoredEntries
import Autoland.Proofs.StoredTables

/-! Tables that are read from files. The file of each definition is visited, but the table goes to
the definition that is named in the file. A file at the place of another definition counts as an
attached table, and its values stay if no file that is visited later fits the same definition. -/

namespace Autoland

open Problem Table

theorem countP_eq_iff {α : Type} (first second : α → Bool) (items : List α)
    (implies : ∀ item ∈ items, first item = true → second item = true) :
    items.countP first = items.countP second ↔
      ∀ item ∈ items, second item = true → first item = true := by
  induction items with
  | nil => simp
  | cons item items ih =>
      rcases List.forall_mem_cons.mp implies with ⟨head, rest⟩
      have fewer := List.countP_mono_left rest
      rw [List.forall_mem_cons, ← ih rest, List.countP_cons, List.countP_cons]
      cases one : first item with
      | true => simp [head one]
      | false =>
          cases two : second item with
          | false => simp
          | true =>
              simp only [if_true, Bool.false_eq_true, if_false]
              exact iff_of_false (by omega) (by simp)

namespace Table

variable {φ : Type} [TableValue φ]

/-- The value that a table of a kind reads at an index when it has taken a copy: the last one that
is listed for the index, where a sparse table passes over zeros. -/
def Image.readAt (image : Image φ) (backing : Grid.Backing) (index : Nat) : φ :=
  ((image.valuesAt index).filter fun value =>
    decide (backing = .dense) || value != TableValue.zero).getLast?.getD TableValue.zero

namespace Cells

theorem clear_set (cells : Cells φ) (index : Nat) (value : φ) :
    (cells.set index value).clear = cells.clear := by
  cases cells with
  | dense values => simp only [set, clear, Array.size_setIfInBounds]
  | sparse shards => simp only [set, clear, Array.size_modify]

theorem clear_clear (cells : Cells φ) : cells.clear.clear = cells.clear := by
  cases cells with
  | dense values => simp only [clear, Array.size_replicate]
  | sparse shards => simp only [clear, Array.size_replicate]

theorem clear_load (cells : Cells φ) (pairs : List (Nat × φ)) :
    (cells.load pairs).clear = cells.clear :=
  load_keeps clear clear_clear clear_set cells pairs

/-- Nothing is left of a copy when another one is loaded. -/
theorem load_load (cells : Cells φ) (first second : List (Nat × φ)) :
    (cells.load first).load second = cells.load second := by
  have same : (cells.load first).loads = cells.loads := by
    funext value
    rw [loads_eq, loads_eq, backing_load]
  rw [load_eq (cells.load first), load_eq cells second, clear_load, same]

end Cells

def Image.fits (image : Image φ) (name : String) (size : Nat) : Bool :=
  (image.checkShape name size).isOk

omit [TableValue φ] in
theorem Image.fits_iff (image : Image φ) (name : String) (size : Nat) :
    image.fits name size = true ↔ image.checkShape name size = .ok () := by
  unfold fits
  cases image.checkShape name size with
  | error error => simp [Except.isOk, Except.toBool]
  | ok done => exact iff_of_true rfl rfl

omit [TableValue φ] in
theorem Image.owner_of_fits (image : Image φ) {name : String} {size : Nat}
    (fits : image.fits name size = true) : image.owner = name := by
  rw [image.fits_iff] at fits
  unfold Image.checkShape at fits
  dsimp only at fits
  split at fits
  · cases fits
  · split at fits
    · cases fits
    · rename_i owned
      exact not_not.mp owned

namespace Store

def fits (store : Store φ) (image : Image φ) : Bool := image.fits store.name store.size

theorem attach_eq_ok_iff (store : Store φ) (image : Image φ) :
    (store.attach image).1 = .ok () ↔ store.fits image = true := by
  rw [fits, image.fits_iff, attach]
  cases image.checkShape store.name store.size with
  | error error => rfl
  | ok done => rfl

theorem attach_of_fits (store : Store φ) (image : Image φ) (fits : store.fits image = true) :
    store.attach image = (.ok (), { store with cells := store.cells.load image.pairs }) := by
  rw [attach, (image.fits_iff _ _).mp fits]

theorem attach_of_not_fits (store : Store φ) (image : Image φ)
    (differs : ¬store.fits image = true) : (store.attach image).2 = store := by
  unfold attach
  split
  · rfl
  · rename_i passed
    exact absurd ((image.fits_iff _ _).mpr passed) differs

theorem fits_attach (store : Store φ) (image : Image φ) :
    (store.attach image).2.fits = store.fits := by
  funext other
  rcases store.attach_sameShape image with ⟨named, sized⟩
  rw [fits, fits, named, sized]

/-- A store that is offered copies one after the other is left with the last one that fits. -/
theorem foldl_attach (store : Store φ) (images : List (Image φ)) :
    images.foldl (fun store image => (store.attach image).2) store =
      (images.filter store.fits).getLast?.elim store fun image => (store.attach image).2 := by
  induction images generalizing store with
  | nil => rfl
  | cons image images ih =>
      rw [List.foldl_cons, ih, fits_attach]
      by_cases taken : store.fits image = true
      · rw [List.filter_cons_of_pos taken, List.getLast?_cons]
        cases later : (images.filter store.fits).getLast? with
        | none => rfl
        | some last =>
            -- The last copy clears the table, so the first one leaves nothing behind.
            have fits := (List.mem_filter.mp (List.mem_of_getLast? later)).2
            simp only [Option.elim_some, Option.getD_some]
            rw [attach_of_fits _ last (by rwa [fits_attach]), attach_of_fits _ last fits,
              attach_of_fits _ image taken, Cells.load_load]
      · rw [attach_of_not_fits store image taken, List.filter_cons_of_neg taken]

theorem Placed.attach_readAt {store : Store φ} (placed : store.Placed) (image : Image φ)
    (taken : store.fits image = true) (index : Nat) (below : index < store.size) :
    (store.attach image).2.get index = .ok (image.readAt store.backing index) := by
  rw [(placed.attach_reads image ((image.fits_iff _ _).mp taken)).2.2 index below,
    show store.cells.loads = _ from funext store.cells.loads_eq]
  rfl

end Store

end Table

def Problem.Definition.fits {ν φ : Type} (definition : Definition ν) (image : Image φ) : Bool :=
  image.fits definition.name definition.tableSize

namespace Engine

variable {ν : Type} (engine : Engine ν Float32)

def accepts (image : Image Float32) : Bool :=
  (engine.store image.owner).toOption.any fun store => store.fits image

theorem store_attachTable (image : Image Float32) (name : String) :
    (engine.attachTable image).2.store name =
      (engine.store name).map fun store => (store.attach image).2 := by
  have worked := engine.store_withStore image.owner (fun store => store.attach image)
    (fun store => (store.attach_sameShape image).1) name
  rw [attachTable, worked]
  cases held : engine.store name with
  | error error => rfl
  | ok store =>
      have named := (engine.name_of_store name store held).1
      simp only [Except.map]
      split_ifs with own
      · rfl
      · -- The store of another name refuses the copy by the name in its heading.
        rw [store.attach_of_not_fits image]
        intro taken
        have owned := image.owner_of_fits taken
        exact own (named.symm.trans owned.symm)

theorem attachTable_eq_ok_iff (image : Image Float32) :
    (engine.attachTable image).1 = .ok () ↔ engine.accepts image = true := by
  rw [attachTable, withStore_fst, accepts]
  cases engine.store image.owner with
  | error error => simp [Except.bind, Except.toOption]
  | ok store => exact store.attach_eq_ok_iff image

theorem accepts_attachTable (image : Image Float32) :
    (engine.attachTable image).2.accepts = engine.accepts := by
  funext other
  rw [accepts, accepts, store_attachTable]
  cases engine.store other.owner with
  | error error => rfl
  | ok store => exact congrFun (store.fits_attach image) other

section Built

variable [Scalar ν] [Elementary ν] (documents : List (Document ν)) (config : Config)
  (fresh : Engine ν Float32) (built : build documents config = .ok fresh)

include built

theorem store_of_build (definition : Definition ν) (member : definition ∈ fresh.definitions) :
    fresh.store definition.name =
      .ok (.ofLayout definition.name definition.layout config.shards) := by
  have sound := build_sound documents config fresh built
  rcases sound.store_eq_ok definition member with ⟨store, held, _⟩
  rcases fresh.name_of_store _ store held with ⟨named, listed⟩
  rw [(tables_of_build documents config fresh built).2] at listed
  rcases List.mem_map.mp listed with ⟨other, inside, rfl⟩
  rw [held, sound.eq_of_name other definition inside member named]

theorem accepts_iff (image : Image Float32) :
    fresh.accepts image = true ↔
      ∃ definition ∈ fresh.definitions, definition.fits image = true := by
  constructor
  · intro accepted
    unfold accepts at accepted
    cases held : fresh.store image.owner with
    | error error =>
        rw [held] at accepted
        cases accepted
    | ok store =>
        rw [held] at accepted
        rcases fresh.name_of_store _ store held with ⟨named, listed⟩
        rw [(tables_of_build documents config fresh built).2] at listed
        rcases List.mem_map.mp listed with ⟨definition, inside, rfl⟩
        exact ⟨definition, inside, accepted⟩
  · intro taken
    rcases taken with ⟨definition, member, fits⟩
    have store := store_of_build documents config fresh built definition member
    rw [accepts, image.owner_of_fits fits, store]
    exact fits

end Built

end Engine

namespace Replay

variable {ν : Type} (directory : String) (contents? : String → Option String)

def storedImage? (name : String) : Option (Image Float32) :=
  (contents? (tablePath directory name)).bind fun text => (Image.ofJson text).toOption

theorem attachText_of_ok (engine : Engine ν Float32) (text : String) (image : Image Float32)
    (read : Image.ofJson text = .ok image) :
    attachText engine text = (engine.accepts image, (engine.attachTable image).2) := by
  have accepted := engine.attachTable_eq_ok_iff image
  rw [attachText, read]
  dsimp only
  split
  · rename_i error after outcome
    rw [outcome] at accepted ⊢
    have refused : ¬engine.accepts image = true := by
      intro taken
      cases accepted.mpr taken
    rw [Bool.eq_false_iff.mpr refused]
  · rename_i after outcome
    rw [outcome] at accepted ⊢
    rw [accepted.mp rfl]

theorem attachEach_of_none (engine : Engine ν Float32) (first : String) (names : List String)
    (missing : storedImage? directory contents? first = none) :
    attachEach directory contents? (first :: names) engine =
      attachEach directory contents? names engine := by
  rw [attachEach]
  split
  · rfl
  · rename_i text file
    rw [storedImage?, file, Option.bind_some] at missing
    cases read : Image.ofJson text with
    | ok image =>
        rw [read] at missing
        cases missing
    | error error =>
        rw [attachText, read]
        rfl

theorem attachEach_of_some (engine : Engine ν Float32) (first : String) (names : List String)
    (image : Image Float32) (found : storedImage? directory contents? first = some image) :
    attachEach directory contents? (first :: names) engine =
      let later := attachEach directory contents? names (engine.attachTable image).2
      (later.1 + (engine.accepts image).toNat, later.2) := by
  rcases Option.bind_eq_some_iff.mp found with ⟨text, file, read⟩
  rw [attachEach, file]
  dsimp only
  rw [attachText_of_ok engine text image (eq_ok_of_toOption read)]
  cases engine.accepts image <;> rfl

theorem attachEach_eq (names : List String) (engine : Engine ν Float32) :
    (attachEach directory contents? names engine).1 =
        names.countP (fun name => (storedImage? directory contents? name).any engine.accepts) ∧
      ∀ name, (attachEach directory contents? names engine).2.store name =
        (engine.store name).map fun store =>
          (names.filterMap (storedImage? directory contents?)).foldl
            (fun store image => (store.attach image).2) store := by
  induction names generalizing engine with
  | nil =>
      refine ⟨rfl, ?_⟩
      intro name
      cases found : engine.store name with
      | error error => exact found
      | ok store => exact found
  | cons first names ih =>
      cases found : storedImage? directory contents? first with
      | none =>
          rw [attachEach_of_none _ _ engine first names found, List.filterMap_cons_none found,
            List.countP_cons_of_neg (by simp [found])]
          exact ih engine
      | some image =>
          rcases ih (engine.attachTable image).2 with ⟨counted, stores⟩
          rw [attachEach_of_some _ _ engine first names image found,
            List.filterMap_cons_some found, List.countP_cons, found]
          dsimp only
          refine ⟨?_, ?_⟩
          · rw [counted, Engine.accepts_attachTable, Option.any_some]
            cases engine.accepts image <;> rfl
          · intro name
            rw [stores, Engine.store_attachTable]
            cases engine.store name with
            | error error => rfl
            | ok store => rfl

/-- If no file of another definition fits a definition, the last file that fits it is its own. -/
theorem getLast?_fitting (fresh : Engine ν Float32) (definition : Definition ν)
    (member : definition ∈ fresh.definitions)
    (alone : ∀ place ∈ fresh.definitions, ∀ image ∈ storedImage? directory contents? place.name,
      definition.fits image = true → place = definition) :
    (((tableNames fresh).filterMap (storedImage? directory contents?)).filter
        definition.fits).getLast? =
      (storedImage? directory contents? definition.name).filter definition.fits := by
  let fitting := ((tableNames fresh).filterMap (storedImage? directory contents?)).filter
    definition.fits
  have own : ∀ image, image ∈ fitting ↔
      (storedImage? directory contents? definition.name).filter definition.fits = some image := by
    intro image
    rw [Option.filter_eq_some_iff, List.mem_filter, List.mem_filterMap]
    refine and_congr_left fun fits => ⟨?_, ?_⟩
    · intro listed
      rcases listed with ⟨_, named, found⟩
      rcases List.mem_map.mp named with ⟨place, inside, rfl⟩
      rw [← alone place inside image found fits, found]
    · exact fun found => ⟨definition.name, List.mem_map_of_mem member, found⟩
  cases last : fitting.getLast? with
  | some image => exact ((own image).mp (List.mem_of_getLast? last)).symm
  | none =>
      refine (Option.eq_none_iff_forall_ne_some.mpr fun image found => ?_).symm
      have listed := (own image).mpr found
      rw [List.getLast?_eq_none_iff.mp last] at listed
      cases listed

section Attached

variable [Scalar ν] [Elementary ν] (documents : List (Document ν)) (config : Config)
  (fresh : Engine ν Float32) (built : Engine.build documents config = .ok fresh)

include built

theorem entry_attachTables (definition : Definition ν) (member : definition ∈ fresh.definitions)
    (index : Nat) (below : index < definition.tableSize) :
    (attachTables directory contents? fresh).2.entry definition.name index =
      .ok ((((tableNames fresh).filterMap (storedImage? directory contents?)).filter
        definition.fits).getLast?.elim 0.0 fun image =>
          image.readAt definition.layout.backing index) := by
  have stores := (attachEach_eq directory contents? (tableNames fresh) fresh).2 definition.name
  let store : Store Float32 := .ofLayout definition.name definition.layout config.shards
  have fits : store.fits = definition.fits := rfl
  have placed : store.Placed := Cells.placed_zero ..
  have kind : store.backing = definition.layout.backing := Cells.backing_zero ..
  rw [Engine.store_of_build documents config fresh built definition member, Except.map,
    Store.foldl_attach, fits] at stores
  rw [Engine.entry, attachTables, stores]
  cases last : (((tableNames fresh).filterMap (storedImage? directory contents?)).filter
      definition.fits).getLast? with
  | none =>
      exact (store.get_eq_ok index below).trans (congrArg Except.ok (Cells.get_zero ..))
  | some image =>
      have taken := (List.mem_filter.mp (List.mem_of_getLast? last)).2
      rw [Option.elim_some, ← kind]
      exact placed.attach_readAt image taken index below

theorem count_attachTables :
    (attachTables directory contents? fresh).1 = fresh.definitions.countP fun place =>
      (storedImage? directory contents? place.name).any fun image =>
        fresh.definitions.any (·.fits image) := by
  refine (attachEach_eq directory contents? (tableNames fresh) fresh).1.trans ?_
  rw [tableNames, List.countP_map]
  refine List.countP_congr fun place _ => ?_
  have accepted : fresh.accepts = fun image => fresh.definitions.any (·.fits image) := by
    funext image
    rw [Bool.eq_iff_iff, Engine.accepts_iff documents config fresh built, List.any_eq_true]
  rw [Function.comp_apply, accepted]

end Attached

/-- After tables are attached to an engine that was just built, the table of each definition holds
the last copy, in the order of the definitions, of all files that fits it; and each file counts that
fits any definition. So the count is that of the definitions whose own file fits exactly if no file
fits another definition than that of its place; and the table of a definition that no other file
fits holds what its own file holds if that fits, and is all zero otherwise. -/
theorem attachTables_own_iff [Scalar ν] [Elementary ν] (documents : List (Document ν))
    (config : Config) (fresh : Engine ν Float32)
    (built : Engine.build documents config = .ok fresh) :
    let attached := attachTables directory contents? fresh
    let file? := storedImage? directory contents?
    let content := fun (definition : Definition ν) (copy? : Option (Image Float32)) (index : Nat) =>
      copy?.elim 0.0 fun image => image.readAt definition.layout.backing index
    (∀ definition ∈ fresh.definitions, ∀ index < definition.tableSize,
        attached.2.entry definition.name index = .ok (content definition
          (((tableNames fresh).filterMap file?).filter definition.fits).getLast? index)) ∧
      attached.1 = fresh.definitions.countP (fun place =>
        (file? place.name).any fun image => fresh.definitions.any (·.fits image)) ∧
      (∀ definition ∈ fresh.definitions,
        (∀ place ∈ fresh.definitions, ∀ image ∈ file? place.name,
          definition.fits image = true → place = definition) →
        ∀ index < definition.tableSize, attached.2.entry definition.name index =
          .ok (content definition ((file? definition.name).filter definition.fits) index)) ∧
      (attached.1 = fresh.definitions.countP (fun definition =>
          (file? definition.name).any definition.fits) ↔
        ∀ place ∈ fresh.definitions, ∀ image ∈ file? place.name, ∀ definition ∈ fresh.definitions,
          definition.fits image = true → place = definition) := by
  intro attached file? content
  have sound := Engine.build_sound documents config fresh built
  have counted : attached.1 = fresh.definitions.countP fun place =>
      (file? place.name).any fun image => fresh.definitions.any (·.fits image) :=
    count_attachTables directory contents? documents config fresh built
  refine ⟨entry_attachTables directory contents? documents config fresh built, counted, ?_, ?_⟩
  · intro definition member alone index below
    rw [← getLast?_fitting directory contents? fresh definition member alone]
    exact entry_attachTables directory contents? documents config fresh built definition member
      index below
  · rw [counted, eq_comm, countP_eq_iff]
    · refine forall₂_congr fun place inside => ?_
      cases found : file? place.name with
      | none => simp
      | some image =>
          simp only [Option.any_some, List.any_eq_true, Option.mem_some_iff, forall_eq']
          constructor
          · intro own definition member fits
            have named := (image.owner_of_fits (own ⟨definition, member, fits⟩)).symm
            exact sound.eq_of_name place definition inside member
              (named.trans (image.owner_of_fits fits))
          · intro own accepted
            rcases accepted with ⟨definition, member, fits⟩
            rwa [own definition member fits]
    · intro place inside own
      rcases (Option.any_eq_true _ _).mp own with ⟨image, found, fits⟩
      rw [found, Option.any_some, List.any_eq_true]
      exact ⟨place, inside, fits⟩

def twoTables : List (Document Float) :=
  let altitude : Document Float :=
    { Document.blank with state := [⟨"positionZ", 0.0, 1.0, some 1.0⟩] }
  [{ altitude with
      name := "first"
      selectors := [⟨"next", ["second"], []⟩] },
    { altitude with name := "second", priority := 1 }]

/-- The file of the second definition holds a table of the first one. Both files count, and the
first definition has the values of the other file in place of its own. -/
theorem attachTables_own_iff_borrowed_place :
    let image : List Float32 → Image Float32 := fun values =>
      ⟨formatVersion, "first", 2, .dense, .epoch, .dense values⟩
    let contents? : String → Option String := fun path =>
      if path = tablePath "tables" "first" then some (image [1.0, 2.0]).toJson
      else if path = tablePath "tables" "second" then some (image [3.0, 4.0]).toJson
      else none
    ∃ fresh : Engine Float Float32, Engine.build twoTables .standard = .ok fresh ∧
      let attached := attachTables "tables" contents? fresh
      storedImage? "tables" contents? "first" = some (image [1.0, 2.0]) ∧
        storedImage? "tables" contents? "second" = some (image [3.0, 4.0]) ∧
        attached.1 = 2 ∧
        fresh.definitions.countP (fun definition =>
          (storedImage? "tables" contents? definition.name).any definition.fits) ≠ 2 ∧
        attached.2.entry "first" 0 = .ok 3.0 ∧ attached.2.entry "second" 0 = .ok 0.0 := by
  intro image contents?
  have facts : (Engine.build twoTables .standard).toOption.any
      (fun fresh : Engine Float Float32 =>
        decide (fresh.definitions.map (fun definition =>
          (definition.name, definition.tableSize, definition.layout.backing)) =
            [("first", 2, .dense), ("second", 2, .dense)])) = true := by
    decide +kernel
  rcases (Option.any_eq_true _ _).mp facts with ⟨fresh, made, checked⟩
  have built := eq_ok_of_toOption made
  have files : ["first", "second"].map (storedImage? "tables" contents?) =
      [some (image [1.0, 2.0]), some (image [3.0, 4.0])] := by
    decide +kernel
  simp only [List.map_cons, List.map_nil, List.cons.injEq, and_true] at files
  rcases files with ⟨own, other⟩
  have shape := of_decide_eq_true checked
  rcases List.map_eq_cons_iff.mp shape with ⟨one, rest, listed, first, shape⟩
  rcases List.map_eq_cons_iff.mp shape with ⟨two, rest, rfl, second, shape⟩
  rw [List.map_eq_nil_iff.mp shape] at listed
  simp only [Prod.mk.injEq] at first second
  rcases first with ⟨oneNamed, oneSized, oneKind⟩
  rcases second with ⟨twoNamed, twoSized, twoKind⟩
  have fitsOne : ∀ values : List Float32, values.length = 2 → one.fits (image values) = true := by
    intro values sized
    rw [Definition.fits, oneNamed, oneSized, Image.fits_iff]
    simp [image, Image.checkShape, sized]
  have fitsTwo : ∀ values : List Float32, two.fits (image values) = false := by
    intro values
    rw [Definition.fits, twoNamed, twoSized]
    rfl
  rcases attachTables_own_iff "tables" contents? twoTables .standard fresh built with
    ⟨entries, counted, _, _⟩
  have member : one ∈ fresh.definitions := by simp [listed]
  have inside : two ∈ fresh.definitions := by simp [listed]
  refine ⟨fresh, built, own, other, ?_, ?_, ?_, ?_⟩
  · rw [counted, listed]
    simp [oneNamed, twoNamed, own, other, fitsOne]
  · rw [listed]
    simp [oneNamed, twoNamed, own, other, fitsOne, fitsTwo]
  · have read := entries one member 0 (by rw [oneSized]; decide)
    rw [oneNamed] at read
    have last : (image [3.0, 4.0]).readAt .dense 0 = 3.0 := by decide +kernel
    rw [read, tableNames, listed]
    simp [oneNamed, twoNamed, own, other, fitsOne, oneKind, last]
  · have read := entries two inside 0 (by rw [twoSized]; decide)
    rw [twoNamed] at read
    rw [read, tableNames, listed]
    simp [oneNamed, twoNamed, own, other, fitsTwo]

end Replay

end Autoland
