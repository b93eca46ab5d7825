import Autoland.Proofs.EngineEntries
import Autoland.Proofs.EngineLearning
import Autoland.Proofs.StoredImages
import Autoland.Replay.Tables

/-! What a restart brings back. The tables of an engine are written to files, and a new engine of
the same definitions attaches what it finds in them. -/

namespace Autoland

open Problem Table

namespace Engine

variable {ν φ : Type}

def isFinite (engine : Engine ν Float32) (name : String) : Bool :=
  (engine.store name).toOption.any fun store =>
    (List.range store.size).all fun index => (store.cells.get index).isFinite

theorem isFinite_of_store (engine : Engine ν Float32) (name : String) (store : Store Float32)
    (held : engine.store name = .ok store) (placed : store.Placed) :
    engine.isFinite name = store.cells.entries.isFinite := by
  rw [isFinite, held, Bool.eq_iff_iff, Entries.isFinite_iff]
  simp only [Except.toOption, Option.any_some, List.all_eq_true, List.mem_range]
  constructor
  · intro finite pair member
    have below := Cells.below_pairs placed pair member
    have kept := (Cells.mem_pairs placed pair.1 pair.2).mp member
    have read := finite pair.1 below
    rw [Cells.get_eq_kept?, kept] at read
    exact read
  · intro finite index below
    rw [Cells.get_eq_kept?]
    cases kept : store.cells.kept? index with
    | none => rfl
    | some value => exact finite (index, value) ((Cells.mem_pairs placed index value).mpr kept)

end Engine

namespace Replay

def contentsAfter {κ : Type} [DecidableEq κ] (place : String → κ) (before : κ → Option String)
    (files : List (String × String)) (path : String) : Option String :=
  match files.reverse.find? fun file => place file.1 = place path with
  | some file => some file.2
  | none => before (place path)

section Keeper

variable {κ : Type} [DecidableEq κ] (place : String → κ) (directory : String) (names : List String)

/-- The definition whose table is at the place of a definition's table after all were written: the
last one that is stored there. -/
def keeper (name : String) : String :=
  (names.reverse.find? fun other =>
    place (tablePath directory other) = place (tablePath directory name)).getD name

variable (name : String) (member : name ∈ names)

include member

theorem keeper_spec : names.reverse.find? (fun other =>
      place (tablePath directory other) = place (tablePath directory name)) =
        some (keeper place directory names name) := by
  cases found : names.reverse.find? fun other =>
      place (tablePath directory other) = place (tablePath directory name) with
  | none =>
      have differs := List.find?_eq_none.mp found name (List.mem_reverse.mpr member)
      exact absurd (decide_eq_true rfl) differs
  | some other => rw [keeper, found, Option.getD_some]

theorem keeper_mem : keeper place directory names name ∈ names :=
  List.mem_reverse.mp (List.mem_of_find?_eq_some (keeper_spec place directory names name member))

theorem keeper_keeper :
    keeper place directory names (keeper place directory names name) =
      keeper place directory names name := by
  have spec := keeper_spec place directory names name member
  have found := List.find?_some spec
  have same := of_decide_eq_true found
  rw [← Option.some_inj, ← keeper_spec _ _ _ _ (keeper_mem place directory names name member), same,
    spec]

theorem contentsAfter_written (before : κ → Option String) (text : String → String) :
    contentsAfter place before (names.map fun name => (tablePath directory name, text name))
        (tablePath directory name) = some (text (keeper place directory names name)) := by
  have spec := keeper_spec place directory names name member
  rw [contentsAfter, ← List.map_reverse, List.find?_map]
  simp only [Function.comp_def, spec, Option.map_some]

end Keeper

/-- Whether a table can take a copy of a saved one: it reads as that one if it has been restored,
where only minus zero may read as zero, and is zero otherwise. -/
structure Restores (saved store : Store Float32) (restored : Prop) : Prop where
  whole : saved.Placed
  placed : store.Placed
  named : store.name = saved.name
  sized : store.size = saved.size
  reads : restored → ∀ index, store.cells.get index = saved.cells.get index ∨
    saved.cells.get index = -0.0 ∧ store.cells.get index = 0.0
  zeros : ¬ restored → ∀ index, store.cells.get index = 0.0

theorem Restores.congr {saved store : Store Float32} {restored other : Prop}
    (restores : Restores saved store restored) (same : restored ↔ other) :
    Restores saved store other :=
  propext same ▸ restores

theorem Restores.attach {saved store : Store Float32} {restored : Prop}
    (restores : Restores saved store restored) (time : Timestamp) :
    (store.attach (saved.save time)).1 = .ok () ∧
      Restores saved (store.attach (saved.save time)).2 True := by
  have placed := restores.placed.attach (saved.save time)
  rcases restores.whole.attach_save restores.placed time restores.named restores.sized with
    ⟨attached, reads⟩
  rw [attached] at placed ⊢
  refine ⟨rfl, restores.whole, placed, restores.named, restores.sized, ?_,
    fun lost => (lost trivial).elim⟩
  intro _ index
  rcases reads index with same | ⟨zero, read⟩
  · exact .inl same
  · rcases eq_zero_of_beq_zero _ zero with plain | minus
    · exact .inl (read.trans plain.symm)
    · exact .inr ⟨minus, read⟩

def Resumes {ν : Type} (engine now : Engine ν Float32) (names : List String)
    (restored : String → Prop) : Prop :=
  ∀ name ∈ names, ∃ saved store, engine.store name = .ok saved ∧ now.store name = .ok store ∧
    Restores saved store (restored name)

theorem Resumes.congr {ν : Type} {engine now : Engine ν Float32} {names : List String}
    {restored other : String → Prop} (resumes : Resumes engine now names restored)
    (same : ∀ name, restored name ↔ other name) : Resumes engine now names other :=
  funext (fun name => propext (same name)) ▸ resumes

def savedText {ν : Type} (engine : Engine ν Float32) (time : Timestamp) (name : String) : String :=
  match engine.store name with
  | .ok store => (store.save time).toJson
  | .error _ => ""

section Attach

variable {ν : Type} (engine : Engine ν Float32) (names : List String) (time : Timestamp)
  (regular : time.Regular)
  (small : ∀ name ∈ names, ∀ saved, engine.store name = .ok saved → saved.size < Word.limit)
  (legible : ∀ name ∈ names, ∀ saved, engine.store name = .ok saved →
    ∀ pair ∈ saved.cells.entries.pairs, pair.2.isFinite = true → Legible pair.2)

include regular small legible

theorem attachText_saved (now : Engine ν Float32) (restored : String → Prop)
    (resumes : Resumes engine now names restored) (name : String) (member : name ∈ names) :
    (attachText now (savedText engine time name)).1 = engine.isFinite name ∧
      Resumes engine (attachText now (savedText engine time name)).2 names
        fun other => restored other ∨ other = name ∧ engine.isFinite name = true := by
  rcases resumes name member with ⟨saved, store, held, found, restores⟩
  have below : ∀ pair ∈ saved.cells.entries.pairs, pair.1 < Word.limit := by
    intro pair inside
    exact (Cells.below_pairs restores.whole pair inside).trans (small name member saved held)
  have read : Image.ofJson (saved.save time).toJson =
      if saved.cells.entries.isFinite then .ok (saved.save time) else .error .serialization :=
    (saved.save time).ofJson_toJson (show 1 < Word.halfLimit by decide)
      (small name member saved held) regular below (legible name member saved held)
  have finite := engine.isFinite_of_store name saved held restores.whole
  have named : (saved.save time).owner = name := (engine.name_of_store name saved held).1
  have text : savedText engine time name = (saved.save time).toJson := by rw [savedText, held]
  rw [attachText, text, read, finite]
  by_cases kept : saved.cells.entries.isFinite = true
  · have passed : (now.attachTable (saved.save time)).1 = .ok () := by
      rw [Engine.attachTable, Engine.withStore_fst, named, found]
      exact (restores.attach time).1
    have after : Resumes engine (now.attachTable (saved.save time)).2 names
        fun other => restored other ∨ other = name ∧ saved.cells.entries.isFinite = true := by
      intro other inside
      rcases resumes other inside with ⟨original, taken, one, two, restores⟩
      have left := now.store_withStore (saved.save time).owner
        (fun store => store.attach (saved.save time))
        (fun store => (store.attach_sameShape (saved.save time)).1) other
      rw [two, Except.map] at left
      refine ⟨original, _, one, left, ?_⟩
      by_cases own : other = name
      · have same : original = saved := Except.ok.inj (one.symm.trans (own ▸ held))
        rw [if_pos (own.trans named.symm), ← same]
        exact (restores.attach time).2.congr (iff_of_true trivial (.inr ⟨own, same ▸ kept⟩))
      · rw [if_neg fun same => own (same.trans named)]
        exact restores.congr (by simp [own])
    rw [if_pos kept]
    dsimp only
    cases outcome : now.attachTable (saved.save time) with
    | mk result resumed =>
        rw [outcome] at passed after
        cases passed
        exact ⟨kept.symm, after⟩
  · rw [if_neg kept]
    exact ⟨(Bool.eq_false_iff.mpr kept).symm, resumes.congr fun other => by simp [kept]⟩

theorem attachEach_saved (directory : String) (contents? : String → Option String)
    (source : String → String) (some : ∀ name ∈ names, source name ∈ names ∧
      contents? (tablePath directory name) = some (savedText engine time (source name)))
    (paths : List String) (known : ∀ name ∈ paths, name ∈ names) (now : Engine ν Float32)
    (restored : String → Prop) (resumes : Resumes engine now names restored) :
    (attachEach directory contents? paths now).1 =
        paths.countP (fun name => engine.isFinite (source name)) ∧
      Resumes engine (attachEach directory contents? paths now).2 names fun other =>
        restored other ∨
          ∃ name ∈ paths, other = source name ∧ engine.isFinite (source name) = true := by
  induction paths generalizing now restored with
  | nil => exact ⟨rfl, resumes.congr fun other => by simp⟩
  | cons name paths ih =>
      rcases List.forall_mem_cons.mp known with ⟨head, rest⟩
      rcases some name head with ⟨member, written⟩
      have first := attachText_saved engine names time regular small legible now restored resumes
        (source name) member
      rw [attachEach, written]
      dsimp only
      cases taken : attachText now (savedText engine time (source name)) with
      | mk fits between =>
          rw [taken] at first
          rcases first with ⟨rfl, attached⟩
          rcases ih rest between _ attached with ⟨counted, resumed⟩
          dsimp only
          cases others : attachEach directory contents? paths between with
          | mk count after =>
              rw [others] at counted resumed
              refine ⟨?_, resumed.congr ?_⟩
              · rw [List.countP_cons, ← counted]
                dsimp only
                split
                · rfl
                · rfl
              · intro other
                rw [or_assoc]
                simp only [List.mem_cons, exists_eq_or_imp]

end Attach

section Restart

variable {ν : Type} [Scalar ν] [Elementary ν]

omit [Elementary ν] in
theorem savedTables_eq_ok (engine : Engine ν Float32) (sound : engine.Sound) (directory : String)
    (time : Timestamp) :
    savedTables directory time engine = .ok ((tableNames engine).map fun name =>
      (tablePath directory name, savedText engine time name)) := by
  rw [savedTables, mapM_eq_ok_iff, List.forall₂_map_right_iff, List.forall₂_same]
  intro name member
  rcases List.mem_map.mp member with ⟨definition, inside, rfl⟩
  rcases sound.store_eq_ok definition inside with ⟨store, held, _⟩
  rw [Engine.saveTable, savedText, held]
  rfl

variable [Stored ν Float32]

section Trained

variable (documents : List (Document ν)) (config : Config) (fresh engine : Engine ν Float32)
  (built : Engine.build documents config = .ok fresh) (trained : Engine.Trained fresh engine)

include built trained

theorem exists_saved (definition : Definition ν) (member : definition ∈ fresh.definitions) :
    ∃ saved, engine.store definition.name = .ok saved ∧ saved.size = definition.tableSize ∧
      saved.size < Word.limit ∧ saved.Placed := by
  have sound := Engine.build_sound documents config fresh built
  have shape := trained.sameShape
  have placed := (trained.used built).placed
  rcases (sound.of_sameShape engine shape).store_eq_ok definition (shape.definitions ▸ member) with
    ⟨saved, held, sized⟩
  have accepted := (sound.definitions definition member).layout
  refine ⟨saved, held, sized, ?_, placed saved (engine.name_of_store _ saved held).2⟩
  rw [sized, Definition.tableSize, accepted.total]
  exact accepted.counted

theorem below_of_entry (definition : Definition ν) (member : definition ∈ fresh.definitions)
    (index : Nat) (value : Float32) (read : engine.entry definition.name index = .ok value) :
    index < definition.tableSize := by
  rcases exists_saved documents config fresh engine built trained definition member with
    ⟨saved, held, sized, _⟩
  rw [Engine.entry, held] at read
  by_contra outside
  have refused : saved.get index = .error (.indexOutOfRange index saved.size) := by
    rw [Store.get, Store.check, if_neg (sized ▸ outside)]
    rfl
  cases refused.symm.trans read

theorem legible_saved (legible : ∀ definition ∈ fresh.definitions, ∀ index value,
      engine.entry definition.name index = .ok value → value.isFinite = true → Legible value)
    (name : String) (member : name ∈ tableNames fresh) (saved : Store Float32)
    (held : engine.store name = .ok saved) :
    saved.size < Word.limit ∧
      ∀ pair ∈ saved.cells.entries.pairs, pair.2.isFinite = true → Legible pair.2 := by
  rcases List.mem_map.mp member with ⟨definition, inside, rfl⟩
  rcases exists_saved documents config fresh engine built trained definition inside with
    ⟨other, same, _, small, placed⟩
  cases held.symm.trans same
  refine ⟨small, ?_⟩
  intro pair listed
  have read := engine.entry_of_store _ saved held pair.1 (Cells.below_pairs placed pair listed)
  rw [Cells.get_eq_kept?, (Cells.mem_pairs placed pair.1 pair.2).mp listed] at read
  exact legible definition inside pair.1 pair.2 read

theorem resumes_fresh : Resumes engine fresh (tableNames fresh) fun _ => False := by
  intro name member
  rcases List.mem_map.mp member with ⟨definition, inside, rfl⟩
  rcases exists_saved documents config fresh engine built trained definition inside with
    ⟨saved, held, sized, _, whole⟩
  rcases exists_saved documents config fresh fresh built .fresh definition inside with
    ⟨store, found, same, _, placed⟩
  rcases fresh.name_of_store _ store found with ⟨named, listed⟩
  refine ⟨saved, store, held, found, whole, placed, ?_, same.trans sized.symm,
    fun lost => lost.elim, ?_⟩
  · exact named.trans (engine.name_of_store _ saved held).1.symm
  · rcases (Engine.fresh_of_build documents config fresh built).2 store listed with ⟨_, rfl⟩
    exact fun _ index => Cells.get_zero _ _ index _

end Trained

/-- Exactly the tables that hold finite values only come back, unless a later definition is stored
at the same place. Where a table comes back every entry reads as it was saved, only minus zero may
read as zero; any other table is zero again. -/
theorem attachTables_savedTables {κ : Type} [DecidableEq κ] (documents : List (Document ν))
    (config : Config) (fresh engine : Engine ν Float32)
    (built : Engine.build documents config = .ok fresh) (trained : Engine.Trained fresh engine)
    (directory : String) (time : Timestamp) (regular : time.Regular) (place : String → κ)
    (before : κ → Option String)
    (legible : ∀ definition ∈ fresh.definitions, ∀ index value,
      engine.entry definition.name index = .ok value → value.isFinite = true → Legible value) :
    ∃ files, savedTables directory time engine = .ok files ∧
      let resumed := attachTables directory (contentsAfter place before files) fresh
      let keeper := keeper place directory (tableNames fresh)
      resumed.1 = (tableNames fresh).countP (fun name => engine.isFinite (keeper name)) ∧
        ∀ definition ∈ fresh.definitions, ∀ index < definition.tableSize, ∃ value read,
          engine.entry definition.name index = .ok value ∧
            resumed.2.entry definition.name index = .ok read ∧
            if keeper definition.name = definition.name ∧ engine.isFinite definition.name then
              read = value ∨ value = -0.0 ∧ read = 0.0
            else read = 0.0 := by
  have shape := trained.sameShape
  have sound := (Engine.build_sound documents config fresh built).of_sameShape engine shape
  have names : tableNames engine = tableNames fresh := by
    rw [tableNames, tableNames, shape.definitions]
  have known := legible_saved documents config fresh engine built trained legible
  rcases attachEach_saved engine (tableNames fresh) time regular
    (fun name member saved held => (known name member saved held).1)
    (fun name member saved held => (known name member saved held).2) directory
    (contentsAfter place before ((tableNames fresh).map fun name =>
      (tablePath directory name, savedText engine time name)))
    (keeper place directory (tableNames fresh))
    (fun name member => ⟨keeper_mem place directory _ name member,
      contentsAfter_written place directory _ name member before _⟩)
    (tableNames fresh) (fun _ member => member) fresh _
    (resumes_fresh documents config fresh engine built trained) with ⟨counted, resumed⟩
  refine ⟨_, savedTables_eq_ok engine sound directory time, ?_⟩
  rw [names]
  refine ⟨counted, ?_⟩
  intro definition member index below
  rcases exists_saved documents config fresh engine built trained definition member with
    ⟨original, kept, sized, _⟩
  rcases resumed definition.name (List.mem_map_of_mem member) with
    ⟨saved, store, held, found, restores⟩
  cases kept.symm.trans held
  refine ⟨original.cells.get index, store.cells.get index, ?_, ?_, ?_⟩
  · exact engine.entry_of_store _ original held index (sized.symm ▸ below)
  · exact Engine.entry_of_store _ _ store found index (restores.sized.trans sized ▸ below)
  · split
    · rename_i survives
      refine restores.reads (.inr ⟨_, List.mem_map_of_mem member, survives.1.symm, ?_⟩) index
      rw [survives.1]
      exact survives.2
    · rename_i lost
      apply restores.zeros
      intro either
      rcases either with never | ⟨name, inside, same, finite⟩
      · exact never
      · -- The definition that is stored last at a place is so for itself as well.
        rw [same, keeper_keeper place directory _ name inside] at lost
        exact lost ⟨rfl, finite⟩

end Restart

/-- A hovering vehicle with two more definitions: one is rewarded beyond what a table can hold, and
the other one has the same file as the root. -/
def threeTables : List (Document Float) :=
  let taught (reward : String) : Document Float :=
    { Document.blank with
      methods := [.temporalDifference]
      reward := some reward
      params := { Params.standard with alpha := 0.5, exploration := 0.0 }
      state := [⟨"positionZ", 0.0, 1.0, some 1.0⟩] }
  [{ taught "1" with
      name := "hover"
      selectors := [⟨"first", ["burn"], []⟩, ⟨"second", ["./hover"], []⟩] },
    { taught "1e300" with name := "burn", priority := 1 },
    { taught "3" with name := "./hover", priority := 2 }]

def lifted (fresh : Engine Float Float32) : Engine Float Float32 :=
  let low : Flight.Snapshot Float := .atRest
  let high : Flight.Snapshot Float := { low with position := { low.position with z := 1.0 } }
  ((Run.step ⟨fresh, .start (.ofSeed 1)⟩ low).2.step high).2.engine

/-- Of three tables that have learned one comes back. The root is told that its table was attached
as well, but that of the other definition was read from its file. -/
theorem attachTables_savedTables_three :
    ∃ fresh : Engine Float Float32, Engine.build threeTables .standard = .ok fresh ∧
      Engine.Trained fresh (lifted fresh) ∧ Timestamp.epoch.Regular ∧
      (∀ definition ∈ fresh.definitions, ∀ index value,
        (lifted fresh).entry definition.name index = .ok value → value.isFinite = true →
          Legible value) ∧
      ((lifted fresh).entry "hover" 0).toOption = some 0.5 ∧
      ((lifted fresh).entry "burn" 0).toOption = some (1.0 / 0.0) ∧
      ((lifted fresh).entry "./hover" 0).toOption = some 1.5 ∧
      ∃ files, savedTables "tables" .epoch (lifted fresh) = .ok files ∧
        let resumed := attachTables "tables" (contentsAfter Path.parts (fun _ => none) files) fresh
        resumed.1 = 2 ∧ resumed.2.entry "hover" 0 = .ok 0.0 ∧ resumed.2.entry "burn" 0 = .ok 0.0 ∧
          resumed.2.entry "./hover" 0 = .ok 1.5 := by
  have facts : (Engine.build threeTables .standard).toOption.any
      (fun fresh : Engine Float Float32 =>
        decide (["hover", "burn", "./hover"].map (fun name =>
          ((lifted fresh).entry name 0).toOption) = [some 0.5, some (1.0 / 0.0), some 1.5]) &&
        decide (["hover", "burn", "./hover"].map (lifted fresh).isFinite = [true, false, true]) &&
        decide (tableNames fresh = ["hover", "burn", "./hover"]) &&
        fresh.definitions.all (fun definition => definition.tableSize == 2 &&
          (List.range 2).all fun index =>
            ((lifted fresh).entry definition.name index).toOption.all fun value : Float32 =>
              !value.isFinite || decide (Legible value))) = true := by
    decide +kernel
  rcases (Option.any_eq_true _ _).mp facts with ⟨fresh, made, checked⟩
  simp only [Bool.and_eq_true, decide_eq_true_eq, List.all_eq_true, List.mem_range,
    beq_iff_eq] at checked
  rcases checked with ⟨⟨⟨held, finite⟩, names⟩, small⟩
  simp only [List.map_cons, List.map_nil, List.cons.injEq, and_true] at held finite
  rcases held with ⟨hover, burn, other⟩
  rcases finite with ⟨hoverFinite, burnFinite, otherFinite⟩
  have built := eq_ok_of_toOption made
  have trained : Engine.Trained fresh (lifted fresh) := .step _ _ (.step _ _ .fresh)
  have regular : Timestamp.epoch.Regular := ⟨by decide, .inl (by decide)⟩
  have legible : ∀ definition ∈ fresh.definitions, ∀ index value,
      (lifted fresh).entry definition.name index = .ok value → value.isFinite = true →
        Legible value := by
    intro definition member index value read numeric
    have below := below_of_entry _ _ fresh _ built trained definition member index value read
    rw [(small definition member).1] at below
    have shown := (small definition member).2 index below
    rw [read] at shown
    simpa [Except.toOption, numeric] using shown
  rcases attachTables_savedTables _ _ fresh _ built trained "tables" .epoch regular Path.parts
    (fun _ => none) legible with ⟨files, saved, counted, reads⟩
  have first : ∀ name ∈ tableNames fresh, ∃ value read,
      (lifted fresh).entry name 0 = .ok value ∧
        (attachTables "tables" (contentsAfter Path.parts (fun _ => none) files) fresh).2.entry
          name 0 = .ok read ∧
        (keeper Path.parts "tables" (tableNames fresh) name = name →
          (lifted fresh).isFinite name = true → read = value ∨ value = -0.0 ∧ read = 0.0) ∧
        (¬(keeper Path.parts "tables" (tableNames fresh) name = name ∧
          (lifted fresh).isFinite name = true) → read = 0.0) := by
    intro name member
    rcases List.mem_map.mp member with ⟨definition, inside, rfl⟩
    rcases reads definition inside 0 (by rw [(small definition inside).1]; decide) with
      ⟨value, read, held, found, same⟩
    exact ⟨value, read, held, found, fun own finite => (if_pos ⟨own, finite⟩).mp same,
      fun lost => (if_neg lost).mp same⟩
  rw [names] at counted first
  have keepers : ["hover", "burn", "./hover"].map
      (keeper Path.parts "tables" ["hover", "burn", "./hover"]) =
        ["./hover", "burn", "./hover"] := by
    decide +kernel
  simp only [List.map_cons, List.map_nil, List.cons.injEq, and_true] at keepers
  rcases keepers with ⟨hoverKeeper, burnKeeper, otherKeeper⟩
  refine ⟨fresh, built, trained, regular, legible, hover, burn, other, files, saved, ?_, ?_, ?_, ?_⟩
  · rw [counted]
    simp [hoverKeeper, burnKeeper, otherKeeper, burnFinite, otherFinite]
  · rcases first "hover" (by decide) with ⟨value, read, _, found, _, lost⟩
    rw [found, lost (fun kept => absurd (hoverKeeper.symm.trans kept.1) (by decide))]
  · rcases first "burn" (by decide) with ⟨value, read, _, found, _, lost⟩
    rw [found, lost (fun kept => absurd (burnFinite.symm.trans kept.2) (by decide))]
  · rcases first "./hover" (by decide) with ⟨value, read, held, found, survives, _⟩
    rw [held] at other
    cases other
    rcases survives otherKeeper otherFinite with same | ⟨minus, _⟩
    · rw [found, same]
    · exact absurd minus (by decide)

end Replay

end Autoland
