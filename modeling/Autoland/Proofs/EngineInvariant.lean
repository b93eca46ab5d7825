import Autoland.Engine.Basic
import Autoland.Proofs.ChildGraph

/-! What building an engine ensures, and what working on its tables leaves as it is. -/

namespace Autoland

open Problem

theorem Problem.requireDistinct_eq_ok {ν : Type} (seen : List String)
    (definitions : List (Definition ν)) (accepted : requireDistinct seen definitions = .ok ()) :
    (definitions.map (·.name)).Nodup ∧ ∀ definition ∈ definitions, definition.name ∉ seen := by
  induction definitions generalizing seen with
  | nil => exact ⟨List.nodup_nil, fun _ member => nomatch member⟩
  | cons definition definitions ih =>
      rw [requireDistinct] at accepted
      split at accepted
      · cases accepted
      · rename_i fresh
        rcases ih _ accepted with ⟨distinct, rest⟩
        refine ⟨?_, ?_⟩
        · rw [List.map_cons, List.nodup_cons]
          refine ⟨?_, distinct⟩
          intro member
          rcases List.mem_map.mp member with ⟨other, inside, same⟩
          exact rest other inside (same ▸ List.mem_cons_self)
        · intro other member
          rcases List.mem_cons.mp member with rfl | member
          · exact fresh
          · exact fun present => rest other member (List.mem_cons_of_mem _ present)

theorem Problem.insertByPriority_perm {ν : Type} (definition : Definition ν)
    (definitions : List (Definition ν)) :
    (insertByPriority definition definitions).Perm (definition :: definitions) := by
  induction definitions with
  | nil => exact .refl _
  | cons other definitions ih =>
      rw [insertByPriority]
      split
      · exact .refl _
      · exact (ih.cons other).trans (.swap definition other definitions)

theorem Problem.byPriority_perm {ν : Type} (definitions : List (Definition ν)) :
    (byPriority definitions).Perm definitions := by
  induction definitions with
  | nil => exact .refl _
  | cons definition definitions ih =>
      exact (insertByPriority_perm definition _).trans (ih.cons definition)

theorem Problem.finalizeAll_sound {ν : Type} [Scalar ν] [Elementary ν] (denseCap : Nat)
    (documents : List (Document ν)) (compiler after : Formula.Compiler ν)
    (definitions : List (Definition ν))
    (accepted : finalizeAll denseCap documents compiler = (.ok definitions, after)) :
    ∀ definition ∈ definitions, definition.Sound := by
  induction documents generalizing compiler definitions with
  | nil =>
      cases accepted
      exact fun _ member => nomatch member
  | cons document documents ih =>
      rw [finalizeAll] at accepted
      split at accepted
      · cases accepted
      · rename_i definition between first
        split at accepted
        · cases accepted
        · rename_i rest last second
          cases accepted
          intro other member
          rcases List.mem_cons.mp member with rfl | member
          · exact Document.sound_of_finalize _ _ _ _ _ first
          · exact ih between rest second other member

def Table.Store.SameShape {φ : Type} (before after : Table.Store φ) : Prop :=
  after.name = before.name ∧ after.size = before.size

namespace Engine

variable {ν φ : Type}

def tables (engine : Engine ν φ) : List (String × Nat) :=
  engine.stores.map fun store => (store.name, store.size)

structure SameShape (before after : Engine ν φ) : Prop where
  definitions : after.definitions = before.definitions
  tables : after.tables = before.tables

theorem SameShape.refl (engine : Engine ν φ) : SameShape engine engine := ⟨rfl, rfl⟩

theorem SameShape.trans {first second third : Engine ν φ} (one : SameShape first second)
    (two : SameShape second third) : SameShape first third :=
  ⟨two.definitions.trans one.definitions, two.tables.trans one.tables⟩

/-- What building ensures: sound definitions with distinct names, a table of the right size for
each, and children that do not lead back to their parents. -/
structure Sound [Scalar ν] (engine : Engine ν φ) : Prop where
  definitions : ∀ definition ∈ engine.definitions, definition.Sound
  distinct : (engine.definitions.map (·.name)).Nodup
  tables : engine.tables =
    engine.definitions.map fun definition => (definition.name, definition.tableSize)
  acyclic : rejectCycles engine.definitions = .ok ()

section Sound

variable [Scalar ν] {engine : Engine ν φ}

theorem Sound.of_sameShape (sound : engine.Sound) (other : Engine ν φ)
    (shape : SameShape engine other) : other.Sound where
  definitions := shape.definitions ▸ sound.definitions
  distinct := shape.definitions ▸ sound.distinct
  tables := shape.tables.trans (sound.tables.trans (shape.definitions ▸ rfl))
  acyclic := shape.definitions ▸ sound.acyclic

theorem Sound.eq_of_name (sound : engine.Sound) (first second : Definition ν)
    (member : first ∈ engine.definitions) (inside : second ∈ engine.definitions)
    (same : first.name = second.name) : first = second :=
  List.inj_on_of_nodup_map sound.distinct member inside same

theorem Sound.size_of_store (sound : engine.Sound) (definition : Definition ν)
    (member : definition ∈ engine.definitions) (store : Table.Store φ)
    (inside : store ∈ engine.stores) (named : store.name = definition.name) :
    store.size = definition.tableSize := by
  have listed : (store.name, store.size) ∈ engine.tables :=
    List.mem_map.mpr ⟨store, inside, rfl⟩
  rw [sound.tables] at listed
  rcases List.mem_map.mp listed with ⟨other, present, same⟩
  rcases Prod.mk.inj same with ⟨name, size⟩
  have unique := sound.eq_of_name other definition present member (name.trans named)
  rw [← size, unique]

theorem Sound.exists_store (sound : engine.Sound) (definition : Definition ν)
    (member : definition ∈ engine.definitions) :
    ∃ store ∈ engine.stores, store.name = definition.name := by
  have listed : (definition.name, definition.tableSize) ∈ engine.tables := by
    rw [sound.tables]
    exact List.mem_map.mpr ⟨definition, member, rfl⟩
  rcases List.mem_map.mp listed with ⟨store, inside, same⟩
  exact ⟨store, inside, (Prod.mk.inj same).1⟩

theorem Sound.store_eq_ok (sound : engine.Sound) (definition : Definition ν)
    (member : definition ∈ engine.definitions) :
    ∃ store, engine.store definition.name = .ok store ∧ store.size = definition.tableSize := by
  unfold Engine.store
  cases found : engine.stores.find? (·.name = definition.name) with
  | none =>
      rcases sound.exists_store definition member with ⟨store, inside, named⟩
      exact absurd (List.find?_eq_none.mp found store inside) (by simp [named])
  | some store =>
      have named := List.find?_some found
      rw [decide_eq_true_iff] at named
      have inside := List.mem_of_find?_eq_some found
      exact ⟨store, rfl, sound.size_of_store definition member store inside named⟩

end Sound

section Stores

variable {α : Type} (name : String) (work : Table.Store φ → Except Error α × Table.Store φ)

theorem onStore_shape
    (keeps : ∀ store : Table.Store φ, store.SameShape (work store).2)
    (stores : List (Table.Store φ)) :
    (onStore name work stores).2.map (fun store => (store.name, store.size)) =
      stores.map fun store => (store.name, store.size) := by
  induction stores with
  | nil => rfl
  | cons store stores ih =>
      rw [onStore]
      split
      · rw [List.map_cons, List.map_cons, (keeps store).1, (keeps store).2]
      · rw [List.map_cons, List.map_cons, ih]

theorem onStore_result (stores : List (Table.Store φ))
    (present : ∃ store ∈ stores, store.name = name) :
    ∃ store ∈ stores, store.name = name ∧ (onStore name work stores).1 = (work store).1 := by
  induction stores with
  | nil =>
      rcases present with ⟨_, member, _⟩
      cases member
  | cons store stores ih =>
      rw [onStore]
      split
      · rename_i named
        exact ⟨store, List.mem_cons_self, named, rfl⟩
      · rename_i other
        rcases present with ⟨held, member, named⟩
        have inside := (List.mem_cons.mp member).resolve_left fun same => other (same ▸ named)
        rcases ih ⟨held, inside, named⟩ with ⟨found, member, named, result⟩
        exact ⟨found, List.mem_cons_of_mem _ member, named, result⟩

variable (engine : Engine ν φ)

theorem withStore_sameShape
    (keeps : ∀ store : Table.Store φ, store.SameShape (work store).2) :
    SameShape engine (engine.withStore name work).2 :=
  ⟨rfl, onStore_shape name work keeps engine.stores⟩

end Stores

theorem Sound.withStore_result [Scalar ν] {engine : Engine ν φ} {α : Type} (sound : engine.Sound)
    (work : Table.Store φ → Except Error α × Table.Store φ) (definition : Definition ν)
    (member : definition ∈ engine.definitions) :
    ∃ store : Table.Store φ, store.size = definition.tableSize ∧
      (engine.withStore definition.name work).1 = (work store).1 := by
  obtain ⟨store, inside, named, result⟩ := onStore_result definition.name work engine.stores
    (sound.exists_store definition member)
  exact ⟨store, sound.size_of_store definition member store inside named, result⟩

section Build

variable [Scalar ν] [Elementary ν] [TableValue φ]

omit [Elementary ν] in
theorem ofDefinitions_sound (config : Config) (compiler : Formula.Compiler ν)
    (definitions : List (Definition ν)) (engine : Engine ν φ)
    (sound : ∀ definition ∈ definitions, definition.Sound)
    (built : ofDefinitions config compiler definitions = .ok engine) : engine.Sound := by
  unfold ofDefinitions at built
  split at built
  · cases built
  · rename_i root others order
    rcases bind_eq_ok.mp built with ⟨_, distinct, built⟩
    rcases bind_eq_ok.mp built with ⟨_, acyclic, built⟩
    cases built
    refine ⟨?_, (requireDistinct_eq_ok [] _ distinct).1, ?_, acyclic⟩
    · intro definition member
      apply sound
      rw [← (byPriority_perm definitions).mem_iff, order]
      exact member
    · exact List.map_map

theorem build_sound (documents : List (Document ν)) (config : Config) (engine : Engine ν φ)
    (built : build documents config = .ok engine) : engine.Sound := by
  unfold build at built
  split at built
  · cases built
  · rename_i definitions compiler finalized
    exact ofDefinitions_sound config compiler definitions engine
      (finalizeAll_sound _ _ _ _ _ finalized) built

end Build

end Engine

end Autoland
