import Autoland.Proofs.Decisions
import Autoland.Proofs.EngineInvariant

/-! The entries of an engine's tables. Work on one table leaves all other tables as they are, and
its result is that of the work on the table alone. -/

namespace Autoland.Engine

open Table

variable {ν φ : Type}

def entry [TableValue φ] (engine : Engine ν φ) (name : String) (index : Nat) : Except Error φ := do
  (← engine.store name).get index

section Stores

variable {α : Type} (name : String) (work : Store φ → Except Error α × Store φ)

theorem find?_onStore (keeps : ∀ store, (work store).2.name = store.name)
    (stores : List (Store φ)) (other : String) :
    (onStore name work stores).2.find? (·.name = other) =
      (stores.find? (·.name = other)).map fun store =>
        if other = name then (work store).2 else store := by
  induction stores with
  | nil => rfl
  | cons store stores ih =>
      rw [onStore]
      by_cases own : store.name = name
      · rw [if_pos own]
        by_cases asked : other = name
        · rw [List.find?_cons_of_pos (by simp [keeps, own, asked]),
            List.find?_cons_of_pos (by simp [own, asked]), Option.map_some, if_pos asked]
        · have differs : ¬ store.name = other := fun same => asked (same.symm.trans own)
          rw [List.find?_cons_of_neg (by simp [keeps, differs]),
            List.find?_cons_of_neg (by simp [differs])]
          simp only [if_neg asked, Option.map_id_fun', id_eq]
      · rw [if_neg own]
        by_cases found : store.name = other
        · have elsewhere : ¬ other = name := fun same => own (found.trans same)
          rw [List.find?_cons_of_pos (by simp [found]), List.find?_cons_of_pos (by simp [found]),
            Option.map_some, if_neg elsewhere]
        · rw [List.find?_cons_of_neg (by simp [found]), List.find?_cons_of_neg (by simp [found]),
            ih]

theorem onStore_fst (stores : List (Store φ)) :
    (onStore name work stores).1 =
      match stores.find? (·.name = name) with
      | some store => (work store).1
      | none => .error (.unknownDefinition name) := by
  induction stores with
  | nil => rfl
  | cons first stores ih =>
      rw [onStore]
      by_cases own : first.name = name
      · rw [List.find?_cons_of_pos (by simp [own]), if_pos own]
      · rw [List.find?_cons_of_neg (by simp [own]), if_neg own]
        exact ih

variable (engine : Engine ν φ)

theorem store_eq_ok_iff (store : Store φ) :
    engine.store name = .ok store ↔ engine.stores.find? (·.name = name) = some store := by
  unfold Engine.store
  cases engine.stores.find? (·.name = name) <;> simp

/-- Work on the table of one definition leaves all other tables as they are. -/
theorem store_withStore (keeps : ∀ store, (work store).2.name = store.name) (other : String) :
    (engine.withStore name work).2.store other =
      (engine.store other).map fun store => if other = name then (work store).2 else store := by
  have found : (engine.withStore name work).2.stores.find? (·.name = other) = _ :=
    find?_onStore name work keeps engine.stores other
  rw [Engine.store, found, Engine.store]
  cases engine.stores.find? (·.name = other) with
  | none => rfl
  | some store => rfl

theorem withStore_fst :
    (engine.withStore name work).1 = (engine.store name).bind fun store => (work store).1 := by
  have worked : (engine.withStore name work).1 = _ := onStore_fst name work engine.stores
  rw [worked, Engine.store]
  cases engine.stores.find? (·.name = name) with
  | none => rfl
  | some store => rfl

end Stores

theorem name_of_store (engine : Engine ν φ) (name : String) (store : Store φ)
    (held : engine.store name = .ok store) : store.name = name ∧ store ∈ engine.stores := by
  rw [store_eq_ok_iff] at held
  have named := List.find?_some held
  exact ⟨of_decide_eq_true named, List.mem_of_find?_eq_some held⟩

theorem entry_of_store [TableValue φ] (engine : Engine ν φ) (name : String) (store : Store φ)
    (held : engine.store name = .ok store) (index : Nat) (below : index < store.size) :
    engine.entry name index = .ok (store.cells.get index) := by
  rw [entry, held]
  exact store.get_eq_ok index below

end Autoland.Engine
