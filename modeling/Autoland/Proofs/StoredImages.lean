import Autoland.Proofs.Results
import Autoland.Proofs.StoredValues
import Autoland.Proofs.WrittenTimes

/-! Copies of tables as files. The text of a copy reads back as the copy if all its values are
finite, and does not read at all otherwise. -/

namespace Autoland.Table

open JsonWriter

def Entries.isFinite : Entries Float32 → Bool
  | dense values => values.all (·.isFinite)
  | sparse pairs => pairs.all (·.2.isFinite)

theorem Entries.forall_pairs_dense {φ : Type} (property : φ → Prop) (values : List φ) :
    (∀ pair ∈ (dense values).pairs, property pair.2) ↔ ∀ value ∈ values, property value := by
  have listed : (dense values).pairs.map (·.2) = values := by
    rw [pairs, List.map_map]
    exact List.zipIdx_map_fst 0 values
  conv_rhs => rw [← listed]
  exact List.forall_mem_map.symm

theorem Entries.isFinite_iff (entries : Entries Float32) :
    entries.isFinite = true ↔ ∀ pair ∈ entries.pairs, pair.2.isFinite = true := by
  cases entries with
  | dense values =>
      rw [forall_pairs_dense (fun x : Float32 => x.isFinite = true)]
      exact List.all_eq_true
  | sparse pairs => exact List.all_eq_true

theorem mapM_eq_if {α β : Type} (read : β → Option α) (keep : α → Bool) (items : List α)
    (values : List β)
    (each : List.Forall₂ (fun item value => read value = if keep item then some item else none)
      items values) :
    values.mapM read = if items.all keep then some items else none := by
  induction each with
  | nil => rfl
  | @cons item value items values head _ ih =>
      rw [List.mapM_cons, head, ih, List.all_cons]
      by_cases kept : keep item = true
      · by_cases all : items.all keep = true <;> simp [kept, all]
      · simp [kept]

theorem readsBack_map {α : Type} (write : α → Data) (read : Data → Option α) (keep : α → Bool)
    (items : List α)
    (each : ∀ item ∈ items, ∃ value, ReadsBack (write item) value ∧
      read value = if keep item then some item else none) :
    ∃ values, ReadsBack (.list (items.map write)) (.list values) ∧
      values.mapM read = if items.all keep then some items else none := by
  obtain ⟨values, written, kept⟩ : ∃ values,
      List.Forall₂ ReadsBack (items.map write) values ∧
        List.Forall₂ (fun item value => read value = if keep item then some item else none)
          items values := by
    induction items with
    | nil => exact ⟨[], .nil, .nil⟩
    | cons item items ih =>
        rcases List.forall_mem_cons.mp each with ⟨head, rest⟩
        rcases head with ⟨value, written, kept⟩
        rcases ih rest with ⟨values, others, all⟩
        exact ⟨value :: values, .cons written others, .cons kept all⟩
  exact ⟨values, readsBack_list _ values written, mapM_eq_if read keep items values kept⟩

theorem readsBack_member (key : String) (data value : Data) (reads : ReadsBack data value) :
    ReadsBack (.object [(key, data)]) (.object [(key, value)]) :=
  readsBack_object _ _ (.cons ⟨rfl, reads⟩ .nil)

theorem word?_int (n : Nat) (small : n < Word.limit) : (Data.int n).word? = some n := by
  have fits : (0 : Int) ≤ n ∧ (n : Int) ≤ (Word.limit - 1 : Nat) := by
    unfold Word.limit at small ⊢
    omega
  rw [Data.word?, Data.int?, if_pos fits]
  rfl

namespace Entries

variable (entries : Entries Float32)

theorem readsBack_toData (below : ∀ pair ∈ entries.pairs, pair.1 < Word.limit)
    (legible : ∀ pair ∈ entries.pairs, pair.2.isFinite = true → Legible pair.2) :
    ∃ value, ReadsBack entries.toData value ∧
      ofData? value = if entries.isFinite then some entries else none := by
  cases entries with
  | dense values =>
      rw [forall_pairs_dense (fun x => x.isFinite = true → Legible x)] at legible
      rcases readsBack_map .narrow single? (·.isFinite) values
        (fun x member => readsBack_value x (legible x member)) with ⟨items, written, read⟩
      refine ⟨_, readsBack_member "dense" _ _ written, ?_⟩
      have kept : ofData? (.object [("dense", .list items)]) =
          (items.mapM single?).bind fun values => some (dense values) := rfl
      rw [kept, read, isFinite]
      split <;> rfl
  | sparse pairs =>
      have each : ∀ pair ∈ pairs, ∃ value,
          ReadsBack (.list [.int pair.1, .narrow pair.2]) value ∧
            pair? value = if pair.2.isFinite then some pair else none := by
        intro pair member
        rcases readsBack_value pair.2 (legible pair member) with ⟨value, written, read⟩
        have small := below pair member
        refine ⟨.list [.int pair.1, value], readsBack_list _ _
          (.cons (readsBack_word pair.1 small) (.cons written .nil)), ?_⟩
        rw [pair?, word?_int pair.1 small, read]
        split <;> rfl
      rcases readsBack_map _ pair? (·.2.isFinite) pairs each with ⟨items, written, read⟩
      refine ⟨_, readsBack_member "sparse" _ _ written, ?_⟩
      have kept : ofData? (.object [("sparse", .list items)]) =
          (items.mapM pair?).bind fun pairs => some (sparse pairs) := rfl
      rw [kept, read, isFinite]
      split <;> rfl

end Entries

namespace Image

def membersWith (image : Image Float32) (entries : Data) : List (String × Data) :=
  [("format_version", .int image.version), ("mdp_name", .text image.owner),
    ("size", .int image.size), ("backing", .text image.backing.name),
    ("saved_at", .text (image.savedAt.writeMarked "Z")), ("entries", entries)]

section File

variable (image : Image Float32) (version : image.version < Word.halfLimit)
  (sized : image.size < Word.limit) (saved : image.savedAt.Regular)

include version sized

theorem readsBack_toData (value : Data) (written : ReadsBack image.entries.toData value) :
    ReadsBack image.toData (.object (image.membersWith value)) := by
  have small : image.version < Word.limit := by
    unfold Word.halfLimit at version
    unfold Word.limit
    omega
  exact readsBack_object _ _ (.cons ⟨rfl, readsBack_word _ small⟩ (.cons ⟨rfl, readsBack_text _⟩
    (.cons ⟨rfl, readsBack_word _ sized⟩ (.cons ⟨rfl, readsBack_text _⟩
      (.cons ⟨rfl, readsBack_text _⟩ (.cons ⟨rfl, written⟩ .nil))))))

include saved

theorem ofData?_membersWith (value : Data) :
    ofData? (.object (image.membersWith value)) =
      (Entries.ofData? value).map fun entries => { image with entries } := by
  have number : (Data.int image.version).int? 0 (Word.halfLimit - 1 : Nat) =
      some (image.version : Int) := by
    rw [Data.int?, if_pos]
    unfold Word.halfLimit at version ⊢
    omega
  have backing : Grid.Backing.ofName? image.backing.name = some image.backing := by
    cases image.backing <;> rfl
  have member : Data.record?
      ["format_version", "mdp_name", "size", "backing", "saved_at", "entries"]
      (.object (image.membersWith value)) =
        some fun name => (image.membersWith value).lookup name := rfl
  let held := fun name => (image.membersWith value).lookup name
  have versionHeld : Data.required? held "format_version" (Data.int? 0 (Word.halfLimit - 1 : Nat)) =
      some (image.version : Int) := number
  have ownerHeld : Data.required? held "mdp_name" Data.text? = some image.owner := rfl
  have sizeHeld : Data.required? held "size" Data.word? = some image.size := word?_int _ sized
  have backingHeld : Data.required? held "backing" Data.name? = some image.backing.name := rfl
  have timeHeld : Data.required? held "saved_at" Data.text? =
      some (image.savedAt.writeMarked "Z") := rfl
  have entriesHeld : Data.required? held "entries" Entries.ofData? = Entries.ofData? value := rfl
  rw [ofData?, member, Option.bind_eq_bind, Option.bind_some]
  simp only [held, versionHeld, ownerHeld, sizeHeld, backingHeld, timeHeld, entriesHeld, backing,
    Timestamp.read?_writeMarked _ saved, Option.bind_eq_bind, Option.bind_some, Int.toNat_natCast]
  cases Entries.ofData? value <;> rfl

/-- A copy whose values are all finite is read from its text; another one is refused. -/
theorem ofJson_toJson (below : ∀ pair ∈ image.pairs, pair.1 < Word.limit)
    (legible : ∀ pair ∈ image.pairs, pair.2.isFinite = true → Legible pair.2) :
    ofJson image.toJson = if image.entries.isFinite then .ok image else .error .serialization := by
  rcases image.entries.readsBack_toData below legible with ⟨value, written, read⟩
  have whole := image.readsBack_toData version sized value written
  rw [ofJson, toJson, readUnlimited?_compact _ _ whole, Option.bind_some,
    image.ofData?_membersWith version sized saved, read]
  by_cases finite : image.entries.isFinite = true
  · rw [if_pos finite, if_pos finite]
    rfl
  · rw [if_neg finite, if_neg finite]
    rfl

end File

end Image

end Autoland.Table
