import Mathlib.Data.List.Nodup

/-! Lists of pairs that are read by the first part of each, and lists in the order of keys. -/

namespace Autoland

theorem eq_of_increasing {α : Type} (key : α → Nat) (first second : List α)
    (sorted : first.Pairwise fun a b => key a < key b)
    (ordered : second.Pairwise fun a b => key a < key b)
    (same : ∀ item, item ∈ first ↔ item ∈ second) : first = second := by
  have apart : ∀ {a b : α}, key a < key b → a ≠ b := fun less equal =>
    Nat.ne_of_lt less (equal ▸ rfl)
  refine List.Perm.eq_of_pairwise ?_ sorted ordered
    ((List.perm_ext_iff_of_nodup (sorted.imp apart) (ordered.imp apart)).mpr same)
  intro a b _ _ less more
  exact absurd more (Nat.lt_asymm less)

variable {α β : Type} [DecidableEq α]

theorem lookup_cons_eq (name other : α) (held : β) (pairs : List (α × β)) :
    ((other, held) :: pairs).lookup name =
      if name = other then some held else pairs.lookup name := by
  rw [List.lookup_cons]
  by_cases same : name = other
  · rw [if_pos same, same, beq_self_eq_true]
  · rw [if_neg same, beq_eq_false_iff_ne.mpr same]

theorem lookup_eq_head? (pairs : List (α × β)) (name : α) :
    pairs.lookup name = ((pairs.filter (·.1 = name)).map (·.2)).head? := by
  induction pairs with
  | nil => rfl
  | cons pair pairs ih =>
      rw [lookup_cons_eq, List.filter_cons]
      by_cases same : name = pair.1
      · simp [same]
      · rw [if_neg same, ih, if_neg (by simpa using Ne.symm same)]

theorem lookup_map_names (names : List α) (value : α → β) (name : α) :
    (names.map fun other => (other, value other)).lookup name =
      if name ∈ names then some (value name) else none := by
  induction names with
  | nil => rfl
  | cons other names ih =>
      rw [List.map_cons, lookup_cons_eq, ih]
      by_cases same : name = other
      · simp [same]
      · simp [same]

theorem lookup_eq_some_of_mem (pairs : List (α × β)) (name : α) (value : β)
    (distinct : (pairs.map (·.1)).Nodup) (member : (name, value) ∈ pairs) :
    pairs.lookup name = some value := by
  induction pairs with
  | nil => cases member
  | cons pair pairs ih =>
      rcases pair with ⟨other, held⟩
      rw [List.map_cons, List.nodup_cons] at distinct
      rw [lookup_cons_eq]
      rcases List.mem_cons.mp member with same | member
      · cases same
        rw [if_pos rfl]
      · have differs : name ≠ other := by
          intro same
          exact distinct.1 (List.mem_map.mpr ⟨_, member, same⟩)
        rw [if_neg differs]
        exact ih distinct.2 member

theorem eq_of_lookup_eq (first second : List (α × β))
    (names : first.map (·.1) = second.map (·.1)) (distinct : (first.map (·.1)).Nodup)
    (same : ∀ name, first.lookup name = second.lookup name) : first = second := by
  have spread : ∀ pairs : List (α × β), (pairs.map (·.1)).Nodup →
      pairs.map some = (pairs.map (·.1)).map fun name => (pairs.lookup name).map (name, ·) := by
    intro pairs once
    rw [List.map_map]
    refine List.map_congr_left fun pair member => ?_
    rw [Function.comp_apply, lookup_eq_some_of_mem pairs pair.1 pair.2 once member]
    rfl
  apply List.map_injective_iff.mpr fun _ _ => Option.some.inj
  rw [spread first distinct, spread second (names ▸ distinct), names]
  exact List.map_congr_left fun name _ => by rw [same]

theorem mem_of_lookup_eq_some (pairs : List (α × β)) (name : α) (value : β)
    (found : pairs.lookup name = some value) : (name, value) ∈ pairs := by
  obtain ⟨front, back, rfl, _⟩ := List.lookup_eq_some_iff.mp found
  exact List.mem_append_right _ List.mem_cons_self

theorem lookup_eq_none_iff_unnamed (pairs : List (α × β)) (name : α) :
    pairs.lookup name = none ↔ name ∉ pairs.map (·.1) := by
  rw [List.lookup_eq_none_iff, List.mem_map]
  constructor
  · rintro apart ⟨pair, member, rfl⟩
    exact bne_iff_ne.mp (apart pair member) rfl
  · intro unnamed pair member
    rw [bne_iff_ne]
    rintro rfl
    exact unnamed ⟨pair, member, rfl⟩

theorem lookup_eq_none_of_not_mem (pairs : List (α × β)) (name : α)
    (absent : ∀ value, (name, value) ∉ pairs) : pairs.lookup name = none := by
  rw [lookup_eq_none_iff_unnamed]
  intro named
  obtain ⟨pair, member, rfl⟩ := List.mem_map.mp named
  exact absent pair.2 member

end Autoland
