import Autoland.Number.Random
import Mathlib.Data.List.Perm.Basic
import Mathlib.Data.Nat.Find

/-! What is picked with random words. Every source comes to a word that stands for a number, so
that a pick always ends on one, and a shuffled list holds what it held before. -/

namespace Autoland.Source

theorem choice?_lt (count : Nat) (positive : 0 < count) (word : UInt64) :
    ∀ value ∈ choice? count word, value < count := by
  intro value chosen
  rw [choice?, Option.mem_def, Option.ite_none_right_eq_some, Option.some.injEq] at chosen
  obtain ⟨_, rfl⟩ := chosen
  have limit : 0 < Nat.pow 2 (width count) := Nat.pow_pos (by decide)
  apply Nat.div_lt_of_lt_mul
  exact Nat.mul_lt_mul_of_pos_right (Nat.mod_lt _ limit) positive

theorem choice?_zero (count : Nat) : choice? count 0 = some 0 := by
  have product : (0 : UInt64).toNat % Nat.pow 2 (width count) * count = 0 := by
    rw [UInt64.toNat_zero, Nat.zero_mod, Nat.zero_mul]
  unfold choice?
  dsimp only
  rw [product, Nat.zero_mod, Nat.zero_div, if_pos (Nat.zero_le _)]

def after : Nat → Source → Source
  | 0, source => source
  | drawn + 1, source => after drawn source.next.2

theorem after_add (first second : Nat) (source : Source) :
    after (first + second) source = after second (after first source) := by
  induction first generalizing source with
  | zero => rw [Nat.zero_add, after]
  | succ first ih => rw [Nat.succ_add, after, after, ih]

theorem after_pending (words : List UInt64) (counter : Option UInt64) (used : Nat) :
    after words.length ⟨words, counter, used⟩ = ⟨[], counter, used + words.length⟩ := by
  induction words generalizing used with
  | nil => rfl
  | cons word words ih =>
      rw [List.length_cons, after]
      exact (ih (used + 1)).trans (by rw [Nat.add_right_comm, Nat.add_assoc])

theorem after_mixed (drawn used : Nat) (counter : UInt64) :
    after drawn ⟨[], some counter, used⟩ =
      ⟨[], some (counter + UInt64.ofNat drawn * stride), used + drawn⟩ := by
  induction drawn generalizing counter used with
  | zero =>
      have still : counter + UInt64.ofNat 0 * stride = counter := by grind
      rw [after, still, Nat.add_zero]
  | succ drawn ih =>
      have moved : counter + stride + UInt64.ofNat drawn * stride =
          counter + UInt64.ofNat (drawn + 1) * stride := by
        rw [UInt64.ofNat_add]
        grind
      rw [after]
      refine (ih (used + 1) (counter + stride)).trans ?_
      rw [moved, Nat.add_right_comm, Nat.add_assoc]

theorem exists_stride (counter : UInt64) :
    ∃ drawn < Word.limit, counter + UInt64.ofNat drawn * stride + stride = 0 := by
  -- the factor is the inverse of the stride
  have inverse : stride * 0xF1DE83E19937733D = 1 := by decide
  refine ⟨((0 - counter) * 0xF1DE83E19937733D - 1).toNat, UInt64.toNat_lt _, ?_⟩
  rw [UInt64.ofNat_toNat]
  grind

/-- A zero is among the given words, or is drawn after them. -/
theorem exists_zero (source : Source) :
    ∃ drawn < Word.limit + source.pending.length, (after drawn source).next.1 = 0 := by
  obtain ⟨words, counter, used⟩ := source
  cases counter with
  | none =>
      have endless : 0 < Word.limit := Nat.zero_lt_succ 18446744073709551615
      refine ⟨words.length, Nat.lt_add_of_pos_left endless, ?_⟩
      rw [after_pending]
      rfl
  | some counter =>
      obtain ⟨drawn, few, zero⟩ := exists_stride counter
      refine ⟨words.length + drawn, by dsimp only; omega, ?_⟩
      rw [after_add, after_pending, after_mixed]
      change mix (counter + UInt64.ofNat drawn * stride + stride) = 0
      rw [zero]
      decide

theorem pickWithin_of_first (count tries drawn : Nat) (source : Source) (value : Nat)
    (early : ∀ before < drawn, choice? count (after before source).next.1 = none)
    (chosen : choice? count (after drawn source).next.1 = some value) (enough : drawn < tries) :
    pickWithin count tries source = (value, (after drawn source).next.2) := by
  induction drawn generalizing source tries with
  | zero =>
      obtain ⟨tries, rfl⟩ := Nat.exists_eq_succ_of_ne_zero (Nat.ne_of_gt enough)
      rw [after] at chosen ⊢
      rw [pickWithin]
      dsimp only
      rw [chosen]
  | succ drawn ih =>
      obtain ⟨tries, rfl⟩ := Nat.exists_eq_succ_of_ne_zero (Nat.ne_zero_of_lt enough)
      have refused := early 0 (Nat.zero_lt_succ drawn)
      rw [after] at refused
      rw [after] at chosen ⊢
      rw [pickWithin]
      dsimp only
      rw [refused]
      exact ih tries source.next.2 (fun before small => early (before + 1) (Nat.succ_lt_succ small))
        chosen (Nat.lt_of_succ_lt_succ enough)

theorem pick_eq_first (count : Nat) (source : Source) :
    ∃ drawn value, (∀ before < drawn, choice? count (after before source).next.1 = none) ∧
      choice? count (after drawn source).next.1 = some value ∧
      source.pick count = (value, (after drawn source).next.2) := by
  obtain ⟨drawn, few, zero⟩ := source.exists_zero
  have some : ∃ drawn, (choice? count (after drawn source).next.1).isSome = true :=
    ⟨drawn, by rw [zero, choice?_zero, Option.isSome_some]⟩
  obtain ⟨value, chosen⟩ := Option.isSome_iff_exists.mp (Nat.find_spec some)
  have early : ∀ before < Nat.find some, choice? count (after before source).next.1 = none := by
    intro before small
    simpa using Nat.find_min some small
  have first : Nat.find some ≤ drawn :=
    Nat.find_min' some (by rw [zero, choice?_zero, Option.isSome_some])
  refine ⟨Nat.find some, value, early, chosen, ?_⟩
  unfold pick
  exact pickWithin_of_first count _ _ source value early chosen (Nat.lt_of_le_of_lt first few)

theorem pick_lt (count : Nat) (positive : 0 < count) (source : Source) :
    (source.pick count).1 < count := by
  obtain ⟨drawn, value, _, chosen, picked⟩ := source.pick_eq_first count
  rw [picked]
  exact choice?_lt count positive _ value chosen

theorem choose_of_ne_nil {α : Type} {items : List α} (filled : items ≠ []) (source : Source) :
    source.choose items =
      (items[(source.pick items.length).1]?, (source.pick items.length).2) := by
  rw [choose, if_neg (by simpa using filled)]

theorem swapIfInBounds_perm {α : Type} (items : Array α) (first second : Nat) :
    (items.swapIfInBounds first second).toList.Perm items.toList := by
  unfold Array.swapIfInBounds
  split
  · split
    · exact (Array.swap_perm _ _).toList
    · exact .refl _
  · exact .refl _

theorem shuffleFrom_perm {α : Type} (position : Nat) (items : Array α) (source : Source) :
    (shuffleFrom position items source).1.toList.Perm items.toList := by
  induction position generalizing items source with
  | zero => exact .refl _
  | succ position ih =>
      rw [shuffleFrom]
      exact (ih _ _).trans (swapIfInBounds_perm _ _ _)

theorem shuffle_perm {α : Type} (items : List α) (source : Source) :
    (source.shuffle items).1.Perm items :=
  shuffleFrom_perm (items.length - 1) items.toArray source

theorem map_swapIfInBounds {α β : Type} (f : α → β) (items : Array α) (first second : Nat) :
    (items.swapIfInBounds first second).map f = (items.map f).swapIfInBounds first second := by
  unfold Array.swapIfInBounds
  simp only [Array.size_map]
  split
  · split
    · simp only [Array.swap_def, Array.map_set, Array.getElem_map]
    · rfl
  · rfl

theorem shuffleFrom_map {α β : Type} (f : α → β) (position : Nat) (items : Array α)
    (source : Source) :
    shuffleFrom position (items.map f) source =
      ((shuffleFrom position items source).1.map f, (shuffleFrom position items source).2) := by
  induction position generalizing items source with
  | zero => rfl
  | succ position ih =>
      rw [shuffleFrom, shuffleFrom]
      dsimp only
      rw [← map_swapIfInBounds]
      exact ih _ _

theorem shuffle_map {α β : Type} (f : α → β) (items : List α) (source : Source) :
    source.shuffle (items.map f) =
      ((source.shuffle items).1.map f, (source.shuffle items).2) := by
  unfold shuffle
  rw [List.length_map, ← List.map_toArray, shuffleFrom_map]
  dsimp only
  rw [Array.toList_map]

end Autoland.Source
