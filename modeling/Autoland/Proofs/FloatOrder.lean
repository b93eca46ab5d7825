import Autoland.Number.Binary
import Mathlib

/-! The order of floating-point numbers. All but what is no number stand in one line, where zero and
minus zero share a place. -/

namespace Autoland

open Float.Model

theorem cmp_toLex {α β : Type} [LinearOrder α] [LinearOrder β] (a b : α) (c d : β) :
    cmp (toLex (a, c)) (toLex (b, d)) = (cmp a b).then (cmp c d) := by
  rcases lt_trichotomy a b with below | rfl | above
  · rw [(cmp_eq_lt_iff _ _).mpr below, Ordering.lt_then, cmp_eq_lt_iff]
    exact Prod.Lex.toLex_lt_toLex.mpr (.inl below)
  · rw [cmp_self_eq_eq, Ordering.eq_then]
    rcases lt_trichotomy c d with less | rfl | more
    · rw [(cmp_eq_lt_iff _ _).mpr less, cmp_eq_lt_iff]
      exact Prod.Lex.toLex_lt_toLex.mpr (.inr ⟨rfl, less⟩)
    · rw [cmp_self_eq_eq, cmp_self_eq_eq]
    · rw [(cmp_eq_gt_iff _ _).mpr more, cmp_eq_gt_iff]
      exact Prod.Lex.toLex_lt_toLex.mpr (.inr ⟨rfl, more⟩)
  · rw [(cmp_eq_gt_iff _ _).mpr above, Ordering.gt_then, cmp_eq_gt_iff]
    exact Prod.Lex.toLex_lt_toLex.mpr (.inl above)

theorem cmp_neg_neg (a b : Int) : cmp (-a) (-b) = (cmp a b).swap := by
  rw [cmp_swap]
  simp only [cmp, cmpUsing, neg_lt_neg_iff]

/-- The place of a number in the order of all numbers of its format: by sign and kind, then by
exponent, then by mantissa. What is no number has no place. -/
def place? : UnpackedFloat → Option (Int ×ₗ Int ×ₗ Int)
  | .notANumber => none
  | .infinity .negative => some (toLex (-2, toLex (0, 0)))
  | .finite .negative mantissa exponent _ => some (toLex (-1, toLex (-exponent, -mantissa)))
  | .zero _ => some (toLex (0, toLex (0, 0)))
  | .finite .positive mantissa exponent _ => some (toLex (1, toLex (exponent, mantissa)))
  | .infinity .positive => some (toLex (2, toLex (0, 0)))

theorem compare_eq_cmp_place (x y : UnpackedFloat) :
    x.compare y = (place? x).bind fun a => (place? y).map fun b => cmp a b := by
  have magnitudes (m n : Nat) (e f : Int) : (compare e f).then (compare m n) =
      (cmp e f).then (cmp (m : Int) (n : Int)) := by
    rw [cmp_eq_compare, cmp_eq_compare]
    simp [compare, compareOfLessAndEq]
  rcases x with (_ | _) | _ | _ | ⟨_ | _, m, e, _⟩ <;>
    rcases y with (_ | _) | _ | _ | ⟨_ | _, n, f, _⟩ <;>
    try rfl
  · change some ((compare e f).then (compare m n)).swap = some (cmp (toLex _) (toLex _))
    rw [magnitudes, Ordering.swap_then, ← cmp_neg_neg, ← cmp_neg_neg, cmp_toLex, cmp_toLex]
    rfl
  · change some ((compare e f).then (compare m n)) = some (cmp (toLex _) (toLex _))
    rw [magnitudes, cmp_toLex, cmp_toLex]
    rfl

theorem compare_eq_iff (x y : UnpackedFloat) (order : Ordering) :
    x.compare y = some order ↔ ∃ a ∈ place? x, ∃ b ∈ place? y, cmp a b = order := by
  simp [compare_eq_cmp_place, Option.bind_eq_some_iff]

theorem place_infinity_le (x : UnpackedFloat) :
    ∀ place ∈ place? x, toLex (-2, toLex (0, 0)) ≤ place := by
  rcases x with (_ | _) | _ | _ | ⟨_ | _, m, e, _⟩ <;>
    simp [place?, Prod.Lex.toLex_le_toLex]

theorem isNaN_iff_place (x : UnpackedFloat) : x.isNaN = true ↔ place? x = none := by
  rcases x with (_ | _) | _ | _ | ⟨_ | _, m, e, _⟩ <;> simp [UnpackedFloat.isNaN, place?]

namespace Single

def place? (x : Float32) : Option (Int ×ₗ Int ×ₗ Int) := Autoland.place? x.toModel.unpack

theorem lt_iff (x y : Float32) : x < y ↔ ∃ a ∈ place? x, ∃ b ∈ place? y, a < b := by
  have compared : x < y ↔ x.toModel.unpack.compare y.toModel.unpack = some .lt := by
    change decide (x.toModel < y.toModel) = true ↔ _
    rw [decide_eq_true_iff]
    exact beq_iff_eq
  simp only [compared, compare_eq_iff, cmp_eq_lt_iff]
  rfl

theorem beq_iff (x y : Float32) : (x == y) = true ↔ ∃ a ∈ place? x, a ∈ place? y := by
  have compared : (x == y) = true ↔ x.toModel.unpack.compare y.toModel.unpack = some .eq := by
    change (x.toModel.unpack.compare y.toModel.unpack == some .eq) = true ↔ _
    exact beq_iff_eq
  simp only [compared, compare_eq_iff, cmp_eq_eq_iff]
  constructor
  · rintro ⟨a, first, b, second, rfl⟩
    exact ⟨a, first, second⟩
  · rintro ⟨a, first, second⟩
    exact ⟨a, first, a, second, rfl⟩

theorem le_iff (x y : Float32) : x ≤ y ↔ ∃ a ∈ place? x, ∃ b ∈ place? y, a ≤ b := by
  have compared : x ≤ y ↔ (x.toModel.unpack.compare y.toModel.unpack).any (·.isLE) = true := by
    change decide (x.toModel ≤ y.toModel) = true ↔ _
    rw [decide_eq_true_iff]
    exact Iff.rfl
  rw [compared, Option.any_eq_true]
  simp only [compare_eq_iff]
  constructor
  · rintro ⟨order, ⟨a, first, b, second, rfl⟩, below⟩
    rw [Ordering.isLE_iff_ne_gt, cmp_eq_gt_iff, not_lt] at below
    exact ⟨a, first, b, second, below⟩
  · rintro ⟨a, first, b, second, below⟩
    refine ⟨_, ⟨a, first, b, second, rfl⟩, ?_⟩
    rw [Ordering.isLE_iff_ne_gt, cmp_eq_gt_iff, not_lt]
    exact below

theorem isNaN_iff (x : Float32) : x.isNaN = true ↔ place? x = none :=
  isNaN_iff_place x.toModel.unpack

theorem lowest_le : ∃ bottom ∈ place? RankedValue.lowest, ∀ x, ∀ place ∈ place? x,
    bottom ≤ place :=
  ⟨toLex (-2, toLex (0, 0)), by decide +kernel, fun x => place_infinity_le x.toModel.unpack⟩

end Single

end Autoland
