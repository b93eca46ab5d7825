import Autoland.Number.Numeral
import Mathlib.Data.List.Basic

/-! Numbers written in decimal digits and read back. -/

namespace Autoland.Numeral

theorem ofDigits_toDigits (n : Nat) : ofDigits (Nat.toDigits 10 n) = n :=
  Nat.ofDigitChars_toDigits (by decide) (by decide)

theorem isDigit_of_mem_toDigits (n : Nat) (c : Char) (member : c ∈ Nat.toDigits 10 n) :
    c.isDigit = true :=
  Nat.isDigit_of_mem_toDigits (by decide) (by decide) member

theorem toDigits_of_head?_zero (n : Nat) (zero : (Nat.toDigits 10 n).head? = some '0') :
    Nat.toDigits 10 n = ['0'] := by
  induction n using Nat.strongRecOn with
  | ind n ih =>
      by_cases small : n < 10
      · rw [Nat.toDigits_of_lt_base small] at zero ⊢
        exact congrArg (fun c => [c]) (Option.some.inj zero)
      · have large : 10 ≤ n := Nat.le_of_not_lt small
        have split := Nat.toDigits_of_base_le (b := 10) (by decide) large
        rw [split, List.head?_append_of_ne_nil _ Nat.toDigits_ne_nil] at zero
        have front := ih (n / 10) (by omega) zero
        have value := ofDigits_toDigits (n / 10)
        rw [front] at value
        have none : n / 10 = 0 := value.symm
        omega

section Scan

variable (digits rest : List Char) (all : ∀ c ∈ digits, c.isDigit = true)
  (stops : ∀ c ∈ rest.head?, c.isDigit = false)

include all stops

theorem takeWhile_isDigit : (digits ++ rest).takeWhile Char.isDigit = digits := by
  rw [List.takeWhile_append_of_pos all]
  cases rest with
  | nil => rw [List.takeWhile_nil, List.append_nil]
  | cons c rest =>
      rw [List.takeWhile_cons_of_neg, List.append_nil]
      rw [stops c rfl]
      exact Bool.false_ne_true

theorem dropWhile_isDigit : (digits ++ rest).dropWhile Char.isDigit = rest := by
  rw [List.dropWhile_append_of_pos all]
  cases rest with
  | nil => rfl
  | cons c rest =>
      rw [List.dropWhile_cons_of_neg]
      rw [stops c rfl]
      exact Bool.false_ne_true

end Scan

end Autoland.Numeral
