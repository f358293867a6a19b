import Mathlib.Algebra.Ring.Nat
import Mathlib.Data.List.Induction
import Mathlib.Data.Nat.Digits.Defs
import Verdict.Text.Decimal

/-!
# The numbers that digits are written for

`numeral` says which number a run of digits is written for, in terms of a table of the digits and of
the decimal system. It does not say how digits are read; `value_eq_numeral` is what reading them
one after the other comes to. What is said about the numbers in a text is said with `numeral`.
-/

namespace Verdict

/-- The digits, each at the place of its value. -/
def figures : List Char := ['0', '1', '2', '3', '4', '5', '6', '7', '8', '9']

/-- The number that a run of digits is written for in the decimal system. -/
def numeral (digits : List Char) : Nat :=
  Nat.ofDigits 10 (digits.reverse.map fun c => figures.idxOf c)

theorem mem_figures {c : Char} (hc : c.isDigit = true) : c ∈ figures := by
  obtain ⟨hlow, hhigh⟩ : 48 ≤ c.toNat ∧ c.toNat ≤ 57 := Char.isDigit_iff_toNat.mp hc
  have hcode : c.toNat ∈ figures.map Char.toNat := by
    simp only [figures, List.map_cons, List.map_nil, Char.reduceToNat, List.mem_cons,
      List.not_mem_nil, or_false]
    omega
  obtain ⟨d, hd, hdc⟩ := List.mem_map.mp hcode
  rwa [← Char.toNat_inj.mp hdc]

namespace Text.Decimal

theorem digit_eq_idxOf {c : Char} (hc : c.isDigit = true) : digit c = figures.idxOf c := by
  have hall : figures.map digit = figures.map fun d => figures.idxOf d := rfl
  exact List.map_inj_left.mp hall c (mem_figures hc)

theorem value_append_singleton (digits : List Char) (c : Char) :
    value (digits ++ [c]) = 10 * value digits + digit c := by
  rw [value, valueFrom, List.foldl_append]
  rfl

/-- Digits that are read one after the other give the number that they are written for. -/
theorem value_eq_numeral {digits : List Char} (h : ∀ c ∈ digits, c.isDigit = true) :
    value digits = numeral digits := by
  induction digits using List.reverseRecOn with
  | nil => rfl
  | append_singleton digits c ih =>
      have hc : c.isDigit = true := h c (List.mem_append_right _ (List.mem_singleton_self c))
      have hdigits : ∀ d ∈ digits, d.isDigit = true := fun d hd => h d (List.mem_append_left _ hd)
      rw [value_append_singleton, ih hdigits, digit_eq_idxOf hc, numeral, numeral,
        List.reverse_append, List.reverse_singleton, List.singleton_append, List.map_cons,
        Nat.ofDigits_cons, Nat.add_comm]

end Text.Decimal

theorem isDigit_toDigits (n : Nat) : ∀ c ∈ Nat.toDigits 10 n, c.isDigit = true :=
  fun _ hc => Nat.isDigit_of_mem_toDigits (by decide) (by decide) hc

/-- The digits that a number is written with are written for this number. -/
theorem numeral_toDigits (n : Nat) : numeral (Nat.toDigits 10 n) = n := by
  rw [← Text.Decimal.value_eq_numeral (isDigit_toDigits n)]
  exact Nat.ofDigitChars_ten_toDigits

end Verdict
