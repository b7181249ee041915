/-
# Theory.Decimal -- decimal digits and the numbers they are of

`Nat.toDigits 10` and `Nat.ofDigitChars 10` are inverse on digits without a leading zero.
-/
import Mathlib.Algebra.GroupWithZero.Nat
import Mathlib.Data.List.Basic

namespace Portrelay.Theory

set_option autoImplicit false

theorem digits_isDigit (n : Nat) : ∀ c ∈ Nat.toDigits 10 n, c.isDigit = true :=
  fun _ member => Nat.isDigit_of_mem_toDigits (by decide) (by decide) member

/-- The digits of a fraction, padded to their number of places. -/
theorem ofDigitChars_fraction {decimals n : Nat} (short : (Nat.toDigits 10 n).length ≤ decimals)
    (whole : Nat) :
    Nat.ofDigitChars 10 (List.replicate (decimals - (Nat.toDigits 10 n).length) '0' ++
      Nat.toDigits 10 n) whole = 10 ^ decimals * whole + n := by
  rw [Nat.ofDigitChars_append, Nat.ofDigitChars_replicate_zero,
    Nat.ofDigitChars_eq_ofDigitChars_zero, Nat.ofDigitChars_ten_toDigits, ← Nat.mul_assoc,
    ← Nat.pow_add, Nat.add_sub_cancel' short]

theorem digitChar_of_isDigit {c : Char} (digit : c.isDigit = true) :
    c.toNat - '0'.toNat < 10 ∧ Nat.digitChar (c.toNat - '0'.toNat) = c := by
  have range : 48 ≤ c.toNat ∧ c.toNat ≤ 57 := by
    simpa [Char.isDigit, UInt32.le_iff_toNat_le] using digit
  have zero : '0'.toNat = 48 := rfl
  refine ⟨by omega, Char.toNat_inj.mp ?_⟩
  rw [Nat.toNat_digitChar_of_lt_ten (by omega)]
  omega

/-- Further digits of a number that is not zero. -/
theorem toDigits_append {digits : List Char} (all : ∀ c ∈ digits, c.isDigit = true) {n : Nat}
    (some_ : 0 < n) : Nat.toDigits 10 n ++ digits = Nat.toDigits 10 (Nat.ofDigitChars 10 digits n) := by
  induction digits generalizing n with
  | nil => rw [Nat.ofDigitChars_nil, List.append_nil]
  | cons c digits ih =>
      obtain ⟨small, char⟩ := digitChar_of_isDigit (all c List.mem_cons_self)
      have later := ih (fun c member => all c (List.mem_cons_of_mem _ member))
        (show 0 < 10 * n + (c.toNat - '0'.toNat) by omega)
      have next := Nat.toDigits_append_toDigits (by decide) some_ small
      rw [Nat.toDigits_of_lt_base small, char] at next
      rw [Nat.ofDigitChars_cons, ← later, ← next, List.append_assoc, List.singleton_append]

/-- Digits without a leading zero are the digits of their number. -/
theorem toDigits_ofDigitChars {digits : List Char} (all : ∀ c ∈ digits, c.isDigit = true)
    (some_ : digits ≠ []) (lead : digits.head? = some '0' → digits.length ≤ 1) :
    Nat.toDigits 10 (Nat.ofDigitChars 10 digits 0) = digits := by
  cases digits with
  | nil => exact absurd rfl some_
  | cons c rest =>
      obtain ⟨small, char⟩ := digitChar_of_isDigit (all c List.mem_cons_self)
      have rest_ : ∀ c ∈ rest, c.isDigit = true := fun c member => all c (List.mem_cons_of_mem _ member)
      rw [Nat.ofDigitChars_cons, Nat.mul_zero, Nat.zero_add]
      rcases Nat.eq_zero_or_pos (c.toNat - '0'.toNat) with zero | pos
      · rw [zero] at char
        have single := lead (by rw [List.head?_cons, ← char]; rfl)
        rw [List.length_cons] at single
        obtain rfl := List.length_eq_zero_iff.mp (show rest.length = 0 by omega)
        rw [Nat.ofDigitChars_nil, zero, ← char]
        rfl
      · rw [← toDigits_append rest_ pos, Nat.toDigits_of_lt_base small, char]
        rfl

end Portrelay.Theory
