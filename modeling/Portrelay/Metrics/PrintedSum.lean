/-
# Metrics.PrintedSum -- the `_sum` of a histogram as it is printed

`Histogram::render` turns the microseconds it loads into a double, divides by a million and
prints six places (`sumSeconds`).

* `sumSeconds_le` -- a sum that has not gone down is not printed smaller.
* `sumSeconds_near` -- how far from the microseconds the print may be.
* `sumSeconds_exact_iff` -- up to which total every sum is printed exactly.
-/
import Portrelay.Theory.Rounding
import Portrelay.Metrics.Render

namespace Portrelay.Metrics

open Portrelay.Theory

set_option autoImplicit false

theorem sumSeconds_le {m n : Nat} (le : m ≤ n) : sumSeconds m ≤ sumSeconds n :=
  Double.fixed_le (Double.divNat_le (Double.ofNat_le le) (by decide)) 6

theorem num_pos {n : Nat} (some_ : 0 < n) : 0 < (Double.ofNat n).num := by
  by_contra none_
  have zero : (Double.ofNat n).num = 0 := by omega
  have near := Double.ofRatio_near_rel some_ Nat.one_pos
  have value := Double.num_div_den (Double.ofNat n)
  rw [zero, Nat.cast_zero, zero_div] at value
  have some' : (0 : ℚ) < n := by exact_mod_cast some_
  have far : |(Double.ofNat n).value - (n : ℚ) / (1 : Nat)| = n := by
    rw [← value, Nat.cast_one, div_one, zero_sub, abs_neg, abs_of_pos some']
  rw [show Double.ofRatio n 1 = Double.ofNat n from rfl, far, Nat.cast_one, div_one] at near
  linarith

/-- Both roundings of the quotient, and the one of the print. -/
theorem sumSeconds_near (n : Nat) : |(sumSeconds n : ℚ) - n| ≤ 1 / 2 + n / 2 ^ 51 := by
  rcases Nat.eq_zero_or_pos n with rfl | some_
  · have zero : sumSeconds 0 = 0 := by decide
    rw [zero]
    norm_num
  have some' : (0 : ℚ) < n := by exact_mod_cast some_
  have integer := Double.ofRatio_near_rel some_ Nat.one_pos
  rw [Nat.cast_one, div_one, show Double.ofRatio n 1 = Double.ofNat n from rfl] at integer
  have quotient := Double.ofRatio_near_rel (num_pos some_)
    (Nat.mul_pos (Double.ofNat n).den_pos (show 0 < 1_000_000 by decide))
  rw [Double.divNat_ratio] at quotient
  have print := Double.fixed_near ((Double.ofNat n).divNat 1_000_000) 6
  have integer' := abs_le.mp integer
  have quotient' := abs_le.mp quotient
  have print' := abs_le.mp print
  have same : Double.ofRatio (Double.ofNat n).num ((Double.ofNat n).den * 1_000_000) =
      (Double.ofNat n).divNat 1_000_000 := rfl
  rw [same] at quotient'
  push_cast at quotient'
  show |(((Double.ofNat n).divNat 1_000_000).fixed 6 : ℚ) - n| ≤ _
  rw [abs_le]
  constructor
  · linarith [integer'.1, integer'.2, quotient'.1, print'.1]
  · linarith [integer'.1, integer'.2, quotient'.2, print'.2]

/-- Below `2 ^ 33` seconds half a unit of the quotient's last place is less than half a
microsecond. -/
theorem sumSeconds_exact {n : Nat} (small : n < 2 ^ 33 * 1_000_000) : sumSeconds n = n := by
  rcases Nat.eq_zero_or_pos n with rfl | some_
  · decide
  have bits : (Double.ofNat n).value = n := Double.ofNat_value (by omega)
  have below : 0 < (Double.ofNat n).den * 1_000_000 :=
    Nat.mul_pos (Double.ofNat n).den_pos (by decide)
  have small' : (n : ℚ) < 2 ^ 33 * 1_000_000 := by exact_mod_cast small
  have unit : ((Double.ofNat n).divNat 1_000_000).exponent ≤ -20 := by
    refine Double.ofRatio_exponent_le (num_pos some_) below ?_
    rw [Double.divNat_ratio, bits]
    norm_num
    linarith
  have near := Double.ofRatio_near (num_pos some_) below
  have place : (2 : ℚ) ^ ((Double.ofNat n).divNat 1_000_000).exponent ≤ 2 ^ (-20 : Int) :=
    zpow_le_zpow_right₀ (by norm_num) unit
  rw [Double.divNat_ratio, bits] at near
  have same : Double.ofRatio (Double.ofNat n).num ((Double.ofNat n).den * 1_000_000) =
      (Double.ofNat n).divNat 1_000_000 := rfl
  rw [same] at near
  have close := abs_le.mp (le_trans near (div_le_div_of_nonneg_right place (by norm_num)))
  refine roundHalfEven_eq (Double.den_pos _) ?_
  rw [Double.fixed_ratio, abs_lt]
  norm_num at close ⊢
  constructor
  · linarith [close.1]
  · linarith [close.2]

/-- Every total up to `2 ^ 33` seconds is printed to the microsecond, and no further. -/
theorem sumSeconds_exact_iff (limit : Nat) :
    (∀ n ≤ limit, sumSeconds n = n) ↔ limit ≤ 2 ^ 33 * 1_000_000 := by
  have last : sumSeconds (2 ^ 33 * 1_000_000) = 2 ^ 33 * 1_000_000 := by decide +kernel
  have first : sumSeconds (2 ^ 33 * 1_000_000 + 1) ≠ 2 ^ 33 * 1_000_000 + 1 := by decide +kernel
  constructor
  · intro exact_
    by_contra above
    exact first (exact_ _ (by omega))
  · intro below n le
    rcases Nat.lt_or_eq_of_le (Nat.le_trans le below) with less | equal
    · exact sumSeconds_exact less
    · rw [equal, last]

end Portrelay.Metrics
