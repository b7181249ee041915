/-
# Theory.Rounding -- what rounding to nearest keeps

`roundHalfEven` and the doubles of `Theory.Double`, read as rational numbers.

* `roundHalfEven_le` -- rounding is monotone.
* `roundHalfEven_near` / `roundHalfEven_eq` -- within a half, and the only integer that is.
* `Double.ofRatio_spec` -- the exponent that leaves 53 bits of the quotient.
* `Double.ofRatio_le` / `Double.ofRatio_near` -- a double of a ratio is monotone in it,
  and off by at most half a unit of its last place.
* `Double.ofNat_value` -- an integer of 53 bits is its own double.
-/
import Portrelay.Theory.Double
import Mathlib.Algebra.Order.Field.Power
import Mathlib.Algebra.Order.Field.Rat
import Mathlib.Tactic.FieldSimp
import Mathlib.Tactic.Linarith
import Mathlib.Tactic.NormNum
import Mathlib.Tactic.Positivity
import Mathlib.Tactic.Ring

namespace Portrelay.Theory

set_option autoImplicit false

/-! ## Integers -/

/-- The smaller of two ratios rounds to no more. -/
theorem roundHalfEven_le {a b c d : Nat} (pos : 0 < b) (pos' : 0 < d) (le : a * d ≤ c * b) :
    roundHalfEven a b ≤ roundHalfEven c d := by
  have split : b * (a / b) + a % b = a := Nat.div_add_mod a b
  have split' : d * (c / d) + c % d = c := Nat.div_add_mod c d
  have rest : c % d < d := Nat.mod_lt _ pos'
  have quotients : a / b ≤ c / d := by
    rw [Nat.le_div_iff_mul_le pos']
    have down : a / b * b ≤ a := Nat.div_mul_le_self a b
    have scaled : a / b * d * b ≤ c * b := by
      calc a / b * d * b = a / b * b * d := by ring
        _ ≤ a * d := Nat.mul_le_mul_right d down
        _ ≤ c * b := le
    exact Nat.le_of_mul_le_mul_right scaled pos
  simp only [roundHalfEven]
  rcases Nat.lt_or_eq_of_le quotients with less | same
  · split <;> split <;> omega
  · -- the same quotient: the rests are in the order of the ratios
    have rests : a % b * d ≤ c % d * b := by
      have expanded : b * (a / b) * d + a % b * d ≤ d * (c / d) * b + c % d * b := by
        rw [← Nat.add_mul, ← Nat.add_mul, split, split']
        exact le
      have quotient : b * (a / b) * d = d * (c / d) * b := by rw [same]; ring
      omega
    by_cases down : 2 * (c % d) < d ∨ 2 * (c % d) = d ∧ c / d % 2 = 0
    · have bound : 2 * (a % b) * d ≤ 2 * (c % d) * b := by
        calc 2 * (a % b) * d = 2 * (a % b * d) := by ring
          _ ≤ 2 * (c % d * b) := Nat.mul_le_mul_left 2 rests
          _ = 2 * (c % d) * b := by ring
      have down' : 2 * (a % b) < b ∨ 2 * (a % b) = b ∧ a / b % 2 = 0 := by
        rcases down with below | ⟨tie, even⟩
        · left
          have strict : 2 * (a % b) * d < b * d := by
            calc 2 * (a % b) * d ≤ 2 * (c % d) * b := bound
              _ < d * b := Nat.mul_lt_mul_of_pos_right below pos
              _ = b * d := Nat.mul_comm d b
          exact Nat.lt_of_mul_lt_mul_right strict
        · rw [tie, Nat.mul_comm d b] at bound
          have most := Nat.le_of_mul_le_mul_right bound pos'
          rw [same]
          omega
      rw [if_pos down, if_pos down']
      exact quotients
    · rw [if_neg down]
      split <;> omega

/-- Twice the error is at most the denominator. -/
theorem roundHalfEven_near_mul (num den : Nat) (pos : 0 < den) :
    2 * (roundHalfEven num den * den) ≤ 2 * num + den ∧
      2 * num ≤ 2 * (roundHalfEven num den * den) + den := by
  have split : den * (num / den) + num % den = num := Nat.div_add_mod num den
  have rest : num % den < den := Nat.mod_lt _ pos
  simp only [roundHalfEven]
  split
  · next down =>
      rw [Nat.mul_comm (num / den)]
      omega
  · next up =>
      rw [Nat.add_mul, Nat.mul_comm (num / den)]
      omega

/-- `roundHalfEven_le` on the ratios themselves. -/
theorem roundHalfEven_mono {a b c d : Nat} (pos : 0 < b) (pos' : 0 < d)
    (le : (a : ℚ) / b ≤ c / d) : roundHalfEven a b ≤ roundHalfEven c d := by
  have below : (0 : ℚ) < b := by exact_mod_cast pos
  have below' : (0 : ℚ) < d := by exact_mod_cast pos'
  rw [div_le_div_iff₀ below below'] at le
  exact roundHalfEven_le pos pos' (by exact_mod_cast le)

theorem roundHalfEven_one (n : Nat) : roundHalfEven n 1 = n := by
  rw [roundHalfEven, Nat.div_one, Nat.mod_one]
  exact if_pos (Or.inl (by omega))

theorem roundHalfEven_le_of_le {num den n : Nat} (pos : 0 < den) (le : (num : ℚ) / den ≤ n) :
    roundHalfEven num den ≤ n := by
  have rounded := roundHalfEven_mono pos Nat.one_pos (a := num) (c := n) (by simpa using le)
  rwa [roundHalfEven_one] at rounded

theorem le_roundHalfEven_of_le {num den n : Nat} (pos : 0 < den) (le : (n : ℚ) ≤ num / den) :
    n ≤ roundHalfEven num den := by
  have rounded := roundHalfEven_mono Nat.one_pos pos (a := n) (c := num) (by simpa using le)
  rwa [roundHalfEven_one] at rounded

theorem roundHalfEven_near (num : Nat) {den : Nat} (pos : 0 < den) :
    |(roundHalfEven num den : ℚ) - num / den| ≤ 1 / 2 := by
  obtain ⟨below, above⟩ := roundHalfEven_near_mul num den pos
  have pos' : (0 : ℚ) < den := by exact_mod_cast pos
  have below' : 2 * ((roundHalfEven num den : ℚ) * den) ≤ 2 * num + den := by exact_mod_cast below
  have above' : 2 * (num : ℚ) ≤ 2 * (roundHalfEven num den * den) + den := by exact_mod_cast above
  have whole : (num : ℚ) / den * den = num := by field_simp
  rw [abs_le]
  constructor
  · have scaled : (num / den : ℚ) * den ≤ (roundHalfEven num den + 1 / 2) * den := by
      rw [whole]
      linarith
    linarith only [le_of_mul_le_mul_right scaled pos']
  · have scaled : ((roundHalfEven num den : ℚ) - 1 / 2) * den ≤ (num / den) * den := by
      rw [whole]
      linarith
    linarith only [le_of_mul_le_mul_right scaled pos']

/-- An integer less than a half away is the one rounded to. -/
theorem roundHalfEven_eq {num den n : Nat} (pos : 0 < den)
    (close : |(num : ℚ) / den - n| < 1 / 2) : roundHalfEven num den = n := by
  have near := abs_le.mp (roundHalfEven_near num pos)
  have close := abs_lt.mp close
  have above : (roundHalfEven num den : ℚ) < n + 1 := by linarith only [near.2, close.2]
  have below : (n : ℚ) < roundHalfEven num den + 1 := by linarith only [near.1, close.1]
  have above' : roundHalfEven num den < n + 1 := by exact_mod_cast above
  have below' : n < roundHalfEven num den + 1 := by exact_mod_cast below
  omega

namespace Double

/-! ## Doubles -/

/-- The number a double is. -/
def value (d : Double) : ℚ := d.mantissa * (2 : ℚ) ^ d.exponent

theorem den_pos (d : Double) : 0 < d.den := Nat.two_pow_pos _

/-- A power of two as a ratio of two of them, one of which is one. -/
theorem two_zpow (e : Int) : (2 : ℚ) ^ e = 2 ^ e.toNat / 2 ^ (-e).toNat := by
  rw [eq_div_iff (by positivity), ← zpow_natCast, ← zpow_natCast, ← zpow_add₀ (by norm_num)]
  congr 1
  omega

theorem num_div_den (d : Double) : (d.num : ℚ) / d.den = d.value := by
  rw [value, two_zpow, num, den]
  push_cast
  ring

/-- What `num / den` is in units of `2 ^ e`. -/
theorem scaled_eq (num den : Nat) (e : Int) :
    ((num * 2 ^ (-e).toNat : Nat) : ℚ) / (den * 2 ^ e.toNat : Nat) = num / den / (2 : ℚ) ^ e := by
  rw [two_zpow]
  push_cast
  field_simp

theorem two_zpow_add (a b : Int) : (2 : ℚ) ^ a * 2 ^ b = 2 ^ (a + b) := (zpow_add₀ (by norm_num) a b).symm

/-- A ratio lies between the powers that its terms' leading ones give. -/
theorem ratio_bounds {num den : Nat} (some_ : 0 < num) (pos : 0 < den) :
    (2 : ℚ) ^ ((Nat.log2 num : Int) - Nat.log2 den - 1) ≤ num / den ∧
      (num : ℚ) / den < 2 ^ ((Nat.log2 num : Int) - Nat.log2 den + 1) := by
  have pos' : (0 : ℚ) < den := by exact_mod_cast pos
  have numLeast : (2 : ℚ) ^ (Nat.log2 num : Int) ≤ num := by
    rw [zpow_natCast]
    exact_mod_cast Nat.log2_self_le (by omega)
  have numMost : (num : ℚ) < 2 ^ ((Nat.log2 num : Int) + 1) := by
    have most : num < 2 ^ (Nat.log2 num + 1) := Nat.lt_log2_self
    have cast : (num : ℚ) < 2 ^ (Nat.log2 num + 1) := by exact_mod_cast most
    exact_mod_cast cast
  have denLeast : (2 : ℚ) ^ (Nat.log2 den : Int) ≤ den := by
    rw [zpow_natCast]
    exact_mod_cast Nat.log2_self_le (by omega)
  have denMost : (den : ℚ) < 2 ^ ((Nat.log2 den : Int) + 1) := by
    have most : den < 2 ^ (Nat.log2 den + 1) := Nat.lt_log2_self
    have cast : (den : ℚ) < 2 ^ (Nat.log2 den + 1) := by exact_mod_cast most
    exact_mod_cast cast
  constructor
  · rw [le_div_iff₀ pos']
    calc (2 : ℚ) ^ ((Nat.log2 num : Int) - Nat.log2 den - 1) * den
        ≤ 2 ^ ((Nat.log2 num : Int) - Nat.log2 den - 1) * 2 ^ ((Nat.log2 den : Int) + 1) :=
          mul_le_mul_of_nonneg_left denMost.le (by positivity)
      _ = 2 ^ (Nat.log2 num : Int) := by
          rw [two_zpow_add]
          congr 1
          omega
      _ ≤ num := numLeast
  · rw [div_lt_iff₀ pos']
    calc (num : ℚ) < 2 ^ ((Nat.log2 num : Int) + 1) := numMost
      _ = 2 ^ ((Nat.log2 num : Int) - Nat.log2 den + 1) * 2 ^ (Nat.log2 den : Int) := by
          rw [two_zpow_add]
          congr 1
          omega
      _ ≤ 2 ^ ((Nat.log2 num : Int) - Nat.log2 den + 1) * den :=
          mul_le_mul_of_nonneg_left denLeast (by positivity)

/-- The test that picks the exponent, on the numbers themselves. -/
theorem wide_iff (num : Nat) {den : Nat} (pos : 0 < den) (e : Int) :
    2 ^ 53 ≤ (num * 2 ^ (-e).toNat) / (den * 2 ^ e.toNat) ↔
      2 ^ 53 * (2 : ℚ) ^ e ≤ num / den := by
  have below : 0 < den * 2 ^ e.toNat := Nat.mul_pos pos (Nat.two_pow_pos _)
  have below' : (0 : ℚ) < (den * 2 ^ e.toNat : Nat) := by exact_mod_cast below
  have unit : (0 : ℚ) < 2 ^ e := by positivity
  rw [Nat.le_div_iff_mul_le below, ← le_div_iff₀ unit, ← scaled_eq, le_div_iff₀ below']
  norm_cast

/-- A double of a ratio keeps the 53 bits below its leading one. -/
theorem ofRatio_spec {num den : Nat} (some_ : 0 < num) (pos : 0 < den) :
    ∃ e : Int, ofRatio num den =
        ⟨roundHalfEven (num * 2 ^ (-e).toNat) (den * 2 ^ e.toNat), e⟩ ∧
      2 ^ 52 * (2 : ℚ) ^ e ≤ num / den ∧ (num : ℚ) / den < 2 ^ 53 * (2 : ℚ) ^ e := by
  obtain ⟨least, most⟩ := ratio_bounds some_ pos
  have scale : ∀ (n : Nat) (e : Int), (2 : ℚ) ^ n * 2 ^ e = 2 ^ ((n : Int) + e) := by
    intro n e
    rw [← zpow_natCast, two_zpow_add]
  by_cases wide : 2 ^ 53 * (2 : ℚ) ^ ((Nat.log2 num : Int) - Nat.log2 den - 53) ≤ num / den
  · refine ⟨(Nat.log2 num : Int) - Nat.log2 den - 53 + 1, ?_, ?_, ?_⟩
    · simp only [ofRatio]
      rw [if_pos ((wide_iff num pos _).mpr wide)]
    · rw [scale] at wide ⊢
      convert wide using 2
      push_cast
      omega
    · rw [scale]
      convert most using 2
      push_cast
      omega
  · refine ⟨(Nat.log2 num : Int) - Nat.log2 den - 53, ?_, ?_, not_le.mp wide⟩
    · simp only [ofRatio]
      rw [if_neg fun wide' => wide ((wide_iff num pos _).mp wide')]
    · rw [scale]
      convert least using 2
      push_cast
      omega

/-- Off by at most half a unit of the last place. -/
theorem ofRatio_near {num den : Nat} (some_ : 0 < num) (pos : 0 < den) :
    |(ofRatio num den).value - num / den| ≤ (2 : ℚ) ^ (ofRatio num den).exponent / 2 := by
  obtain ⟨e, same, -, -⟩ := ofRatio_spec some_ pos
  have unit : (0 : ℚ) < 2 ^ e := by positivity
  have near := roundHalfEven_near (num * 2 ^ (-e).toNat)
    (show 0 < den * 2 ^ e.toNat from Nat.mul_pos pos (Nat.two_pow_pos _))
  rw [scaled_eq] at near
  rw [same, value]
  have scaled : |((roundHalfEven (num * 2 ^ (-e).toNat) (den * 2 ^ e.toNat) : ℚ) -
      num / den / 2 ^ e) * 2 ^ e| ≤ 1 / 2 * 2 ^ e := by
    rw [abs_mul, abs_of_pos unit]
    exact mul_le_mul_of_nonneg_right near unit.le
  have expand : ((roundHalfEven (num * 2 ^ (-e).toNat) (den * 2 ^ e.toNat) : ℚ) -
      num / den / 2 ^ e) * 2 ^ e =
      roundHalfEven (num * 2 ^ (-e).toNat) (den * 2 ^ e.toNat) * 2 ^ e - num / den := by
    field_simp
  rw [expand] at scaled
  calc _ ≤ 1 / 2 * (2 : ℚ) ^ e := scaled
    _ = 2 ^ e / 2 := by ring

/-- Off by at most one part in `2 ^ 53`. -/
theorem ofRatio_near_rel {num den : Nat} (some_ : 0 < num) (pos : 0 < den) :
    |(ofRatio num den).value - num / den| ≤ (num : ℚ) / den / 2 ^ 53 := by
  have near := ofRatio_near some_ pos
  obtain ⟨e, same, least, -⟩ := ofRatio_spec some_ pos
  rw [same] at near ⊢
  refine le_trans near ?_
  show (2 : ℚ) ^ e / 2 ≤ num / den / 2 ^ 53
  linarith

theorem value_nonneg (d : Double) : 0 ≤ d.value := by
  have unit : (0 : ℚ) < 2 ^ d.exponent := by positivity
  exact mul_nonneg (by positivity) unit.le

theorem ofRatio_zero {den : Nat} (pos : 0 < den) : (ofRatio 0 den).value = 0 := by
  have rounded : ∀ below, 0 < below → roundHalfEven 0 below = 0 := by
    intro below some_
    rw [roundHalfEven, Nat.zero_div, Nat.zero_mod]
    exact if_pos (Or.inl (by omega))
  have none_ : (ofRatio 0 den).mantissa = 0 := by
    simp only [ofRatio, Nat.zero_mul]
    exact rounded _ (Nat.mul_pos pos (Nat.two_pow_pos _))
  rw [value, none_, Nat.cast_zero, zero_mul]

/-- A larger ratio makes no smaller a double. -/
theorem ofRatio_le {a b c d : Nat} (pos : 0 < b) (pos' : 0 < d) (le : (a : ℚ) / b ≤ c / d) :
    (ofRatio a b).value ≤ (ofRatio c d).value := by
  rcases Nat.eq_zero_or_pos a with rfl | some_
  · rw [ofRatio_zero pos]
    exact value_nonneg _
  have below : (0 : ℚ) < b := by exact_mod_cast pos
  have below' : (0 : ℚ) < d := by exact_mod_cast pos'
  have more : (0 : ℚ) < a / b := div_pos (by exact_mod_cast some_) below
  have some' : 0 < c := by
    by_contra none_
    obtain rfl : c = 0 := by omega
    rw [Nat.cast_zero, zero_div] at le
    exact absurd more (not_lt.mpr le)
  obtain ⟨e, same, least, most⟩ := ofRatio_spec some_ pos
  obtain ⟨e', same', least', most'⟩ := ofRatio_spec some' pos'
  have unit : (0 : ℚ) < 2 ^ e := by positivity
  have unit' : (0 : ℚ) < 2 ^ e' := by positivity
  have whole : 0 < b * 2 ^ e.toNat := Nat.mul_pos pos (Nat.two_pow_pos _)
  have whole' : 0 < d * 2 ^ e'.toNat := Nat.mul_pos pos' (Nat.two_pow_pos _)
  rw [same, same']
  show (roundHalfEven _ _ : ℚ) * 2 ^ e ≤ roundHalfEven _ _ * 2 ^ e'
  rcases lt_trichotomy e e' with less | equal | greater
  · -- all of the smaller exponent's mantissas lie below the larger one's
    have high : roundHalfEven (a * 2 ^ (-e).toNat) (b * 2 ^ e.toNat) ≤ 2 ^ 53 := by
      refine roundHalfEven_le_of_le whole ?_
      rw [scaled_eq, div_le_iff₀ unit]
      push_cast
      exact most.le
    have low : 2 ^ 52 ≤ roundHalfEven (c * 2 ^ (-e').toNat) (d * 2 ^ e'.toNat) := by
      refine le_roundHalfEven_of_le whole' ?_
      rw [scaled_eq, le_div_iff₀ unit']
      push_cast
      exact least'
    have double : (2 : ℚ) * 2 ^ e ≤ 2 ^ e' := by
      have next : (2 : ℚ) ^ (1 + e) ≤ 2 ^ e' := zpow_le_zpow_right₀ (by norm_num) (by omega)
      rwa [← two_zpow_add, zpow_one] at next
    have high' : (roundHalfEven (a * 2 ^ (-e).toNat) (b * 2 ^ e.toNat) : ℚ) ≤ 2 ^ 53 := by
      exact_mod_cast high
    have low' : (2 : ℚ) ^ 52 ≤ roundHalfEven (c * 2 ^ (-e').toNat) (d * 2 ^ e'.toNat) := by
      exact_mod_cast low
    calc (roundHalfEven (a * 2 ^ (-e).toNat) (b * 2 ^ e.toNat) : ℚ) * 2 ^ e
        ≤ 2 ^ 53 * 2 ^ e := mul_le_mul_of_nonneg_right high' unit.le
      _ = 2 ^ 52 * (2 * 2 ^ e) := by ring
      _ ≤ 2 ^ 52 * 2 ^ e' := mul_le_mul_of_nonneg_left double (by positivity)
      _ ≤ _ := mul_le_mul_of_nonneg_right low' unit'.le
  · subst equal
    refine mul_le_mul_of_nonneg_right ?_ unit.le
    have rounded := roundHalfEven_mono whole whole' (a := a * 2 ^ (-e).toNat)
      (c := c * 2 ^ (-e).toNat) (by rw [scaled_eq, scaled_eq]; exact div_le_div_of_nonneg_right le unit.le)
    exact_mod_cast rounded
  · -- the larger ratio has no smaller an exponent
    have above : (2 : ℚ) ^ (52 + e) < 2 ^ (53 + e') := by
      rw [← two_zpow_add, ← two_zpow_add]
      calc (2 : ℚ) ^ (52 : Int) * 2 ^ e = 2 ^ 52 * 2 ^ e := by norm_num
        _ ≤ a / b := least
        _ ≤ c / d := le
        _ < 2 ^ 53 * 2 ^ e' := most'
        _ = 2 ^ (53 : Int) * 2 ^ e' := by norm_num
    have exponents := (zpow_lt_zpow_iff_right₀ (by norm_num)).mp above
    omega

/-- An integer of 53 bits is its own double. -/
theorem ofNat_value {n : Nat} (small : n < 2 ^ 53) : (ofNat n).value = n := by
  rcases Nat.eq_zero_or_pos n with rfl | some_
  · rw [ofNat, ofRatio_zero Nat.one_pos, Nat.cast_zero]
  obtain ⟨e, same, least, -⟩ := ofRatio_spec some_ Nat.one_pos
  have small' : (n : ℚ) < 2 ^ 53 := by exact_mod_cast small
  have whole : e ≤ 0 := by
    have bound : (2 : ℚ) ^ (52 + e) < 2 ^ (53 : Int) := by
      calc (2 : ℚ) ^ (52 + e) = 2 ^ 52 * 2 ^ e := by rw [← two_zpow_add]; norm_num
        _ ≤ (n : ℚ) / (1 : Nat) := least
        _ = n := by simp
        _ < 2 ^ 53 := small'
        _ = 2 ^ (53 : Int) := by norm_num
    have exponents := (zpow_lt_zpow_iff_right₀ (by norm_num)).mp bound
    omega
  have unscaled : 1 * 2 ^ e.toNat = 1 := by
    rw [Int.toNat_of_nonpos whole, Nat.pow_zero]
  rw [ofNat, same, unscaled, roundHalfEven_one]
  show ((n * 2 ^ (-e).toNat : Nat) : ℚ) * 2 ^ e = n
  rw [two_zpow, Int.toNat_of_nonpos whole]
  push_cast
  field_simp

/-! ## Division and printing -/

theorem divNat_ratio (d : Double) (n : Nat) : (d.num : ℚ) / (d.den * n : Nat) = d.value / n := by
  rw [← num_div_den]
  push_cast
  rw [div_div]

theorem ofNat_le {m n : Nat} (le : m ≤ n) : (ofNat m).value ≤ (ofNat n).value := by
  have le' : (m : ℚ) ≤ n := by exact_mod_cast le
  exact ofRatio_le Nat.one_pos Nat.one_pos (by simpa using le')

theorem divNat_le {d d' : Double} (le : d.value ≤ d'.value) {n : Nat} (pos : 0 < n) :
    (d.divNat n).value ≤ (d'.divNat n).value := by
  have pos' : (0 : ℚ) < n := by exact_mod_cast pos
  refine ofRatio_le (Nat.mul_pos d.den_pos pos) (Nat.mul_pos d'.den_pos pos) ?_
  rw [divNat_ratio, divNat_ratio]
  exact div_le_div_of_nonneg_right le pos'.le

theorem fixed_ratio (d : Double) (decimals : Nat) :
    ((d.num * 10 ^ decimals : Nat) : ℚ) / d.den = d.value * 10 ^ decimals := by
  rw [← num_div_den]
  push_cast
  ring

theorem fixed_le {d d' : Double} (le : d.value ≤ d'.value) (decimals : Nat) :
    d.fixed decimals ≤ d'.fixed decimals := by
  refine roundHalfEven_mono d.den_pos d'.den_pos ?_
  rw [fixed_ratio, fixed_ratio]
  exact mul_le_mul_of_nonneg_right le (by positivity)

theorem fixed_near (d : Double) (decimals : Nat) :
    |(d.fixed decimals : ℚ) - d.value * 10 ^ decimals| ≤ 1 / 2 := by
  rw [← fixed_ratio]
  exact roundHalfEven_near _ d.den_pos

/-- The unit of the last place of a small ratio is small. -/
theorem ofRatio_exponent_le {num den : Nat} (some_ : 0 < num) (pos : 0 < den) {k : Int}
    (small : (num : ℚ) / den < 2 ^ (52 + k + 1)) : (ofRatio num den).exponent ≤ k := by
  obtain ⟨e, same, least, -⟩ := ofRatio_spec some_ pos
  rw [same]
  show e ≤ k
  have bound : (2 : ℚ) ^ (52 + e) < 2 ^ (52 + k + 1) := by
    calc (2 : ℚ) ^ (52 + e) = 2 ^ 52 * 2 ^ e := by rw [← two_zpow_add]; norm_num
      _ ≤ num / den := least
      _ < _ := small
  have exponents := (zpow_lt_zpow_iff_right₀ (by norm_num)).mp bound
  omega

end Double

end Portrelay.Theory
