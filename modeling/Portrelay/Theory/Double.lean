/-
# Theory.Double -- binary64 arithmetic on non-negative numbers

Enough of IEEE 754 for an exporter: an integer as a double, a double divided by an
integer, and a double in fixed-point notation, each rounded to nearest with ties to
even.  The exponent is unbounded; nothing here reaches the subnormals or the infinities.
-/
import Mathlib.Algebra.GroupWithZero.Nat
import Mathlib.Data.List.Basic

namespace Portrelay.Theory

set_option autoImplicit false

/-- The integer nearest to `num / den`, the even one of two. -/
def roundHalfEven (num den : Nat) : Nat :=
  let quotient := num / den
  let rest := num % den
  if 2 * rest < den ∨ 2 * rest = den ∧ quotient % 2 = 0 then quotient else quotient + 1

/-- `mantissa * 2 ^ exponent`. -/
structure Double where
  mantissa : Nat
  exponent : Int
  deriving DecidableEq, Repr

namespace Double

def num (d : Double) : Nat := d.mantissa * 2 ^ d.exponent.toNat

def den (d : Double) : Nat := 2 ^ (-d.exponent).toNat

/-- The double nearest to `num / den`: 53 bits of the quotient. -/
def ofRatio (num den : Nat) : Double :=
  let least : Int := (Nat.log2 num : Int) - Nat.log2 den - 53
  let scaled (exponent : Int) : Nat × Nat :=
    (num * 2 ^ (-exponent).toNat, den * 2 ^ exponent.toNat)
  let exponent :=
    if 2 ^ 53 ≤ (scaled least).1 / (scaled least).2 then least + 1 else least
  ⟨roundHalfEven (scaled exponent).1 (scaled exponent).2, exponent⟩

def ofNat (n : Nat) : Double := ofRatio n 1

def divNat (d : Double) (n : Nat) : Double := ofRatio d.num (d.den * n)

/-- With `decimals` places after the point, in units of the last place. -/
def fixed (d : Double) (decimals : Nat) : Nat := roundHalfEven (d.num * 10 ^ decimals) d.den

end Double

end Portrelay.Theory
