/-
# Theory.Instant -- points in time on a clock of 64-bit seconds

An instant is a signed 64-bit number of seconds and the nanoseconds after them, as
`clock_gettime` gives it; a duration is a number of nanoseconds.  Adding one to the other
is checked.

* `total_of_checkedAdd` -- a sum that is representable is exact.
* `checkedAdd_eq_none_iff` -- it is not, if and only if it comes to 2^63 seconds.
-/
import Mathlib.Algebra.GroupWithZero.Nat
import Mathlib.Algebra.Ring.Int.Defs

namespace Portrelay.Theory

set_option autoImplicit false

def NANOS_PER_SEC : Nat := 1_000_000_000

structure Instant where
  secs : Int
  nanos : Nat
  low : -2 ^ 63 ≤ secs
  high : secs < 2 ^ 63
  fraction : nanos < NANOS_PER_SEC
  deriving DecidableEq

namespace Instant

/-- The nanoseconds from second 0. -/
def total (t : Instant) : Int := t.secs * NANOS_PER_SEC + t.nanos

theorem later_low (t : Instant) {secs : Int} (le : t.secs ≤ secs) : -2 ^ 63 ≤ secs :=
  Int.le_trans t.low le

theorem carry_lt (t : Instant) (duration : Nat) :
    t.nanos + duration % NANOS_PER_SEC - NANOS_PER_SEC < NANOS_PER_SEC := by
  have fraction := t.fraction
  have rest : duration % NANOS_PER_SEC < NANOS_PER_SEC := Nat.mod_lt _ (by decide)
  omega

/-- The seconds are added first, then what the nanoseconds carry. -/
def checkedAdd (t : Instant) (duration : Nat) : Option Instant :=
  if high : t.secs + (duration / NANOS_PER_SEC : Nat) < 2 ^ 63 then
    if fraction : t.nanos + duration % NANOS_PER_SEC < NANOS_PER_SEC then
      some ⟨t.secs + (duration / NANOS_PER_SEC : Nat), t.nanos + duration % NANOS_PER_SEC,
        t.later_low (Int.le_add_of_nonneg_right (Int.natCast_nonneg _)), high, fraction⟩
    else if high : t.secs + ((duration / NANOS_PER_SEC + 1 : Nat) : Int) < 2 ^ 63 then
      some ⟨t.secs + ((duration / NANOS_PER_SEC + 1 : Nat) : Int),
        t.nanos + duration % NANOS_PER_SEC - NANOS_PER_SEC,
        t.later_low (Int.le_add_of_nonneg_right (Int.natCast_nonneg _)), high,
        t.carry_lt duration⟩
    else none
  else none

/-- A sum that is representable is exact. -/
theorem total_of_checkedAdd {t later : Instant} {duration : Nat}
    (added : t.checkedAdd duration = some later) : later.total = t.total + duration := by
  have parts := Nat.div_add_mod duration NANOS_PER_SEC
  unfold checkedAdd at added
  split at added <;> [skip; cases added]
  split at added
  · obtain rfl := Option.some.inj added
    simp only [total, NANOS_PER_SEC] at parts ⊢
    omega
  · split at added <;> [skip; cases added]
    obtain rfl := Option.some.inj added
    simp only [total, NANOS_PER_SEC] at parts ⊢
    rename_i above _
    simp only [NANOS_PER_SEC] at above
    omega

theorem checkedAdd_eq_none_iff (t : Instant) (duration : Nat) :
    t.checkedAdd duration = none ↔ 2 ^ 63 * NANOS_PER_SEC ≤ t.total + duration := by
  have parts := Nat.div_add_mod duration NANOS_PER_SEC
  have rest : duration % NANOS_PER_SEC < NANOS_PER_SEC := Nat.mod_lt _ (by decide)
  have fraction := t.fraction
  simp only [total, NANOS_PER_SEC] at parts rest fraction ⊢
  by_cases high : t.secs + (duration / NANOS_PER_SEC : Nat) < 2 ^ 63
  · by_cases small : t.nanos + duration % NANOS_PER_SEC < NANOS_PER_SEC
    · refine iff_of_false ?_ ?_
      · rw [checkedAdd, dif_pos high, dif_pos small]
        exact Option.some_ne_none _
      · simp only [NANOS_PER_SEC] at high small
        omega
    · by_cases carried : t.secs + ((duration / NANOS_PER_SEC + 1 : Nat) : Int) < 2 ^ 63
      · refine iff_of_false ?_ ?_
        · rw [checkedAdd, dif_pos high, dif_neg small, dif_pos carried]
          exact Option.some_ne_none _
        · simp only [NANOS_PER_SEC] at carried small
          omega
      · refine iff_of_true ?_ ?_
        · rw [checkedAdd, dif_pos high, dif_neg small, dif_neg carried]
        · simp only [NANOS_PER_SEC] at carried small
          omega
  · refine iff_of_true ?_ ?_
    · rw [checkedAdd, dif_neg high]
    · simp only [NANOS_PER_SEC] at high
      omega

end Instant

end Portrelay.Theory
