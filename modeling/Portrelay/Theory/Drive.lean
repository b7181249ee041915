/-
# Theory.Drive -- a deterministic system driven to its end

`drive next fuel s` applies a partial step until it is stuck or the fuel is gone.
An invariant of the step holds where it ends (`drive_invariant`), and where a
measure goes down with every step, fuel above the measure drives the system to a
state with no step left (`drive_stuck`), the same for all such fuel (`drive_enough`).
`drive_of_path` is for a run that is known step by step.
-/
import Mathlib.Data.List.Basic
import Mathlib.Logic.Relation

namespace Portrelay.Theory

set_option autoImplicit false

universe u

variable {σ : Type u}

def drive (next : σ → Option σ) : Nat → σ → σ
  | 0, s => s
  | fuel + 1, s =>
      match next s with
      | none => s
      | some t => drive next fuel t

theorem drive_of_stuck {next : σ → Option σ} {s : σ} (stuck : next s = none) (fuel : Nat) :
    drive next fuel s = s := by
  cases fuel with
  | zero => rfl
  | succ fuel => rw [drive, stuck]

theorem drive_of_step {next : σ → Option σ} {s t : σ} (stepped : next s = some t) (fuel : Nat) :
    drive next (fuel + 1) s = drive next fuel t := by
  rw [drive, stepped]

/-- What holds at the start and is kept by a step holds where the system is driven to. -/
theorem drive_invariant {next : σ → Option σ} {P : σ → Prop}
    (kept : ∀ s t, P s → next s = some t → P t) (fuel : Nat) {s : σ} (holds : P s) :
    P (drive next fuel s) := by
  induction fuel generalizing s with
  | zero => exact holds
  | succ fuel ih =>
      cases stepped : next s with
      | none => rw [drive_of_stuck stepped]; exact holds
      | some t => rw [drive_of_step stepped]; exact ih (kept s t holds stepped)

/-- Fuel above a measure that every step lowers is enough. -/
theorem drive_stuck {next : σ → Option σ} {P : σ → Prop} {measure : σ → Nat}
    (kept : ∀ s t, P s → next s = some t → P t)
    (lower : ∀ s t, P s → next s = some t → measure t < measure s) {fuel : Nat} {s : σ}
    (holds : P s) (enough : measure s < fuel) : next (drive next fuel s) = none := by
  induction fuel generalizing s with
  | zero => exact absurd enough (Nat.not_lt_zero _)
  | succ fuel ih =>
      cases stepped : next s with
      | none => rw [drive_of_stuck stepped]; exact stepped
      | some t =>
          rw [drive_of_step stepped]
          have less := lower s t holds stepped
          exact ih (kept s t holds stepped) (by omega)

/-- More fuel changes nothing once the system is stuck. -/
theorem drive_enough {next : σ → Option σ} {fuel more : Nat} {s : σ}
    (stuck : next (drive next fuel s) = none) (le : fuel ≤ more) :
    drive next more s = drive next fuel s := by
  induction fuel generalizing more s with
  | zero => exact drive_of_stuck stuck more
  | succ fuel ih =>
      obtain ⟨more, rfl⟩ := Nat.exists_eq_succ_of_ne_zero (show more ≠ 0 by omega)
      cases stepped : next s with
      | none => rw [drive_of_stuck stepped, drive_of_stuck stepped]
      | some t =>
          rw [drive_of_step stepped] at stuck ⊢
          rw [drive_of_step stepped]
          exact ih stuck (by omega)

/-- Steps that lead to where there is none drive the system there. -/
theorem drive_of_path {next : σ → Option σ} {s t : σ}
    (path : Relation.ReflTransGen (fun s t => next s = some t) s t) (stuck : next t = none) :
    ∃ enough, ∀ fuel, enough ≤ fuel → drive next fuel s = t := by
  induction path using Relation.ReflTransGen.head_induction_on with
  | refl => exact ⟨0, fun fuel _ => drive_of_stuck stuck fuel⟩
  | head stepped _ ih =>
      obtain ⟨enough, drives⟩ := ih
      refine ⟨enough + 1, ?_⟩
      intro fuel le
      obtain ⟨fuel, rfl⟩ := Nat.exists_eq_succ_of_ne_zero (show fuel ≠ 0 by omega)
      rw [drive_of_step stepped]
      exact drives fuel (Nat.le_of_succ_le_succ le)

end Portrelay.Theory
