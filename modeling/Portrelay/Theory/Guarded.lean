/-
# Theory.Guarded -- results that are values where a condition holds

Computations in `Except` whose steps are guards.  `of_bind_ok` and `then_ok_iff` read a
value back through a sequence; `Guarded` is the two-sided form for one error that stands
for a broken precondition, with rules for sequences of such steps.

* `Guarded.bind` -- the conditions of two steps in sequence are both.
* `Guarded.of_bind` -- a sequence that does not fail so meets the condition of its first step.
-/
import Mathlib.Logic.Basic

namespace Portrelay.Theory

set_option autoImplicit false

universe u

variable {ε α β : Type u} {first : Except ε α} {next : α → Except ε β}

/-! ## Values -/

/-- What a value was computed from. -/
theorem of_bind_ok {result : β} (run : (first >>= next) = .ok result) :
    ∃ value, first = .ok value ∧ next value = .ok result := by
  cases first with
  | error stop => cases run
  | ok value => exact ⟨value, rfl, run⟩

/-- A sequence goes on with the value of its first step. -/
theorem bind_of_ok (value : α) (run : first = .ok value) : (first >>= next) = next value := by
  rw [run]
  rfl

theorem ok_ne_error (value : α) (stop : ε) : (.ok value : Except ε α) ≠ .error stop := by
  intro impossible
  cases impossible

/-- What ends in a failure has no value, whatever came first. -/
theorem toOption_stop (stop : ε) :
    (first >>= fun _ => (.error stop : Except ε β)).toOption = none := by
  cases first with
  | error other => rfl
  | ok value => rfl

theorem of_map_ok {f : α → β} {result : β} (run : first.map f = .ok result) :
    ∃ value, first = .ok value ∧ f value = result := by
  cases first with
  | error stop => cases run
  | ok value => exact ⟨value, rfl, Except.ok.inj run⟩

theorem then_ok_iff {check rest : Except ε PUnit} :
    (do check; rest) = .ok ⟨⟩ ↔ check = .ok ⟨⟩ ∧ rest = .ok ⟨⟩ := by
  cases check with
  | error e =>
      exact iff_of_false (fun impossible => by cases impossible) (fun both => by cases both.1)
  | ok _ =>
      show rest = .ok ⟨⟩ ↔ _
      exact (and_iff_right rfl).symm

/-! ## Guards -/

/-- A value where `fits` holds, and the error `stop` where it does not. -/
def Guarded (stop : ε) (result : Except ε α) (fits : Prop) : Prop :=
  (fits ∧ ∃ value, result = .ok value) ∨ (¬ fits ∧ result = .error stop)

variable {stop : ε} {fits fits' : Prop}

theorem Guarded.map (guarded : Guarded stop first fits) (f : α → β) :
    Guarded stop (first.map f) fits := by
  rcases guarded with ⟨here, value, run⟩ | ⟨no, run⟩
  · exact Or.inl ⟨here, f value, by rw [run]; rfl⟩
  · exact Or.inr ⟨no, by rw [run]; rfl⟩

theorem Guarded.returns (guarded : Guarded stop first fits) (f : α → β) :
    Guarded stop (do let value ← first; return f value) fits := by
  rcases guarded with ⟨here, value, run⟩ | ⟨no, run⟩
  · exact Or.inl ⟨here, f value, by rw [run]; rfl⟩
  · exact Or.inr ⟨no, by rw [run]; rfl⟩

theorem Guarded.bind (guarded : Guarded stop first fits)
    (later : ∀ value, Guarded stop (next value) fits') :
    Guarded stop (first >>= next) (fits ∧ fits') := by
  rcases guarded with ⟨here, value, run⟩ | ⟨no, run⟩
  · rw [run]
    rcases later value with ⟨there, result, run'⟩ | ⟨no, run'⟩
    · exact Or.inl ⟨⟨here, there⟩, result, run'⟩
    · exact Or.inr ⟨fun both => no both.2, run'⟩
  · exact Or.inr ⟨fun both => no both.1, by rw [run]; rfl⟩

/-- What follows a guarded step fails like it only where the step's condition holds. -/
theorem Guarded.of_bind (guarded : Guarded stop first fits)
    (safe : (first >>= next) ≠ .error stop) : fits ∧ ∃ value, next value ≠ .error stop := by
  rcases guarded with ⟨here, value, run⟩ | ⟨-, run⟩
  · rw [run] at safe
    exact ⟨here, value, safe⟩
  · rw [run] at safe
    exact absurd rfl safe

theorem Guarded.ne_error (guarded : Guarded stop first fits) (here : fits) :
    first ≠ .error stop := by
  rcases guarded with ⟨-, value, run⟩ | ⟨no, -⟩
  · rw [run]
    exact ok_ne_error value stop
  · exact absurd here no

theorem bind_ne_error_of_ok (safe : first ≠ .error stop)
    (later : ∀ value, first = .ok value → next value ≠ .error stop) :
    (first >>= next) ≠ .error stop := by
  cases first with
  | ok value => exact later value rfl
  | error other =>
      intro same
      exact safe (congrArg _ (Except.error.inj same))

theorem bind_ne_error (safe : first ≠ .error stop) (later : ∀ value, next value ≠ .error stop) :
    (first >>= next) ≠ .error stop :=
  bind_ne_error_of_ok safe fun value _ => later value

theorem mapM_ne_error {read : α → Except ε β} (safe : ∀ value, read value ≠ .error stop)
    (option : Option α) : option.mapM read ≠ .error stop := by
  cases option with
  | none => exact ok_ne_error none stop
  | some value =>
      apply bind_ne_error (safe value)
      intro read
      exact ok_ne_error (some read) stop

end Portrelay.Theory
