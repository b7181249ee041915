/-
# Theory.Clock -- machines that may not let time pass while they have work

A `Clocked` machine reads the time in its steps, and says when work is due (`urgent`): time
passes, one unit a `tick`, only while none is.  So whatever must be done at a deadline is
done by it, and what has to be shown besides is that time can always go on.

* `within` -- what every step keeps, and a tick keeps while no work is due.
* `time_goes_on` -- time is never locked, if due work has a step that lowers a measure.
-/
import Portrelay.Theory.Machine

namespace Portrelay.Theory

set_option autoImplicit false

universe u v

/-- Steps that read the time, and the states in which work is due. -/
structure Clocked (σ : Type u) (α : Type v) where
  init : Nat → σ → Prop
  step : Nat → σ → α → Option σ
  urgent : Nat → σ → Bool

/-- A state at a time. -/
structure Timed (σ : Type u) where
  now : Nat
  state : σ

inductive TimedLabel (α : Type v)
  | act (a : α)
  | tick

namespace Clocked

variable {σ : Type u} {α : Type v} (C : Clocked σ α)

def timedStep (s : Timed σ) : TimedLabel α → Option (Timed σ)
  | .act a => (C.step s.now s.state a).map fun t => { s with state := t }
  | .tick => if C.urgent s.now s.state then none else some { s with now := s.now + 1 }

def timed : Machine (Timed σ) (TimedLabel α) := ⟨fun s => C.init s.now s.state, C.timedStep⟩

inductive TimedStepped (s : Timed σ) : TimedLabel α → Timed σ → Prop
  | act {a : α} {t : σ} (moved : C.step s.now s.state a = some t) :
      TimedStepped s (.act a) { s with state := t }
  | tick (idle : C.urgent s.now s.state = false) :
      TimedStepped s .tick { s with now := s.now + 1 }

variable {C}

theorem timedStep_stepped {s t : Timed σ} {label : TimedLabel α}
    (stepped : C.timed.step s label = some t) : C.TimedStepped s label t := by
  cases label with
  | act a =>
      obtain ⟨u, moved, rfl⟩ := Option.map_eq_some_iff.mp stepped
      exact .act moved
  | tick =>
      obtain ⟨idle, same⟩ := Option.ite_none_left_eq_some.mp stepped
      obtain rfl := Option.some.inj same
      exact .tick (Bool.eq_false_iff.mpr idle)

/-- True at the start, kept by the steps, and by the passing of time while no work is due. -/
theorem within {P : Nat → σ → Prop} (start : ∀ now s, C.init now s → P now s)
    (step : ∀ now s a t, P now s → C.step now s a = some t → P now t)
    (tick : ∀ now s, P now s → C.urgent now s = false → P (now + 1) s) {s : Timed σ}
    (reached : C.timed.Reachable s) : P s.now s.state := by
  refine C.timed.invariant (P := fun s => P s.now s.state) ?_ ?_ reached
  · intro s initial
    exact start s.now s.state initial
  · intro s label t _ holds stepped
    cases timedStep_stepped stepped with
    | act moved => exact step _ _ _ _ holds moved
    | tick idle => exact tick _ _ holds idle

/-- Due work has a step, and no endless row of them. -/
theorem tick_reachable {P : Nat → σ → Prop} {measure : Nat → σ → Nat}
    (due : ∀ now s, P now s → C.urgent now s = true →
      ∃ a t, C.step now s a = some t ∧ P now t ∧ measure now t < measure now s)
    (s : Timed σ) (holds : P s.now s.state) :
    ∃ labels t, C.timed.exec s labels = some t ∧ t.now = s.now + 1 := by
  obtain ⟨now, s⟩ := s
  induction bound : measure now s using Nat.strongRecOn generalizing s with
  | ind n ih =>
      cases urgent : C.urgent now s with
      | false =>
          refine ⟨[.tick], ⟨now + 1, s⟩, ?_, rfl⟩
          simp [Machine.exec_cons, timed, timedStep, urgent]
      | true =>
          obtain ⟨a, t, moved, kept, less⟩ := due now s holds urgent
          obtain ⟨labels, u, ran, later⟩ := ih (measure now t) (bound ▸ less) t kept rfl
          refine ⟨.act a :: labels, u, ?_, later⟩
          rw [Machine.exec_cons]
          simp only [timed, timedStep, moved, Option.map_some, Option.bind_some]
          exact ran

/-- Every run goes on to any later time. -/
theorem time_goes_on {P : Nat → σ → Prop} (measure : Nat → σ → Nat)
    (reachable : ∀ s, C.timed.Reachable s → P s.now s.state)
    (due : ∀ now s, P now s → C.urgent now s = true →
      ∃ a t, C.step now s a = some t ∧ P now t ∧ measure now t < measure now s)
    {s : Timed σ} (reached : C.timed.Reachable s) (n : Nat) :
    ∃ labels t, C.timed.exec s labels = some t ∧ t.now = s.now + n := by
  induction n with
  | zero => exact ⟨[], s, rfl, rfl⟩
  | succ n ih =>
      obtain ⟨front, m, first, here⟩ := ih
      obtain ⟨back, t, then_, later⟩ := tick_reachable due m (reachable m (reached.exec first))
      refine ⟨front ++ back, t, ?_, ?_⟩
      · rw [Machine.exec_append, first]
        exact then_
      · rw [later, here]
        rfl

end Clocked

end Portrelay.Theory
