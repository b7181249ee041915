/-
# Theory.Machine -- labelled step machines and what holds along their runs

A `Machine` says where a run may start and what one labelled step does; `none`
means that the label is not enabled in that state.  Nothing here is about any
particular program.

* `Machine.invariant` -- the induction every safety result is an instance of:
  true at the start and kept by a step, hence true of every reachable state.
* `Machine.Along` / `Machine.Guarded` -- a state predicate at every state of one
  run, and a condition on every step of that run (the state before it and its
  label).  `along_iff_guarded` turns an exact one-step condition into an exact
  condition on whole runs, and `along_of_guarded` is its one-sided form.
* `exec_append`, `reachable_iff_exec`, `Leads` -- runs as label lists.
* `exec_filterMap` -- a run of one machine seen as a run of another.
-/
import Mathlib.Data.List.Basic

namespace Portrelay.Theory

set_option autoImplicit false

universe u v

/-- Where runs start, and what one labelled step does. -/
structure Machine (σ : Type u) (α : Type v) where
  init : σ → Prop
  step : σ → α → Option σ

namespace Machine

variable {σ : Type u} {α : Type v} (M : Machine σ α)

/-- The state after a list of labels, if each was enabled in its turn. -/
def exec : σ → List α → Option σ
  | s, [] => some s
  | s, a :: rest => (M.step s a).bind fun t => exec t rest

/-- The states some run from a start state ends in. -/
inductive Reachable : σ → Prop
  | start {s : σ} (initial : M.init s) : Reachable s
  | step {s t : σ} {a : α} (before : Reachable s) (stepped : M.step s a = some t) : Reachable t

@[simp] theorem exec_nil (s : σ) : M.exec s [] = some s := rfl

theorem exec_cons (s : σ) (a : α) (rest : List α) :
    M.exec s (a :: rest) = (M.step s a).bind fun t => M.exec t rest := rfl

theorem exec_cons_eq_some {s t : σ} {a : α} {rest : List α} :
    M.exec s (a :: rest) = some t ↔ ∃ m, M.step s a = some m ∧ M.exec m rest = some t := by
  rw [exec_cons, Option.bind_eq_some_iff]

theorem exec_append (s : σ) (front back : List α) :
    M.exec s (front ++ back) = (M.exec s front).bind fun t => M.exec t back := by
  induction front generalizing s with
  | nil => rfl
  | cons a front ih =>
      simp only [List.cons_append, exec_cons]
      cases M.step s a with
      | none => rfl
      | some m => simpa using ih m

/-- True at the start and kept by every step, hence true of every reachable state. -/
theorem invariant {P : σ → Prop} (initial : ∀ s, M.init s → P s)
    (kept : ∀ s a t, M.Reachable s → P s → M.step s a = some t → P t) {s : σ}
    (reached : M.Reachable s) : P s := by
  induction reached with
  | start h => exact initial _ h
  | step before stepped ih => exact kept _ _ _ before ih stepped

/-- A step, or none. -/
def Moves (s : σ) (a : Option α) (t : σ) : Prop :=
  match a with
  | some a => M.step s a = some t
  | none => t = s

/-- A run of `M` is a run of `N` when each step of `M` is one of `N` or none there. -/
theorem exec_filterMap {τ : Type u} {β : Type v} (N : Machine τ β) (view : σ → τ)
    (label : α → Option β) (each : ∀ s a t, M.step s a = some t → N.Moves (view s) (label a) (view t))
    {s t : σ} {labels : List α} (ran : M.exec s labels = some t) :
    N.exec (view s) (labels.filterMap label) = some (view t) := by
  induction labels generalizing s with
  | nil =>
      simp only [exec_nil, Option.some.injEq] at ran
      rw [ran]
      rfl
  | cons a rest ih =>
      obtain ⟨m, stepped, ran⟩ := (M.exec_cons_eq_some).mp ran
      have first := each s a m stepped
      cases seen : label a with
      | none =>
          rw [seen] at first
          have still : view m = view s := first
          rw [List.filterMap_cons_none seen, ← still]
          exact ih ran
      | some b =>
          rw [seen] at first
          have moved : N.step (view s) b = some (view m) := first
          rw [List.filterMap_cons_some seen, exec_cons, moved]
          exact ih ran

theorem Reachable.exec {M : Machine σ α} {s t : σ} (reached : M.Reachable s) {labels : List α}
    (ran : M.exec s labels = some t) : M.Reachable t := by
  induction labels generalizing s with
  | nil => simp only [exec_nil, Option.some.injEq] at ran; exact ran ▸ reached
  | cons a rest ih =>
      obtain ⟨m, stepped, ran⟩ := (M.exec_cons_eq_some).mp ran
      exact ih (.step reached stepped) ran

theorem reachable_iff_exec (t : σ) :
    M.Reachable t ↔ ∃ s labels, M.init s ∧ M.exec s labels = some t := by
  constructor
  · intro reached
    induction reached with
    | @start s h => exact ⟨s, [], h, rfl⟩
    | @step m t a _ stepped ih =>
        obtain ⟨s, labels, h, ran⟩ := ih
        refine ⟨s, labels ++ [a], h, ?_⟩
        rw [exec_append, ran]
        simp [exec_cons, stepped]
  · rintro ⟨s, labels, h, ran⟩
    exact Reachable.exec (.start h) ran

/-- Some run goes from the one state to the other. -/
def Leads (s t : σ) : Prop := ∃ labels, M.exec s labels = some t

theorem Leads.refl (s : σ) : M.Leads s s := ⟨[], rfl⟩

variable {M} in
theorem Leads.trans {s t u : σ} (first : M.Leads s t) (then_ : M.Leads t u) : M.Leads s u := by
  obtain ⟨front, ran⟩ := first
  obtain ⟨back, later⟩ := then_
  refine ⟨front ++ back, ?_⟩
  rw [exec_append, ran]
  exact later

variable {M} in
theorem Leads.of_step {s t : σ} {a : α} (stepped : M.step s a = some t) : M.Leads s t := by
  refine ⟨[a], ?_⟩
  rw [exec_cons, stepped]
  rfl

variable {M} in
theorem Reachable.leads {s t : σ} (reached : M.Reachable s) (leads : M.Leads s t) :
    M.Reachable t := by
  obtain ⟨labels, ran⟩ := leads
  exact reached.exec ran

/-- A state predicate at every state of one run. -/
def Along (P : σ → Prop) : σ → List α → Prop
  | s, [] => P s
  | s, a :: rest => P s ∧ ∀ t, M.step s a = some t → Along P t rest

/-- A condition on every step of one run: the state before it and its label. -/
def Guarded (G : σ → α → Prop) : σ → List α → Prop
  | _, [] => True
  | s, a :: rest => ∀ t, M.step s a = some t → G s a ∧ Guarded G t rest

/-- A quantity of each step, added up over one run. -/
def sumAlong (f : σ → α → σ → Int) : σ → List α → Int
  | _, [] => 0
  | s, a :: rest =>
      match M.step s a with
      | none => 0
      | some t => f s a t + sumAlong f t rest

theorem Along.head {M : Machine σ α} {P : σ → Prop} {s : σ} {labels : List α}
    (holds : M.Along P s labels) : P s := by
  cases labels with
  | nil => exact holds
  | cons a rest => exact holds.1

/-- Every prefix of a run along which `P` holds ends in a state where it holds. -/
theorem Along.of_exec {M : Machine σ α} {P : σ → Prop} {s t : σ} {front back : List α}
    (holds : M.Along P s (front ++ back)) (ran : M.exec s front = some t) : P t := by
  induction front generalizing s with
  | nil =>
      simp only [exec_nil, Option.some.injEq] at ran
      exact ran ▸ holds.head
  | cons a front ih =>
      obtain ⟨m, stepped, ran⟩ := (M.exec_cons_eq_some).mp ran
      exact ih (holds.2 m stepped) ran

/-- A run along which `P` holds ends in a state where it holds. -/
theorem Along.last {M : Machine σ α} {P : σ → Prop} {s t : σ} {labels : List α}
    (holds : M.Along P s labels) (ran : M.exec s labels = some t) : P t := by
  rw [← List.append_nil labels] at holds
  exact holds.of_exec ran

/-- If every step that meets the condition keeps the predicate, a run whose steps
all meet it stays inside the predicate. -/
theorem along_of_guarded {I P : σ → Prop} {G : σ → α → Prop}
    (kept : ∀ s a t, I s → M.step s a = some t → I t)
    (guarded : ∀ s a t, I s → P s → M.step s a = some t → G s a → P t)
    {s : σ} {labels : List α} (inv : I s) (holds : P s) (condition : M.Guarded G s labels) :
    M.Along P s labels := by
  induction labels generalizing s with
  | nil => exact holds
  | cons a rest ih =>
      refine ⟨holds, fun t stepped => ?_⟩
      obtain ⟨met, later⟩ := condition t stepped
      exact ih (kept _ _ _ inv stepped) (guarded _ _ _ inv holds stepped met) later

/-- What every step keeps holds along every run that starts with it. -/
theorem along_of_kept {P : σ → Prop} (kept : ∀ s a t, P s → M.step s a = some t → P t) {s : σ}
    (holds : P s) (labels : List α) : M.Along P s labels := by
  induction labels generalizing s with
  | nil => exact holds
  | cons a rest ih =>
      refine ⟨holds, ?_⟩
      intro t stepped
      exact ih (kept s a t holds stepped)

/-- A run is no longer than a measure that every step lowers. -/
theorem length_le_of_lower {P : σ → Prop} {measure : σ → Nat}
    (kept : ∀ s a t, P s → M.step s a = some t → P t)
    (lower : ∀ s a t, P s → M.step s a = some t → measure t < measure s) {s t : σ}
    {labels : List α} (holds : P s) (ran : M.exec s labels = some t) :
    labels.length + measure t ≤ measure s := by
  induction labels generalizing s with
  | nil =>
      simp only [exec_nil, Option.some.injEq] at ran
      subst ran
      exact Nat.le_of_eq (Nat.zero_add _)
  | cons a rest ih =>
      obtain ⟨m, stepped, ran⟩ := (M.exec_cons_eq_some).mp ran
      have less := lower s a m holds stepped
      have later := ih (kept s a m holds stepped) ran
      rw [List.length_cons]
      omega

/-- A consequence holds wherever its premise does. -/
theorem Along.imp {M : Machine σ α} {P Q : σ → Prop} (imp : ∀ s, P s → Q s) {s : σ}
    {labels : List α} (holds : M.Along P s labels) : M.Along Q s labels := by
  induction labels generalizing s with
  | nil => exact imp s holds
  | cons a rest ih =>
      refine ⟨imp s holds.1, ?_⟩
      intro t stepped
      exact ih (holds.2 t stepped)

/-- Every step of a run meets the condition. -/
theorem Guarded.of_exec {M : Machine σ α} {G : σ → α → Prop} {s m t : σ} {front back : List α}
    {a : α} (condition : M.Guarded G s (front ++ a :: back)) (ran : M.exec s front = some m)
    (stepped : M.step m a = some t) : G m a := by
  induction front generalizing s with
  | nil =>
      simp only [exec_nil, Option.some.injEq] at ran
      subst ran
      exact (condition t stepped).1
  | cons b front ih =>
      obtain ⟨n, first, ran⟩ := (M.exec_cons_eq_some).mp ran
      exact ih (condition n first).2 ran

/-- Two conditions that agree on every step from a state of the invariant agree on runs. -/
theorem guarded_iff_guarded {I : σ → Prop} {G H : σ → α → Prop}
    (kept : ∀ s a t, I s → M.step s a = some t → I t)
    (agree : ∀ s a t, I s → M.step s a = some t → (G s a ↔ H s a))
    {s : σ} {labels : List α} (inv : I s) : M.Guarded G s labels ↔ M.Guarded H s labels := by
  induction labels generalizing s with
  | nil => exact Iff.rfl
  | cons a rest ih =>
      refine forall_congr' fun t => forall_congr' fun stepped => ?_
      exact and_congr (agree s a t inv stepped) (ih (kept s a t inv stepped))

/-- If each step of a run changes `g` by the amount it counts, the run adds up to the
whole change. -/
theorem sumAlong_eq_sub {I : σ → Prop} {G : σ → α → Prop} {f : σ → α → σ → Int} {g : σ → Int}
    (kept : ∀ s a t, I s → M.step s a = some t → I t)
    (each : ∀ s a t, I s → M.step s a = some t → G s a → f s a t = g t - g s)
    {s t : σ} {labels : List α} (inv : I s) (condition : M.Guarded G s labels)
    (ran : M.exec s labels = some t) : M.sumAlong f s labels = g t - g s := by
  induction labels generalizing s with
  | nil =>
      simp only [exec_nil, Option.some.injEq] at ran
      subst ran
      exact (Int.sub_self _).symm
  | cons a rest ih =>
      obtain ⟨m, stepped, ran⟩ := (M.exec_cons_eq_some).mp ran
      obtain ⟨met, later⟩ := condition m stepped
      have first := each s a m inv stepped met
      have others := ih (kept s a m inv stepped) later ran
      simp only [sumAlong, stepped]
      omega

theorem guarded_of_forall {G : σ → α → Prop} (always : ∀ s a, G s a) (s : σ) (labels : List α) :
    M.Guarded G s labels := by
  induction labels generalizing s with
  | nil => trivial
  | cons a rest ih => exact fun t _ => ⟨always s a, ih t⟩

/-- `sumAlong_eq_sub` where each step, from any state, changes `g` by what it counts. -/
theorem sumAlong_eq_change {f : σ → α → σ → Int} (g : σ → Int)
    (each : ∀ s a t, M.step s a = some t → f s a t = g t - g s) {s t : σ} {labels : List α}
    (ran : M.exec s labels = some t) : M.sumAlong f s labels = g t - g s :=
  M.sumAlong_eq_sub (fun _ _ _ _ _ => trivial) (fun s a t _ stepped _ => each s a t stepped) trivial
    (M.guarded_of_forall (fun _ _ => trivial) s labels) ran

theorem sumAlong_congr {f g : σ → α → σ → Int}
    (same : ∀ s a t, M.step s a = some t → f s a t = g s a t) (s : σ) (labels : List α) :
    M.sumAlong f s labels = M.sumAlong g s labels := by
  induction labels generalizing s with
  | nil => rfl
  | cons a rest ih =>
      simp only [sumAlong]
      cases stepped : M.step s a with
      | none => rfl
      | some t =>
          simp only [same s a t stepped, ih t]

theorem sumAlong_add (f g : σ → α → σ → Int) (s : σ) (labels : List α) :
    M.sumAlong (fun s a t => f s a t + g s a t) s labels =
      M.sumAlong f s labels + M.sumAlong g s labels := by
  induction labels generalizing s with
  | nil => rfl
  | cons a rest ih =>
      simp only [sumAlong]
      cases M.step s a with
      | none => rfl
      | some t =>
          simp only [ih t]
          omega

theorem sumAlong_sub (f g : σ → α → σ → Int) (s : σ) (labels : List α) :
    M.sumAlong (fun s a t => f s a t - g s a t) s labels =
      M.sumAlong f s labels - M.sumAlong g s labels := by
  induction labels generalizing s with
  | nil => rfl
  | cons a rest ih =>
      simp only [sumAlong]
      cases M.step s a with
      | none => rfl
      | some t =>
          simp only [ih t]
          omega

/-- Counts that no step can lower add up to zero iff every step counts nothing. -/
theorem sumAlong_eq_zero_iff (f : σ → α → Nat) (s : σ) (labels : List α) :
    M.sumAlong (fun s a _ => (f s a : Int)) s labels = 0 ↔
      M.Guarded (fun s a => f s a = 0) s labels := by
  have nonneg : ∀ (labels : List α) (s : σ), 0 ≤ M.sumAlong (fun s a _ => (f s a : Int)) s labels := by
    intro labels
    induction labels with
    | nil => exact fun _ => Int.le_refl 0
    | cons a rest ih =>
        intro s
        simp only [sumAlong]
        cases M.step s a with
        | none => exact Int.le_refl 0
        | some t => exact Int.add_nonneg (Int.natCast_nonneg _) (ih t)
  induction labels generalizing s with
  | nil => exact iff_of_true rfl trivial
  | cons a rest ih =>
      simp only [sumAlong, Guarded]
      cases stepped : M.step s a with
      | none => simp
      | some t =>
          have later := nonneg rest t
          simp only [Option.some.injEq, forall_eq', ← ih t]
          omega

/-- If the condition is exact for one step, it is exact for runs: the predicate
holds at every state of the run iff every step meets the condition. -/
theorem along_iff_guarded {I P : σ → Prop} {G : σ → α → Prop}
    (kept : ∀ s a t, I s → M.step s a = some t → I t)
    (exactly : ∀ s a t, I s → P s → M.step s a = some t → (P t ↔ G s a))
    {s : σ} {labels : List α} (inv : I s) (holds : P s) :
    M.Along P s labels ↔ M.Guarded G s labels := by
  constructor
  · intro along
    induction labels generalizing s with
    | nil => trivial
    | cons a rest ih =>
        intro t stepped
        have after := along.2 t stepped
        exact ⟨(exactly _ _ _ inv holds stepped).mp after.head,
          ih (kept _ _ _ inv stepped) after.head after⟩
  · exact M.along_of_guarded kept (fun s a t i p h g => (exactly s a t i p h).mpr g) inv holds

end Machine

end Portrelay.Theory
