/-
# Server.CacheAge -- how old a cached address gets, and how often a name is looked up

`refresh_target_loop` against a clock.  The ticks of `tokio::time::interval` are a period
apart from the first one on, and one that was missed comes at once; the lookup of a refresh
is answered within a time, or fails.  An answer that `initialize_target` has cached before the
loop was spawned is as old as the loop here.

* `cache_age` -- what is cached is no older than the longer of period and lookup, for each
  failure since and once more, and another lookup; and there are no more lookups than periods.
-/
import Portrelay.Relay.Routing
import Portrelay.Server.Shutdown
import Portrelay.Theory.Clock

namespace Portrelay.Server

open Portrelay.Theory Portrelay.Relay

set_option autoImplicit false

universe u

/-- A relay's refresh loop, and when its lookups began. -/
structure Refreshing (α : Type u) where
  target : TargetResolver α
  loop : RefreshLoop
  /-- when the loop was spawned -/
  spawned : Nat
  /-- the next tick of the ticker -/
  next : Nat
  /-- when the last lookup began -/
  began : Nat
  /-- when the lookup began whose answer is cached; when the loop was spawned, if it has not
  cached one -/
  since : Nat
  /-- how many lookups have failed after that one -/
  failures : Nat
  lookups : Nat

inductive RefreshingEvent (α : Type u)
  | tick
  | refreshed (answer : Except IoError (List α))

namespace Refreshing

variable {α : Type u} (period latency : Nat)

/-- The loop has been spawned, with nothing cached or the answer of `initialize_target`, whose
age counts from here; its ticker is due at once. -/
def start (target : TargetResolver α) (now : Nat) : Refreshing α :=
  ⟨target, .ticking, now, now, now, now, 0, 0⟩

def step (now : Nat) (s : Refreshing α) : RefreshingEvent α → Option (Refreshing α)
  | .tick =>
      if s.next ≤ now then
        (s.loop.step false false .tick).map fun loop =>
          { s with loop, next := s.next + period, began := now, lookups := s.lookups + 1 }
      else none
  | .refreshed answer =>
      (s.loop.step false false .refreshed).map fun loop =>
        match answer with
        | .ok _ => { s with loop, target := s.target.stored answer, since := s.began, failures := 0 }
        | .error _ => { s with loop, target := s.target.stored answer, failures := s.failures + 1 }

def urgent (now : Nat) (s : Refreshing α) : Bool :=
  match s.loop with
  | .ticking => decide (s.next ≤ now)
  | .refreshing => decide (s.began + latency ≤ now)
  | .stopped => false

/-- The loop and its lookups, each answered within `latency`, while time passes. -/
def running (target : TargetResolver α) : Clocked (Refreshing α) (RefreshingEvent α) :=
  ⟨fun now s => s = start target now, step period, urgent latency⟩

variable {period latency}

/-- The ticks lie a period apart; what is cached and the last lookup are not old. -/
structure Inv (period latency now : Nat) (s : Refreshing α) : Prop where
  running : s.loop ≠ .stopped
  next : s.next = s.spawned + s.lookups * period
  soon : s.next ≤ s.began + period
  began : s.began ≤ now
  ticking : s.loop = .ticking →
    s.began ≤ s.since + s.failures * max period latency ∧ now ≤ s.began + max period latency
  refreshing : s.loop = .refreshing →
    s.began ≤ s.since + (s.failures + 1) * max period latency ∧ now ≤ s.began + latency

theorem start_inv (target : TargetResolver α) (now : Nat) :
    (start target now).Inv period latency now := by
  refine ⟨nofun, ?_, Nat.le_add_right _ _, Nat.le_refl _, ?_, nofun⟩
  · simp only [start, Nat.zero_mul, Nat.add_zero]
  · intro _
    exact ⟨Nat.le_add_right _ _, Nat.le_add_right _ _⟩

theorem tick_inv {now : Nat} {s t : Refreshing α} (inv : s.Inv period latency now)
    (stepped : s.step period now .tick = some t) : t.Inv period latency now := by
  obtain ⟨due, stepped⟩ := Option.ite_none_right_eq_some.mp stepped
  obtain ⟨loop, moved, rfl⟩ := Option.map_eq_some_iff.mp stepped
  cases here : s.loop with
  | stopped => exact absurd here inv.running
  | refreshing =>
      rw [here] at moved
      cases moved
  | ticking =>
      rw [here] at moved
      cases moved
      obtain ⟨recent, inTime⟩ := inv.ticking here
      refine ⟨nofun, ?_, Nat.add_le_add_right due period, Nat.le_refl _, nofun, ?_⟩
      · simp only [inv.next, Nat.succ_mul, Nat.add_assoc]
      · intro _
        refine ⟨?_, Nat.le_add_right _ _⟩
        show now ≤ s.since + (s.failures + 1) * max period latency
        rw [Nat.succ_mul]
        omega

theorem refreshed_inv {now : Nat} {s t : Refreshing α} {answer : Except IoError (List α)}
    (inv : s.Inv period latency now) (stepped : s.step period now (.refreshed answer) = some t) :
    t.Inv period latency now := by
  obtain ⟨loop, moved, rfl⟩ := Option.map_eq_some_iff.mp stepped
  cases here : s.loop with
  | stopped => exact absurd here inv.running
  | ticking =>
      rw [here] at moved
      cases moved
  | refreshing =>
      rw [here] at moved
      cases moved
      obtain ⟨recent, inTime⟩ := inv.refreshing here
      have inTime' : now ≤ s.began + max period latency :=
        Nat.le_trans inTime (Nat.add_le_add_left (Nat.le_max_right period latency) _)
      cases answer with
      | ok addresses =>
          exact ⟨nofun, inv.next, inv.soon, inv.began, fun _ => ⟨Nat.le_add_right _ _, inTime'⟩, nofun⟩
      | error error =>
          exact ⟨nofun, inv.next, inv.soon, inv.began, fun _ => ⟨recent, inTime'⟩, nofun⟩

theorem pass_inv {now : Nat} {s : Refreshing α} (inv : s.Inv period latency now)
    (idle : s.urgent latency now = false) : s.Inv period latency (now + 1) := by
  refine ⟨inv.running, inv.next, inv.soon, Nat.le_succ_of_le inv.began, ?_, ?_⟩
  · intro ticking
    simp only [urgent, ticking, decide_eq_false_iff_not] at idle
    have soon := inv.soon
    exact ⟨(inv.ticking ticking).1, by omega⟩
  · intro refreshing
    simp only [urgent, refreshing, decide_eq_false_iff_not] at idle
    exact ⟨(inv.refreshing refreshing).1, by omega⟩

theorem reachable_inv {target : TargetResolver α} {s : Timed (Refreshing α)}
    (reached : (running period latency target).timed.Reachable s) :
    s.state.Inv period latency s.now := by
  refine Clocked.within (C := running period latency target)
    (P := fun now s => s.Inv period latency now) ?_ ?_ ?_ reached
  · rintro now s rfl
    exact start_inv target now
  · intro now s event t inv stepped
    cases event with
    | tick => exact tick_inv inv stepped
    | refreshed answer => exact refreshed_inv inv stepped
  · intro now s inv idle
    exact pass_inv inv idle

/-- Ticks that were missed come at once, but not without end. -/
def work (now : Nat) (s : Refreshing α) : Nat :=
  2 * (now + 1 - s.next) + if s.loop = .refreshing then 1 else 0

theorem due_step (positive : 0 < period) {target : TargetResolver α} {now : Nat}
    {s : Refreshing α} (inv : s.Inv period latency now) (due : s.urgent latency now = true) :
    ∃ event t, (running period latency target).step now s event = some t ∧
      t.Inv period latency now ∧ t.work now < s.work now := by
  cases here : s.loop with
  | stopped => exact absurd here inv.running
  | ticking =>
      simp only [urgent, here, decide_eq_true_eq] at due
      have stepped : s.step period now .tick =
          some { s with loop := .refreshing, next := s.next + period, began := now,
                        lookups := s.lookups + 1 } := by
        simp only [step, if_pos due, here, RefreshLoop.step, Option.map_some]
      refine ⟨.tick, _, stepped, tick_inv inv stepped, ?_⟩
      simp only [work, here, if_true, reduceCtorEq, if_false]
      omega
  | refreshing =>
      have stepped : s.step period now (.refreshed (.error (.os .timedOut))) =
          some { s with loop := .ticking, failures := s.failures + 1 } := by
        simp only [step, here, RefreshLoop.step, Option.map_some]
        rfl
      refine ⟨.refreshed (.error (.os .timedOut)), _, stepped, refreshed_inv inv stepped, ?_⟩
      simp only [work, here, if_true, reduceCtorEq, if_false]
      omega

/-- In every run: what is cached was asked for no longer ago than the longer of the period and
a lookup, once and once more for each failure since, and one lookup; there is one lookup and
one more for each period that has passed; and time goes on. -/
theorem cache_age (positive : 0 < period) {target : TargetResolver α} {s : Timed (Refreshing α)}
    (reached : (running period latency target).timed.Reachable s) :
    s.now ≤ s.state.since + (s.state.failures + 1) * max period latency + latency ∧
    s.state.lookups ≤ 1 + (s.now - s.state.spawned) / period ∧
    ∀ n, ∃ more t, (running period latency target).timed.exec s more = some t ∧
      t.now = s.now + n := by
  have inv := reachable_inv reached
  refine ⟨?_, ?_, ?_⟩
  · cases here : s.state.loop with
    | stopped => exact absurd here inv.running
    | ticking =>
        obtain ⟨recent, inTime⟩ := inv.ticking here
        rw [Nat.succ_mul]
        omega
    | refreshing =>
        obtain ⟨recent, inTime⟩ := inv.refreshing here
        omega
  · have next := inv.next
    have soon := inv.soon
    have began := inv.began
    cases lookups : s.state.lookups with
    | zero => exact Nat.zero_le _
    | succ count =>
        rw [lookups, Nat.succ_mul] at next
        have spans : count * period ≤ s.now - s.state.spawned := by omega
        have fits := (Nat.le_div_iff_mul_le positive).mpr spans
        omega
  · refine Clocked.time_goes_on (P := fun now s => s.Inv period latency now) (fun now s => s.work now)
      ?_ ?_ reached
    · intro s reached
      exact reachable_inv reached
    · intro now s inv due
      exact due_step positive inv due

def database : TargetResolver Nat := .new "db:5432".toList true

/-- The second lookup fails. -/
def failing : List (TimedLabel (RefreshingEvent Nat)) :=
  [.act .tick, .tick, .act (.refreshed (.ok [1])), .tick, .tick, .act .tick, .tick,
    .act (.refreshed (.error (.os .timedOut))), .tick]

theorem cache_age_failing :
    ∃ s, (running 3 1 database).timed.exec
        ⟨5, start database 5⟩ failing = some s ∧
      s.state.target.resolved = some [1] ∧ s.now = 10 ∧
      s.now ≤ s.state.since + (s.state.failures + 1) * max 3 1 + 1 ∧ s.state.lookups ≤ 2 := by
  have ran : ∃ s, (running 3 1 database).timed.exec
      ⟨5, start database 5⟩ failing = some s ∧
      s.state.target.resolved = some [1] ∧ s.now = 10 ∧ s.state.spawned = 5 :=
    ⟨_, rfl, rfl, rfl, rfl⟩
  obtain ⟨s, ran, cached, now, spawned⟩ := ran
  have begun : (running 3 1 database).timed.Reachable
      ⟨5, start database 5⟩ := .start (Eq.refl (start database 5))
  have reached := begun.exec ran
  obtain ⟨age, rate, -⟩ := cache_age (by decide) reached
  rw [now, spawned] at rate
  exact ⟨s, ran, cached, now, age, rate⟩

end Refreshing

end Portrelay.Server
