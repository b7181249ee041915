/-
# Relay.WatchdogClock -- idle_watchdog on a clock that ends

The loop of `idle_watchdog` with the instants it computes: `sleep` arms the first deadline
and takes one far in the future where `now + idle_timeout` cannot be represented, and each
message on the activity channel arms the next one with `+`, which panics there.

* `watchdog_safe_iff` -- a run of the loop does not panic, if and only if at each message
  it handles the idle timeout still fits behind the clock.
-/
import Portrelay.Config.Listeners
import Portrelay.Theory.Instant
import Portrelay.Theory.Machine

namespace Portrelay.Relay

open Portrelay.Theory

set_option autoImplicit false

/-- `idle_watchdog` at its `select!`, returned, or panicked. -/
inductive WatchdogLoop
  | waiting (deadline : Instant)
  | returned
  | panicked
  deriving DecidableEq

/-- A branch of the `select!`, at the instant it is taken: the timer fires, or
`activity.changed()` gives a message or the end of the channel. -/
inductive WatchdogEvent
  | expired (now : Instant)
  | changed (now : Instant)
  | closed
  deriving DecidableEq

namespace WatchdogLoop

/-- `sleep(idle_timeout)`, with the instant that stands for one too far. -/
def sleep (farFuture : Instant → Instant) (idleTimeout : Nat) (now : Instant) : WatchdogLoop :=
  .waiting ((now.checkedAdd idleTimeout).getD (farFuture now))

/-- `timer.reset(now + idle_timeout)` -/
def reset (idleTimeout : Nat) (now : Instant) : WatchdogLoop :=
  match now.checkedAdd idleTimeout with
  | some deadline => .waiting deadline
  | none => .panicked

def step (idleTimeout : Nat) : WatchdogLoop → WatchdogEvent → Option WatchdogLoop
  | .waiting deadline, .expired now =>
      if deadline.total ≤ now.total then some .returned else none
  | .waiting _, .changed now => some (reset idleTimeout now)
  | .waiting _, .closed => some .returned
  | _, _ => none

def machine (farFuture : Instant → Instant) (idleTimeout : Nat) :
    Machine WatchdogLoop WatchdogEvent :=
  ⟨fun s => ∃ now, s = sleep farFuture idleTimeout now, step idleTimeout⟩

/-- The message is handled at an instant that is at least `idle_timeout` from the end of the
clock. -/
def Fits (idleTimeout : Nat) : WatchdogEvent → Prop
  | .changed now => now.total + idleTimeout < 2 ^ 63 * NANOS_PER_SEC
  | _ => True

/-- Where it is armed again the deadline is the one that `Watchdog.poll` counts with. -/
theorem total_of_reset {idleTimeout : Nat} {now deadline : Instant}
    (armed : reset idleTimeout now = .waiting deadline) :
    deadline.total = now.total + idleTimeout := by
  unfold reset at armed
  split at armed
  · rename_i added
    cases armed
    exact Instant.total_of_checkedAdd added
  · cases armed

theorem reset_ne_panicked_iff (idleTimeout : Nat) (now : Instant) :
    reset idleTimeout now ≠ .panicked ↔ Fits idleTimeout (.changed now) := by
  have none_ := now.checkedAdd_eq_none_iff idleTimeout
  rw [Fits, ← Int.not_le, ← none_, reset]
  cases now.checkedAdd idleTimeout with
  | some deadline => simp
  | none => simp

theorem step_ne_panicked_iff {idleTimeout : Nat} {s t : WatchdogLoop} {event : WatchdogEvent}
    (stepped : step idleTimeout s event = some t) : t ≠ .panicked ↔ Fits idleTimeout event := by
  cases s with
  | waiting deadline =>
      cases event with
      | expired now =>
          obtain ⟨-, same⟩ := Option.ite_none_right_eq_some.mp stepped
          cases same
          exact iff_of_true (fun impossible => by cases impossible) trivial
      | changed now =>
          cases stepped
          exact reset_ne_panicked_iff idleTimeout now
      | closed =>
          cases stepped
          exact iff_of_true (fun impossible => by cases impossible) trivial
  | returned => cases stepped
  | panicked => cases stepped

end WatchdogLoop

/-- Whatever the instants and the messages, no step of `idle_watchdog` panics, if and only if
each message that it handles comes at an instant to which the idle timeout can be added. -/
theorem watchdog_safe_iff (farFuture : Instant → Instant) (idleTimeout : Nat) (now : Instant)
    (events : List WatchdogEvent) :
    (WatchdogLoop.machine farFuture idleTimeout).Along (· ≠ .panicked)
        (WatchdogLoop.sleep farFuture idleTimeout now) events ↔
      (WatchdogLoop.machine farFuture idleTimeout).Guarded
        (fun _ event => WatchdogLoop.Fits idleTimeout event)
        (WatchdogLoop.sleep farFuture idleTimeout now) events := by
  apply (WatchdogLoop.machine farFuture idleTimeout).along_iff_guarded
    (fun _ _ _ _ _ => trivial) ?_ trivial ?_
  · intro s event t _ _ stepped
    exact WatchdogLoop.step_ne_panicked_iff stepped
  · intro impossible
    cases impossible

/-- `--idle-timeout 9223372036854775808s` -/
def longIdle : Config.Settings :=
  { Config.serveSettings 8080 none with
    relays := [{ Config.serveRelay 8080 with idleTimeout := some (2 ^ 63 * NANOS_PER_SEC) }] }

/-- Thirty years. -/
def farFuture (now : Instant) : Instant :=
  (now.checkedAdd (86_400 * 365 * 30 * NANOS_PER_SEC)).getD now

def firstSecond : Instant := ⟨1, 0, by decide, by decide, by decide⟩

/-- The first message of a connection panics under a configuration that is accepted. -/
theorem watchdog_overflow :
    longIdle.validate = .ok () ∧
      ∃ relay ∈ longIdle.relays, ∃ idleTimeout ∈ relay.idleTimeout,
        (WatchdogLoop.machine farFuture idleTimeout).exec
          (WatchdogLoop.sleep farFuture idleTimeout firstSecond) [.changed firstSecond] =
            some .panicked := by
  refine ⟨by decide, _, List.mem_singleton_self _, _, rfl, ?_⟩
  decide

end Portrelay.Relay
