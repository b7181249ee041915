/-
# Server.AcceptErrors -- how often a listener can fail to accept

A relay listener whose `accept` fails waits for `ACCEPT_ERROR_BACKOFF` before it accepts
again; the metrics listener goes back to `accept` at once.

* `Paced` -- what the number of failures so far says about the last of them, kept by
  `step_paced`.
* `accept_failures` -- the failures of a relay listener are bounded by the time that passes,
  those of the metrics listener are not.
-/
import Portrelay.Server.Deadlines

namespace Portrelay.Server

open Portrelay.Theory Portrelay.Relay Portrelay.Metrics

set_option autoImplicit false

/-- A listener that does not go back to `accept` before it wakes. -/
def Listener.pausing : Listener → Bool
  | .backoff => true
  | .stopped => true
  | _ => false

section

variable {settings : Settings} {relay : Nat} {free : Limit → Nat} {shutdown force : Bool}

theorem Listener.step_acceptFailed {listener : Listener} {after : Listener × Effect}
    (moved : listener.step settings relay free shutdown force .acceptFailed = some after) :
    listener = .accepting ∧ after.1 = .backoff := by
  cases listener with
  | accepting =>
      cases moved
      exact ⟨rfl, rfl⟩
  | acquiring rest held => cases rest <;> cases moved
  | refusing updates held => cases updates <;> cases moved
  | rollingBack held => cases held <;> cases moved
  | counting updates held => cases updates <;> cases moved
  | backoff | checking | spawning _ | stopped => cases moved

theorem Listener.step_pausing {listener : Listener} {event : ListenerEvent}
    {after : Listener × Effect}
    (moved : listener.step settings relay free shutdown force event = some after)
    (pausing : listener.pausing = true) (asleep : event ≠ .wake) : after.1.pausing = true := by
  cases listener with
  | stopped => cases event <;> cases moved
  | backoff =>
      cases event with
      | wake => exact absurd rfl asleep
      | stop | abort =>
          obtain ⟨-, same⟩ := Option.ite_none_right_eq_some.mp moved
          obtain rfl := Option.some.inj same
          rfl
      | accept | acceptFailed | next => cases moved
  | accepting | checking | acquiring _ _ | refusing _ _ | rollingBack _ | counting _ _
  | spawning _ => cases pausing

end

namespace ServerState

variable {settings : Settings}

theorem step_listener {s t : ServerState} {relay : Nat} {event : ListenerEvent}
    (stepped : step settings s (.listener relay event) = some t) :
    ∃ listener after, s.listenerAt relay = some listener ∧
      listener.step settings relay s.free s.shutdown s.force event = some after ∧
        t.listenerAt relay = some after.1 := by
  simp only [step] at stepped
  split at stepped <;> [cases stepped; skip]
  rename_i b found
  obtain ⟨after, moved, rfl⟩ := Option.map_eq_some_iff.mp stepped
  have seen := listener_at after.1 after.2 found relay
  rw [if_pos rfl] at seen
  refine ⟨b.listener, after, ?_, moved, ?_⟩
  · rw [listenerAt, found, Option.map_some]
  · rw [listenerAt, seen.1, Option.map_some, BoundRelay.after_listener]

/-- Only its own steps move a listener. -/
theorem step_listenerAt {s t : ServerState} {label : ServerLabel} {relay : Nat}
    (stepped : step settings s label = some t) (other : ∀ event, label ≠ .listener relay event) :
    t.listenerAt relay = s.listenerAt relay := by
  cases step_stepped stepped with
  | cancelled => rfl
  | forced told => rfl
  | @listener r event b after effect found moved =>
      have apart : r ≠ relay := by
        rintro rfl
        exact other event rfl
      have seen := listener_at after effect found relay
      rw [if_neg apart] at seen
      exact congrArg (Option.map BoundRelay.listener) seen.1
  | @task index event u after effect found moved =>
      have bound := (task_at found moved relay).1
      simp only [listenerAt, bound, Option.map_map]
      congr 1
      funext b
      simp only [Function.comp_apply]
      split
      · exact BoundRelay.after_listener _ _
      · rfl

end ServerState

namespace Stamped

variable {settings : Settings} {tls : Bool} {T : Timeouts}

/-- Relay `relay` fails to accept in this step. -/
def failsToAccept (relay : Nat) : TimedLabel RunLabel → Bool
  | .act (.listener r .acceptFailed) => decide (r = relay)
  | _ => false

/-- Relay `relay` has failed `count` times to accept since `start`, and its listener does not
accept again before a backoff has passed. -/
def Paced (relay start count now : Nat) (s : Stamped) : Prop :=
  start ≤ now ∧
    (count = 0 ∨
      start + count * ACCEPT_ERROR_BACKOFF ≤ s.failed relay + ACCEPT_ERROR_BACKOFF ∧
        s.failed relay ≤ now ∧
        ((∀ listener, s.run.server.listenerAt relay = some listener → listener.pausing = true) ∨
          s.failed relay + ACCEPT_ERROR_BACKOFF ≤ now))

theorem stamp_failed (now : Nat) (s : Stamped) (run : RunState) {label : RunLabel} {relay : Nat}
    (other : label ≠ .listener relay .acceptFailed) :
    (s.stamp now run label).failed relay = s.failed relay := by
  unfold stamp
  split
  · rfl
  · rename_i r
    have apart : relay ≠ r := by
      rintro rfl
      exact other rfl
    exact if_neg apart
  all_goals rfl

theorem step_paced {relay start count now : Nat} {s t : Stamped} {label : RunLabel}
    (paced : s.Paced relay start count now) (stepped : step settings tls T now s label = some t) :
    t.Paced relay start (count + (failsToAccept relay (.act label)).toNat) now := by
  obtain ⟨begun, history⟩ := paced
  refine ⟨begun, ?_⟩
  obtain ⟨allowed, run, moved, rfl⟩ := step_some stepped
  have moves := RunState.step_onServer moved
  by_cases own : ∃ event, label = .listener relay event
  · obtain ⟨event, rfl⟩ := own
    obtain ⟨listener, after, here, went, there⟩ := ServerState.step_listener moves
    by_cases fails : event = .acceptFailed
    · subst fails
      have marked : (s.stamp now run (.listener relay .acceptFailed)).failed relay = now := if_pos rfl
      have counted : (failsToAccept relay (.act (.listener relay .acceptFailed))).toNat = 1 := by
        simp only [failsToAccept, decide_true, Bool.toNat_true]
      obtain ⟨rfl, back⟩ := Listener.step_acceptFailed went
      rw [counted]
      refine Or.inr ⟨?_, Nat.le_of_eq marked, Or.inl ?_⟩
      · rw [marked, Nat.succ_mul]
        rcases history with rfl | ⟨far, -, waits⟩
        · rw [Nat.zero_mul]
          omega
        · have rested : s.failed relay + ACCEPT_ERROR_BACKOFF ≤ now := by
            rcases waits with pauses | rested
            · cases pauses _ here
            · exact rested
          omega
      · intro listener found
        rw [stamp_run, there] at found
        cases found
        rw [back]
        rfl
    · have uncounted : (failsToAccept relay (.act (.listener relay event))).toNat = 0 := by
        cases event with
        | acceptFailed => exact absurd rfl fails
        | accept | wake | stop | abort | next => rfl
      have kept := @stamp_failed now s run (.listener relay event) relay (by simpa using fails)
      rw [uncounted, kept]
      rcases history with none_ | ⟨far, past, waits⟩
      · exact Or.inl none_
      · refine Or.inr ⟨far, past, ?_⟩
        rcases waits with pauses | rested
        · by_cases wakes : event = .wake
          · -- the timer of the backoff has fired
            subst wakes
            exact Or.inr (of_decide_eq_true allowed)
          · left
            intro later found
            rw [stamp_run, there] at found
            cases found
            exact Listener.step_pausing went (pauses _ here) wakes
        · exact Or.inr rested
  · have other : ∀ event, label ≠ .listener relay event := fun event same => own ⟨event, same⟩
    have uncounted : (failsToAccept relay (.act label)).toNat = 0 := by
      unfold failsToAccept
      split
      · rename_i r same
        cases same
        have apart : r ≠ relay := by
          rintro rfl
          exact other _ rfl
        rw [decide_eq_false apart]
        rfl
      · rfl
    have still : run.server.listenerAt relay = s.run.server.listenerAt relay := by
      cases seen : RunState.onServer label with
      | none =>
          rw [seen] at moves
          exact congrArg (ServerState.listenerAt · relay) moves
      | some l =>
          rw [seen] at moves
          refine ServerState.step_listenerAt moves ?_
          rintro event rfl
          cases label with
          | listener r event =>
              cases seen
              exact other event rfl
          | run event => cases event <;> cases seen
          | cancel | task _ _ | refreshLoop _ _ | metricsListener _ | metricsConnection _ _ =>
              cases seen
    rw [uncounted]
    simp only [stamp_run, still, stamp_failed now s run (other .acceptFailed)]
    exact history

theorem timedStep_paced {relay start count : Nat} {s t : Timed Stamped}
    {label : TimedLabel RunLabel} (paced : s.state.Paced relay start count s.now)
    (stepped : (running settings tls T).step s label = some t) :
    t.state.Paced relay start (count + (failsToAccept relay label).toNat) t.now := by
  cases Clocked.timedStep_stepped stepped with
  | act acted => exact step_paced paced acted
  | tick idle =>
      obtain ⟨begun, history⟩ := paced
      refine ⟨Nat.le_succ_of_le begun, ?_⟩
      rcases history with none_ | ⟨far, past, waits⟩
      · exact Or.inl none_
      · refine Or.inr ⟨far, Nat.le_succ_of_le past, ?_⟩
        exact waits.imp_right Nat.le_succ_of_le

theorem exec_paced {relay start count : Nat} {s t : Timed Stamped}
    {labels : List (TimedLabel RunLabel)} (paced : s.state.Paced relay start count s.now)
    (ran : (running settings tls T).exec s labels = some t) :
    t.state.Paced relay start (count + labels.countP (failsToAccept relay)) t.now := by
  induction labels generalizing s count with
  | nil =>
      simp only [Machine.exec_nil, Option.some.injEq] at ran
      exact ran ▸ paced
  | cons label rest ih =>
      obtain ⟨m, stepped, ran⟩ := (Machine.exec_cons_eq_some _).mp ran
      have later := ih (timedStep_paced paced stepped) ran
      have add : (label :: rest).countP (failsToAccept relay) =
          (failsToAccept relay label).toNat + rest.countP (failsToAccept relay) := by
        rw [List.countP_cons, Nat.add_comm]
        cases failsToAccept relay label <;> rfl
      rw [add, ← Nat.add_assoc]
      exact later

/-- In any run a relay listener fails to accept once, and once more for each backoff that
passes.  The metrics listener, while it accepts, can fail any number of times at an instant. -/
theorem accept_failures {m s : Timed Stamped} {labels : List (TimedLabel RunLabel)}
    (ran : (running settings tls T).exec m labels = some s) :
    (∀ relay, labels.countP (failsToAccept relay) ≤ 1 + (s.now - m.now) / ACCEPT_ERROR_BACKOFF) ∧
    (s.state.run.metricsListener = some .accepting → ∀ n,
      (running settings tls T).exec s
        (List.replicate n (.act (.metricsListener .acceptFailed))) = some s) := by
  constructor
  · intro relay
    have start : m.state.Paced relay m.now 0 m.now := ⟨Nat.le_refl _, Or.inl rfl⟩
    obtain ⟨begun, history⟩ := exec_paced start ran
    rw [Nat.zero_add] at history
    rcases history with none_ | ⟨far, past, -⟩
    · rw [none_]
      exact Nat.zero_le _
    · generalize labels.countP (failsToAccept relay) = count at far ⊢
      cases count with
      | zero => exact Nat.zero_le _
      | succ count =>
          have spans : count * ACCEPT_ERROR_BACKOFF ≤ s.now - m.now := by
            rw [Nat.succ_mul] at far
            omega
          have fits := (Nat.le_div_iff_mul_le (by decide : 0 < ACCEPT_ERROR_BACKOFF)).mpr spans
          omega
  · intro accepting n
    have fails : (running settings tls T).step s (.act (.metricsListener .acceptFailed)) = some s := by
      obtain ⟨now, ⟨⟨server, loops, listener, connections, closed, phase⟩, a, b, c, d, e⟩⟩ := s
      subst accepting
      rfl
    induction n with
    | zero => rfl
    | succ n ih =>
        rw [List.replicate_succ, Machine.exec_cons, fails]
        exact ih

/-- The process is out of file descriptors: each listener fails, and the metrics listener goes
on failing. -/
theorem accept_failures_emfile :
    ∃ s, (running ServerState.twoRelays false ⟨fun _ => 5, 10⟩).exec
        ⟨7, ⟨⟨.start ServerState.twoRelays, [], some .accepting, [], false, .serving⟩, fun _ => 0,
          fun _ => 0, fun _ => 0, 0, 0⟩⟩
        [.act (.listener 0 .acceptFailed), .act (.metricsListener .acceptFailed), .tick,
          .act (.listener 1 .acceptFailed), .tick] = some s ∧
      (running ServerState.twoRelays false ⟨fun _ => 5, 10⟩).exec s
        (List.replicate 1000000 (.act (.metricsListener .acceptFailed))) = some s := by
  have ran : ∃ s, (running ServerState.twoRelays false ⟨fun _ => 5, 10⟩).exec
      ⟨7, ⟨⟨.start ServerState.twoRelays, [], some .accepting, [], false, .serving⟩, fun _ => 0,
        fun _ => 0, fun _ => 0, 0, 0⟩⟩
      [.act (.listener 0 .acceptFailed), .act (.metricsListener .acceptFailed), .tick,
        .act (.listener 1 .acceptFailed), .tick] = some s ∧
      s.state.run.metricsListener = some .accepting := ⟨_, rfl, rfl⟩
  obtain ⟨s, ran, accepting⟩ := ran
  exact ⟨s, ran, (accept_failures ran).2 accepting 1000000⟩

end Stamped

end Portrelay.Server
