/-
# Server.Work -- the work that is due comes to an end

What a listener, a connection task and the other tasks of the server have left to do before
they wait again, as a number that each of their own steps lowers.

* `Listener.Stepped.work` / `Task.Stepped.work` -- a step other than what a peer brings
  lowers it, the task that it spawns included.
* `due_step` -- where work is due, a step is enabled that lowers it.
* `running_goes_on` -- time can always go on.
* `shutdown_in_time` -- `run` returns within the shutdown timeout and a second.
-/
import Portrelay.Server.Deadlines

namespace Portrelay.Server

open Portrelay.Theory Portrelay.Relay Portrelay.Metrics

set_option autoImplicit false

/-! ## What is left to do -/

def Listener.work : Listener → Nat
  | .stopped => 0
  | .accepting => 1
  | .backoff => 2
  | .checking => 39
  | .acquiring rest held => 2 * rest.length + held.length + 30
  | .refusing updates held => updates.length + held.length + 4
  | .rollingBack held => held.length + 3
  | .counting updates held => updates.length + held.length + 24
  | .spawning held => held.length + 23

def Task.work (t : Task) : Nat :=
  match t.phase with
  | .connecting => t.held.length + 20
  | .releasing rest => t.held.length + rest.length + 15
  | .transferring _ => t.held.length + 13
  | .closing updates => t.held.length + updates.length + 2
  | .returning => t.held.length + 1

def RefreshLoop.work : RefreshLoop → Nat
  | .stopped => 0
  | .ticking => 1
  | .refreshing => 2

def MetricsConnection.work : MetricsConnection → Nat
  | .finished => 0
  | .closing => 1
  | .writingBody => 2
  | .writingHeader => 3
  | .reading => 4
  | .handshaking => 5

def MetricsListener.work : MetricsListener → Nat
  | .stopped => 0
  | .accepting => 1
  | .spawning => 7

def RunPhase.work : RunPhase → Nat
  | .serving => 6
  | .joining => 5
  | .draining => 4
  | .forcing => 3
  | .forcedDraining => 2
  | .forcedJoining => 1
  | .returned _ => 0

def ServerState.work (s : ServerState) : Nat :=
  tally (fun b => b.listener.work) s.relays + tally Task.work s.tasks

def RunState.work (s : RunState) : Nat :=
  s.server.work + tally RefreshLoop.work s.refreshLoops +
    (s.metricsListener.map MetricsListener.work).getD 0 +
    tally MetricsConnection.work s.metricsConnections + s.phase.work

/-! ## One listener, one task -/

theorem observe_length (duration : Nat) : (Histogram.observe duration).length ≤ 3 := by
  unfold Histogram.observe
  cases Histogram.bucketOf duration <;> simp

theorem closed_length (duration a b : Nat) : (RelayMetrics.closed duration a b).length ≤ 7 := by
  have observed := observe_length duration
  simp only [RelayMetrics.closed, List.length_append, List.length_cons, List.length_nil,
    List.length_map]
  omega

theorem Listener.Stepped.work {settings : Settings} {relay : Nat} {free : Limit → Nat}
    {shutdown force : Bool} {listener after : Listener} {event : ListenerEvent} {effect : Effect}
    (moved : Stepped settings relay free shutdown force listener event after effect)
    (own : event ≠ .accept ∧ event ≠ .acceptFailed) :
    after.work + effect.spawned relay Task.work < listener.work := by
  cases moved with
  | took => exact absurd rfl own.1
  | failed => exact absurd rfl own.2
  | ended waits told =>
      rcases waits with rfl | rfl
      · exact Nat.zero_lt_one
      · exact Nat.zero_lt_two
  | _ =>
      simp [Listener.work, Effect.spawned, Task.work, admission, RelayMetrics.accepted,
        RelayMetrics.rejected]
      try omega

theorem Task.close_work {t : Task} {before : List MetricUpdate} (elapsed : Nat) (ending : Ending)
    (short : before.length ≤ 1) : (t.close before elapsed ending).1.work ≤ t.held.length + 10 := by
  have last := closed_length elapsed ending.reported.1 ending.reported.2
  simp only [Task.close, Task.work, List.length_append]
  omega

theorem Task.Stepped.work {settings : Settings} {force : Bool} {t after : Task} {event : TaskEvent}
    {effect : Effect} (moved : Stepped settings force t event after effect)
    (own : ∀ e, event ≠ .forward e) : after.work < t.work := by
  have transferring : ∀ {forward : Forward}, t.phase = .transferring forward →
      t.held.length + 10 < t.work := by
    intro forward phase
    simp only [Task.work, phase]
    omega
  cases moved with
  | forwarded phase moved => exact absurd rfl (own _)
  | @connectEnded event before elapsed phase why =>
      have short : before.length ≤ 1 := by rcases why with rfl | rfl | rfl <;> decide
      have closes := t.close_work elapsed ⟨(0, 0), (0, 0)⟩ short
      simp only [Task.work, phase] at closes ⊢
      omega
  | cutOff phase forced running =>
      exact Nat.lt_of_le_of_lt (t.close_work _ _ (Nat.zero_le 1)) (transferring phase)
  | finished phase ok =>
      exact Nat.lt_of_le_of_lt (t.close_work _ _ (Nat.zero_le 1)) (transferring phase)
  | @failed elapsed forward error before phase failure why =>
      have short : before.length ≤ 1 := by rcases why with rfl | rfl <;> decide
      exact Nat.lt_of_le_of_lt (t.close_work _ _ short) (transferring phase)
  | gaveBackEarly phase member =>
      have some_ := List.length_pos_of_mem member
      simp only [Task.work, phase, List.length_erase_of_mem member, List.length_cons]
      omega
  | connected phase | unlimited phase without | started phase configured | counted phase
  | returned phase =>
      simp only [Task.work, phase, List.length_cons, List.length_nil]
      omega
  | gaveBack phase last =>
      simp only [Task.work, phase, last, List.length_cons]
      omega

/-! ## The server -/

namespace ServerState

variable {settings : Settings}

theorem perform_work (s : ServerState) (relay : Nat) (effect : Effect) :
    (s.perform relay effect).work = s.work + effect.spawned relay Task.work := by
  cases effect with
  | update u => exact congrArg (· + tally Task.work s.tasks) (tally_modify _ _ _ fun _ => rfl)
  | taken => exact congrArg (· + tally Task.work s.tasks) (tally_modify _ _ _ fun _ => rfl)
  | dropped => exact congrArg (· + tally Task.work s.tasks) (tally_modify _ _ _ fun _ => rfl)
  | spawn held =>
      simp only [work, perform, tally_append, tally_cons, tally_nil, Effect.spawned]
      omega
  | none | acquire limit | release limit => rfl

theorem listener_work {s t : ServerState} {relay : Nat} {event : ListenerEvent}
    (stepped : step settings s (.listener relay event) = some t)
    (own : event ≠ .accept ∧ event ≠ .acceptFailed) : t.work < s.work := by
  cases step_stepped stepped with
  | @listener _ _ b after effect found moved =>
      have less := moved.work own
      have sum := tally_set (fun b => b.listener.work) { b with listener := after } found
      rw [perform_work]
      simp only [work] at sum ⊢
      omega

theorem task_work {s t : ServerState} {index : Nat} {event : TaskEvent}
    (stepped : step settings s (.task index event) = some t) (own : ∀ e, event ≠ .forward e) :
    t.work < s.work := by
  cases step_stepped stepped with
  | @task _ _ u after effect found moved =>
      have less := moved.work own
      have sum := tally_set Task.work after found
      have none_ : effect.spawned u.relay Task.work = 0 := by
        cases effect with
        | spawn held => exact absurd rfl (moved.no_spawn held)
        | _ => rfl
      rw [perform_work, none_]
      simp only [work] at sum ⊢
      omega

end ServerState

/-! ## A step for what is due -/

/-- A listener has a step that waits for no client, nor for a timer that is still running. -/
def Listener.Goes (settings : Settings) (relay : Nat) (free : Limit → Nat)
    (shutdown force expired : Bool) (listener : Listener) : Prop :=
  ∃ event after, listener.step settings relay free shutdown force event = some after ∧
    (event ≠ .accept ∧ event ≠ .acceptFailed) ∧ (event = .wake → expired = true)

theorem Listener.due_step {settings : Settings} {relay : Nat} {free : Limit → Nat}
    {shutdown force expired : Bool} {listener : Listener}
    (due : listener.due (shutdown || force) expired = true) :
    listener.Goes settings relay free shutdown force expired := by
  have told : (shutdown || force) = true → (listener = .accepting ∨ listener = .backoff) →
      listener.Goes settings relay free shutdown force expired := by
    intro told waits
    rcases (Bool.or_eq_true _ _).mp told with rfl | rfl
    · refine ⟨.stop, (.stopped, .none), ?_, by decide, nofun⟩
      rcases waits with rfl | rfl <;> rfl
    · refine ⟨.abort, (.stopped, .none), ?_, by decide, nofun⟩
      rcases waits with rfl | rfl <;> cases shutdown <;> rfl
  have next : ∀ {after}, listener.step settings relay free shutdown force .next = some after →
      listener.Goes settings relay free shutdown force expired := by
    intro after moved
    exact ⟨.next, after, moved, by decide, nofun⟩
  cases listener with
  | accepting => exact told due (Or.inl rfl)
  | backoff =>
      rcases (Bool.or_eq_true _ _).mp due with cancelled | late
      · exact told cancelled (Or.inr rfl)
      · exact ⟨.wake, (.accepting, .none), rfl, by decide, fun _ => late⟩
  | stopped => cases due
  | checking =>
      cases shutdown with
      | false => exact next rfl
      | true => exact next rfl
  | acquiring rest held =>
      cases rest with
      | nil => exact next rfl
      | cons limit rest =>
          cases limited : settings.limit limit with
          | none => exact next (by simp only [Listener.step, limited]; rfl)
          | some permits =>
              by_cases exhausted : free limit = 0
              · exact next (by simp only [Listener.step, limited, exhausted]; rfl)
              · exact next (by simp only [Listener.step, limited, exhausted]; rfl)
  | refusing updates held =>
      cases updates with
      | nil => exact next rfl
      | cons u updates => exact next rfl
  | rollingBack held =>
      cases held with
      | nil => exact next rfl
      | cons limit held => exact next rfl
  | counting updates held =>
      cases updates with
      | nil => exact next rfl
      | cons u updates => exact next rfl
  | spawning held => exact next rfl

/-- A connection task has a step that waits for no peer, nor for a timer still running. -/
def Task.Goes (settings : Settings) (force expired : Bool) (t : Task) : Prop :=
  ∃ event after, t.step settings force event = some after ∧ (∀ e, event ≠ .forward e) ∧
    ∀ elapsed, event = .connectTimedOut elapsed → expired = true

theorem Task.due_step {settings : Settings} {force expired : Bool} {t : Task} {spec : RelaySpec}
    (configured : settings.relays[t.relay]? = some spec) (due : t.due force expired = true) :
    t.Goes settings force expired := by
  have raced : force = true → t.suspended = true → t.Goes settings force expired := by
    rintro rfl suspended
    obtain ⟨after, moved⟩ := t.suspended_raced settings suspended 0
    exact ⟨.forced 0, after, moved, nofun, nofun⟩
  have goes : t.finished = false → t.suspended = false → t.Goes settings force expired := by
    intro unfinished running
    rcases @Task.goes_on settings force t spec configured unfinished running with
      ⟨after, moved⟩ | settled
    · exact ⟨.next, after, moved, nofun, nofun⟩
    · obtain ⟨after, moved⟩ := settled 0
      exact ⟨.settled 0, after, moved, nofun, nofun⟩
  unfold Task.due at due
  cases phase : t.phase with
  | connecting =>
      rw [phase] at due
      rcases (Bool.or_eq_true _ _).mp due with forced | late
      · exact raced forced (by simp only [suspended, phase])
      · refine ⟨.connectTimedOut 0, t.close RelayMetrics.upstreamTimeout 0 ⟨(0, 0), (0, 0)⟩, ?_,
          nofun, fun _ _ => late⟩
        simp only [Task.step, phase]
  | transferring forward =>
      rw [phase] at due
      rcases (Bool.or_eq_true _ _).mp due with forced | settled
      · cases result : forward.result with
        | none => exact raced forced (by simp [suspended, phase, result])
        | some outcome =>
            exact goes (by simp only [finished, phase]) (by simp [suspended, phase, result])
      · obtain ⟨outcome, result⟩ := Option.isSome_iff_exists.mp settled
        exact goes (by simp only [finished, phase]) (by simp [suspended, phase, result])
  | releasing rest => exact goes (by simp only [finished, phase]) (by simp only [suspended, phase])
  | closing updates => exact goes (by simp only [finished, phase]) (by simp only [suspended, phase])
  | returning =>
      rw [phase] at due
      refine goes ?_ (by simp only [suspended, phase])
      simp only [finished, phase]
      exact (Bool.not_eq_true' _).mp due

namespace RunState

variable {settings : Settings} {tls : Bool}

/-- While `run` drains, its tracker is closed. -/
theorem reachable_closed {s : RunState} (reached : (machine settings tls).Reachable s) :
    s.phase = .draining → s.trackerClosed = true := by
  refine (machine settings tls).invariant
    (P := fun s => s.phase = .draining → s.trackerClosed = true) ?_ ?_ reached
  · intro s initial draining
    rw [initial.serving] at draining
    cases draining
  · intro s label t _ closed stepped draining
    cases step_stepped stepped with
    | server unforced moved => exact closed draining
    | refreshed found moved => exact closed draining
    | listened found running => exact closed draining
    | served found moved => exact closed draining
    | joined joining ended => rfl
    | closed forcing => rfl
    | cancelled _ _ | drained _ _ | timedOut _ _ | waited _ | abortedJoined _ _ => cases draining

end RunState

namespace Stamped

variable {settings : Settings} {tls : Bool} {T : Timeouts}

/-- The server has a step that no timer forbids, and that leaves it less to do. -/
def Goes (settings : Settings) (tls : Bool) (T : Timeouts) (now : Nat) (s : Stamped) : Prop :=
  ∃ label run, s.allowed T now label = true ∧ s.run.step settings tls label = some run ∧
    run.work < s.run.work

theorem listener_goes {now : Nat} {s : Stamped} {relay : Nat} {b : BoundRelay}
    (found : s.run.server.relays[relay]? = some b)
    (due : b.listener.due (s.run.server.shutdown || s.run.server.force)
      (decide (s.failed relay + ACCEPT_ERROR_BACKOFF ≤ now)) = true) :
    s.Goes settings tls T now := by
  have goes : b.listener.Goes settings relay s.run.server.free s.run.server.shutdown
      s.run.server.force (decide (s.failed relay + ACCEPT_ERROR_BACKOFF ≤ now)) :=
    Listener.due_step due
  obtain ⟨event, after, moved, own, wakes⟩ := goes
  have steps : ∃ server, s.run.server.step settings (.listener relay event) = some server := by
    simp only [ServerState.step, found, moved, Option.map_some]
    exact ⟨_, rfl⟩
  obtain ⟨server, stepped⟩ := steps
  refine ⟨.listener relay event, { s.run with server }, ?_, congrArg (Option.map _) stepped, ?_⟩
  · cases event with
    | wake => exact wakes rfl
    | accept | acceptFailed | stop | abort | next => rfl
  · have less := ServerState.listener_work stepped own
    simp only [RunState.work]
    omega

theorem task_goes {now : Nat} {s : Stamped} {index : Nat} {t : Task} {spec : RelaySpec}
    (configured : settings.relays[t.relay]? = some spec)
    (found : s.run.server.tasks[index]? = some t)
    (due : t.due s.run.server.force (decide (s.connectDeadline T index t ≤ now)) = true) :
    s.Goes settings tls T now := by
  obtain ⟨event, after, moved, own, late⟩ := Task.due_step configured due
  have steps : ∃ server, s.run.server.step settings (.task index event) = some server := by
    simp only [ServerState.step, found, moved, Option.map_some]
    exact ⟨_, rfl⟩
  obtain ⟨server, stepped⟩ := steps
  refine ⟨.task index event, { s.run with server }, ?_, congrArg (Option.map _) stepped, ?_⟩
  · cases event with
    | connectTimedOut elapsed =>
        show (s.run.server.tasks[index]?.all fun t => decide (s.connectDeadline T index t ≤ now)) =
          true
        rw [found]
        exact late elapsed rfl
    | connected | connectFailed _ | forced _ | forward _ | settled _ | next => rfl
  · have less := ServerState.task_work stepped own
    simp only [RunState.work]
    omega

theorem loop_goes {now : Nat} {s : Stamped} {loop : RefreshLoop} (member : loop ∈ s.run.refreshLoops)
    (due : loop.due (s.run.server.shutdown || s.run.server.force) s.run.server.force = true) :
    s.Goes settings tls T now := by
  obtain ⟨index, found⟩ := List.mem_iff_getElem?.mp member
  have stops : ∃ event, loop.step s.run.server.shutdown s.run.server.force event = some .stopped := by
    cases loop with
    | stopped => cases due
    | ticking =>
        rcases (Bool.or_eq_true _ _).mp due with told | forced
        · exact ⟨.stop, if_pos told⟩
        · exact ⟨.abort, if_pos forced⟩
    | refreshing => exact ⟨.abort, if_pos due⟩
  obtain ⟨event, moved⟩ := stops
  refine ⟨.refreshLoop index event,
    { s.run with refreshLoops := s.run.refreshLoops.set index .stopped }, rfl, ?_, ?_⟩
  · simp only [RunState.step, found, moved, Option.map_some]
  · have running : 0 < loop.work := by
      cases loop with
      | stopped => cases due
      | ticking => exact Nat.zero_lt_one
      | refreshing => exact Nat.zero_lt_two
    have none_ : RefreshLoop.stopped.work = 0 := rfl
    have sum := tally_set RefreshLoop.work .stopped found
    rw [none_] at sum
    simp only [RunState.work]
    omega

theorem metrics_goes {now : Nat} {s : Stamped} {listener : MetricsListener}
    (found : s.run.metricsListener = some listener)
    (due : listener.due (s.run.server.shutdown || s.run.server.force) = true) :
    s.Goes settings tls T now := by
  have less : ∀ event after, listener.step s.run.server.shutdown s.run.server.force event = some after →
      after.1.work + (if after.2 then 5 else 0) < listener.work → s.Goes settings tls T now := by
    intro event after moved less
    have steps : ∃ run, s.run.step settings tls (.metricsListener event) = some run ∧
        run.work < s.run.work := by
      have spawned : (if tls = true then MetricsConnection.handshaking else .reading).work ≤ 5 := by
        cases tls <;> decide
      simp only [RunState.step, found, moved, Option.map_some]
      refine ⟨_, rfl, ?_⟩
      simp only [RunState.work, found, Option.map_some, Option.getD_some]
      cases spawns : after.2 with
      | true =>
          rw [spawns] at less
          simp only [if_true, tally_append, tally_cons, tally_nil] at less ⊢
          omega
      | false =>
          rw [spawns] at less
          simp only [Bool.false_eq_true, if_false] at less ⊢
          omega
    obtain ⟨run, moved, less⟩ := steps
    exact ⟨.metricsListener event, run, rfl, moved, less⟩
  cases listener with
  | stopped => cases due
  | spawning => exact less .spawn (.accepting, true) rfl (by decide)
  | accepting =>
      rcases (Bool.or_eq_true _ _).mp due with told | forced
      · exact less .stop (.stopped, false) (if_pos told) (by decide)
      · exact less .abort (.stopped, false) (if_pos forced) (by decide)

theorem connection_goes {now : Nat} {s : Stamped} {index : Nat} {connection : MetricsConnection}
    (found : s.run.metricsConnections[index]? = some connection) {expired : Bool}
    (due : connection.due tls s.run.server.force expired = true) : s.Goes settings tls T now := by
  have less : ∀ event after, connection.step s.run.server.force event = some after →
      after.work < connection.work → s.Goes settings tls T now := by
    intro event after moved less
    refine ⟨.metricsConnection index event,
      { s.run with metricsConnections := s.run.metricsConnections.set index after }, rfl, ?_, ?_⟩
    · simp only [RunState.step, found, moved, Option.map_some]
    · have sum := tally_set MetricsConnection.work after found
      simp only [RunState.work]
      omega
  cases connection with
  | handshaking =>
      rcases (Bool.or_eq_true _ _).mp due with forced | late
      · exact less .forced .finished (if_pos forced) (by decide)
      · exact less .handshakeFailed .finished rfl (by decide)
  | reading =>
      rcases (Bool.or_eq_true _ _).mp due with forced | late
      · exact less .forced .closing (if_pos forced) (by decide)
      · exact less .readFailed .closing rfl (by decide)
  | closing => exact less .closed .finished rfl (by decide)
  | writingHeader | writingBody | finished => cases due

theorem run_goes {now : Nat} {s : Stamped} (reached : (RunState.machine settings tls).Reachable s.run)
    (due : s.runDue T now = true) : s.Goes settings tls T now := by
  have inv := reachable_inv reached
  have less : ∀ event run, s.allowed T now (.run event) = true →
      s.run.runStep settings event = some run → run.work < s.run.work → s.Goes settings tls T now :=
    fun event run allowed moved less => ⟨.run event, run, allowed, moved, less⟩
  have elapses : (s.run.phase = .joining ∨ s.run.phase = .draining) → s.began + T.shutdown ≤ now →
      s.Goes settings tls T now := by
    intro waiting late
    have told : s.run.server.shutdown = true :=
      inv.told (by rcases waiting with phase | phase <;> rw [phase] <;> nofun)
    refine less .timeoutElapsed
      { s.run with server := { s.run.server with force := true }, phase := .forcing }
      (decide_eq_true late) ?_ ?_
    · simp only [RunState.runStep, if_pos waiting, ServerState.step, if_pos told, Option.map_some]
    · simp only [RunState.work, ServerState.work]
      rcases waiting with phase | phase <;> rw [phase] <;> simp only [RunPhase.work] <;> omega
  unfold runDue at due
  split at due
  · rename_i phase
    refine less .cancelled { s.run with phase := .joining } rfl (if_pos ⟨phase, due⟩) ?_
    simp only [RunState.work, phase, RunPhase.work]
    omega
  · rename_i phase
    rcases (Bool.or_eq_true _ _).mp due with ended | late
    · refine less .joined { s.run with phase := .draining, trackerClosed := true } rfl
        (if_pos ⟨phase, ended⟩) ?_
      simp only [RunState.work, phase, RunPhase.work]
      omega
    · exact elapses (Or.inl phase) (of_decide_eq_true late)
  · rename_i phase
    rcases (Bool.or_eq_true _ _).mp due with empty | late
    · refine less .drained { s.run with phase := .returned false } rfl
        (if_pos ⟨phase, RunState.reachable_closed reached phase, empty⟩) ?_
      simp only [RunState.work, phase, RunPhase.work]
      omega
    · exact elapses (Or.inr phase) (of_decide_eq_true late)
  · rename_i phase
    refine less .closeTracker { s.run with phase := .forcedDraining, trackerClosed := true } rfl
      (if_pos phase) ?_
    simp only [RunState.work, phase, RunPhase.work]
    omega
  · rename_i phase
    refine less .waited { s.run with phase := .forcedJoining } due (if_pos phase) ?_
    simp only [RunState.work, phase, RunPhase.work]
    omega
  · rename_i phase
    refine less .abortedJoined { s.run with phase := .returned true } rfl (if_pos ⟨phase, due⟩) ?_
    simp only [RunState.work, phase, RunPhase.work]
    omega
  · cases due

/-- Where work is due, a step is enabled that lowers it. -/
theorem due_step {now : Nat} {s : Stamped} (reached : (RunState.machine settings tls).Reachable s.run)
    (server : (ServerState.machine settings).Reachable s.run.server)
    (due : s.urgent tls T now = true) : s.Goes settings tls T now := by
  unfold urgent at due
  simp only [Bool.or_eq_true, List.any_eq_true, Option.any_eq_true] at due
  rcases due with ((((⟨⟨b, relay⟩, member, due⟩ | ⟨⟨t, index⟩, member, due⟩) | ⟨loop, member, due⟩) |
    ⟨listener, found, due⟩) | ⟨⟨connection, index⟩, member, due⟩) | due
  · exact listener_goes (List.mk_mem_zipIdx_iff_getElem?.mp member) due
  · have found := List.mk_mem_zipIdx_iff_getElem?.mp member
    obtain ⟨spec, configured⟩ := ServerState.configured server t (List.mem_of_getElem? found)
    exact task_goes configured found due
  · exact loop_goes member due
  · exact metrics_goes found due
  · exact connection_goes (List.mk_mem_zipIdx_iff_getElem?.mp member) due
  · exact run_goes reached due

theorem running_goes_on {s : Timed Stamped} (reached : (running settings tls T).Reachable s)
    (n : Nat) : ∃ labels t, (running settings tls T).exec s labels = some t ∧ t.now = s.now + n := by
  refine Clocked.time_goes_on (C := clocked settings tls T)
    (P := fun _ s => (RunState.machine settings tls).Reachable s.run ∧
      (ServerState.machine settings).Reachable s.run.server)
    (fun _ s => s.run.work) ?_ ?_ reached n
  · intro s reached
    exact ⟨reachable_run reached, reachable_server reached⟩
  · rintro now s ⟨run, server⟩ due
    obtain ⟨label, after, allowed, moved, less⟩ := due_step run server due
    refine ⟨label, s.stamp now after label, ?_, ⟨?_, ?_⟩, ?_⟩
    · simp only [clocked, step, if_pos allowed, moved, Option.map_some]
    · rw [stamp_run]
      exact .step run moved
    · rw [stamp_run]
      have moves := RunState.step_onServer moved
      cases seen : RunState.onServer label with
      | none =>
          rw [seen] at moves
          have still : after.server = s.run.server := moves
          rw [still]
          exact server
      | some l =>
          rw [seen] at moves
          exact .step server moves
    · rw [stamp_run]
      exact less

/-- Whatever the peers and the resolver do: a second and the shutdown timeout after its
cancellation `run` has returned, it forces nothing before the timeout has passed, and no run
is stuck at an instant. -/
theorem shutdown_in_time {m s : Timed Stamped} {labels : List (TimedLabel RunLabel)}
    (reached : (running settings tls T).Reachable m)
    (ran : (running settings tls T).exec m labels = some s) :
    (m.state.run.server.shutdown = true → m.now + T.shutdown + FORCED_WAIT < s.now →
      ∃ timedOut, s.state.run.phase = .returned timedOut) ∧
    (m.state.run.server.shutdown = false → s.state.run.phase.forced = true →
      m.now + T.shutdown ≤ s.now) ∧
    ∀ n, ∃ more t, (running settings tls T).exec s more = some t ∧ t.now = s.now + n := by
  have after := reached.exec ran
  refine ⟨?_, ?_, running_goes_on after⟩
  · intro told late
    obtain ⟨still, same⟩ := told_kept told ran
    have before := told_le reached told
    refine returned_of_late after still ?_
    rw [same]
    omega
  · intro untold forced
    have told : s.state.run.server.shutdown = true := by
      apply (reachable_inv (reachable_run after)).told
      intro serving
      rw [serving] at forced
      cases forced
    have later := told_ge untold ran told
    have waited := forced_late after forced
    omega

/-- Two relays, and the refresh loop of one of them. -/
def twoServing : Stamped where
  run := ⟨.start ServerState.twoRelays, [.ticking], none, [], false, .serving⟩
  spawned _ := 0
  failed _ := 0
  served _ := 0
  began := 0
  told := 0

/-- They may connect for five instants, and have ten to shut down. -/
def twoRunning : Machine (Timed Stamped) (TimedLabel RunLabel) :=
  running ServerState.twoRelays false ⟨fun _ => 5, 10⟩

/-- A client of the first relay is connected to its target. -/
def connectedClient : List (TimedLabel RunLabel) :=
  .act (.listener 0 .accept) :: List.replicate 10 (.act (.listener 0 .next)) ++
    .act (.task 0 .connected) :: List.replicate 3 (.act (.task 0 .next)) ++ [.tick]

/-- `run` has joined its listeners, and the connection outlasts the shutdown timeout. -/
def outlasted : List (TimedLabel RunLabel) :=
  [.act (.listener 0 .stop), .act (.listener 1 .stop), .act (.refreshLoop 0 .stop),
    .act (.run .cancelled), .act (.run .joined)] ++
    List.replicate 10 .tick ++ [.act (.run .timeoutElapsed)]

theorem shutdown_in_time_outlasted :
    ∃ m c s, twoRunning.exec ⟨7, twoServing⟩ connectedClient = some m ∧
      twoRunning.exec m [.act .cancel] = some c ∧ twoRunning.exec c outlasted = some s ∧
      s.state.run.trackerEmpty = false ∧ s.state.run.phase = .forcing ∧ m.now + 10 ≤ s.now ∧
      ∃ more t timedOut, twoRunning.exec s more = some t ∧ c.now + 10 + FORCED_WAIT < t.now ∧
        t.state.run.phase = .returned timedOut := by
  have connects : ∃ m, twoRunning.exec ⟨7, twoServing⟩ connectedClient = some m ∧
      m.state.run.server.shutdown = false := ⟨_, rfl, rfl⟩
  have cancels : ∃ c, twoRunning.exec ⟨7, twoServing⟩ (connectedClient ++ [.act .cancel]) =
      some c ∧ c.now = 8 ∧ c.state.run.server.shutdown = true := ⟨_, rfl, rfl, rfl⟩
  have waits : ∃ s, twoRunning.exec ⟨7, twoServing⟩
      (connectedClient ++ ([.act .cancel] ++ outlasted)) = some s ∧ s.now = 18 ∧
      s.state.run.trackerEmpty = false ∧ s.state.run.phase = .forcing := ⟨_, rfl, rfl, rfl, rfl⟩
  obtain ⟨m, connects, untold⟩ := connects
  obtain ⟨c, cancels, started, told⟩ := cancels
  obtain ⟨s, waits, waited, open_, forcing⟩ := waits
  rw [Machine.exec_append, connects, Option.bind_some] at cancels waits
  have reached : twoRunning.Reachable m := .exec (.start ⟨rfl, rfl, rfl, rfl⟩) connects
  obtain ⟨-, early, goes⟩ := shutdown_in_time reached waits
  have late := early untold (by rw [forcing]; rfl)
  obtain ⟨more, t, later, there⟩ := goes (1 + FORCED_WAIT)
  rw [Machine.exec_append, cancels, Option.bind_some] at waits
  have whole : twoRunning.exec c (outlasted ++ more) = some t := by
    rw [Machine.exec_append, waits]
    exact later
  have passed : c.now + 10 + FORCED_WAIT < t.now := by omega
  obtain ⟨inTime, -⟩ := shutdown_in_time (reached.exec cancels) whole
  obtain ⟨timedOut, returned⟩ := inTime told passed
  exact ⟨m, c, s, connects, cancels, waits, open_, forcing, late, more, t, timedOut, later, passed,
    returned⟩

end Stamped

end Portrelay.Server
