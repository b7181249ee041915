/-
# Server.Deadlines -- the server against a clock

The timeouts of `src/server.rs` and `src/relay.rs`: the connect timeout, the pause after a
failed `accept`, the request timeout of the metrics, the shutdown timeout and the second
after it.  `Stamped` puts beside a `RunState` when each of these began; a timer fires no
earlier than it is due, and time does not pass while a task has work to do (`urgent`).
What depends on a peer or on the resolver may take any time.

* `reachable_run` -- beside the clock, the server takes the steps it takes without one.
* `returned_of_late` -- when the shutdown timeout and a second have passed since the
  cancellation, `run` has returned.
* `forced_late` -- nothing is forced before the shutdown timeout has passed.
-/
import Portrelay.Theory.Clock
import Portrelay.Server.ForcedShutdown
import Portrelay.Server.Scrapes

namespace Portrelay.Server

open Portrelay.Theory Portrelay.Relay Portrelay.Metrics

set_option autoImplicit false

/-! ## Durations, in nanoseconds -/

def ACCEPT_ERROR_BACKOFF : Nat := 100_000_000

def METRICS_REQUEST_TIMEOUT : Nat := 5_000_000_000

/-- `Duration::from_secs(1)`, for the tasks that were told to stop. -/
def FORCED_WAIT : Nat := 1_000_000_000

structure Timeouts where
  /-- `connect_timeout` of each relay -/
  connect : Nat → Nat
  shutdown : Nat

/-! ## Work that is due -/

/-- A listener that is not waiting, or need not wait on. -/
def Listener.due (told expired : Bool) : Listener → Bool
  | .accepting => told
  | .backoff => told || expired
  | .stopped => false
  | _ => true

def Task.due (force expired : Bool) (t : Task) : Bool :=
  match t.phase with
  | .connecting => force || expired
  | .transferring forward => force || forward.result.isSome
  | .returning => !t.held.isEmpty
  | _ => true

def RefreshLoop.due (told force : Bool) : RefreshLoop → Bool
  | .ticking => told
  | .refreshing => force
  | .stopped => false

def MetricsListener.due (told : Bool) : MetricsListener → Bool
  | .accepting => told
  | .spawning => true
  | .stopped => false

/-- The writes wait for the client, and so does the `shutdown` of a TLS stream. -/
def MetricsConnection.due (tls force expired : Bool) : MetricsConnection → Bool
  | .handshaking => force || expired
  | .reading => force || expired
  | .closing => !tls
  | _ => false

/-! ## The server and its timers -/

/-- When each timeout began. -/
structure Stamped where
  run : RunState
  /-- of each connection task -/
  spawned : Nat → Nat
  /-- of each relay listener's last failed `accept` -/
  failed : Nat → Nat
  /-- of each metrics connection's handshake or read -/
  served : Nat → Nat
  /-- of the timeout `run` is in -/
  began : Nat
  /-- when the shutdown token was cancelled -/
  told : Nat

def setAt (marks : Nat → Nat) (index now : Nat) : Nat → Nat :=
  fun i => if i = index then now else marks i

namespace Stamped

variable (settings : Settings) (tls : Bool) (T : Timeouts)

/-- When task `index` of the connections has waited its connect timeout. -/
def connectDeadline (s : Stamped) (index : Nat) (t : Task) : Nat :=
  s.spawned index + T.connect t.relay

/-- A timer fires when it is due, or later. -/
def allowed (now : Nat) (s : Stamped) : RunLabel → Bool
  | .listener relay .wake => decide (s.failed relay + ACCEPT_ERROR_BACKOFF ≤ now)
  | .task index (.connectTimedOut _) =>
      s.run.server.tasks[index]?.all fun t => decide (s.connectDeadline T index t ≤ now)
  | .run .timeoutElapsed => decide (s.began + T.shutdown ≤ now)
  | .run .waited => s.run.trackerEmpty || decide (s.began + FORCED_WAIT ≤ now)
  | _ => true

/-- The timeouts that a step begins. -/
def stamp (now : Nat) (s : Stamped) (run : RunState) : RunLabel → Stamped
  | .cancel => { s with run, told := if s.run.server.shutdown then s.told else now }
  | .listener relay .acceptFailed => { s with run, failed := setAt s.failed relay now }
  | .listener _ .next =>
      -- the task that the step spawns, if it spawns one, is the next
      { s with run, spawned := setAt s.spawned s.run.server.tasks.length now }
  | .metricsListener .spawn =>
      { s with run, served := setAt s.served s.run.metricsConnections.length now }
  | .metricsConnection index .handshook => { s with run, served := setAt s.served index now }
  | .run .cancelled => { s with run, began := now }
  | .run .closeTracker => { s with run, began := now }
  | _ => { s with run }

def step (now : Nat) (s : Stamped) (label : RunLabel) : Option Stamped :=
  if s.allowed T now label then
    (s.run.step settings tls label).map fun run => s.stamp now run label
  else none

/-- `run` itself has something to do. -/
def runDue (now : Nat) (s : Stamped) : Bool :=
  match s.run.phase with
  | .serving => s.run.server.shutdown
  | .joining => s.run.listenersEnded || decide (s.began + T.shutdown ≤ now)
  | .draining => s.run.trackerEmpty || decide (s.began + T.shutdown ≤ now)
  | .forcing => true
  | .forcedDraining => s.run.trackerEmpty || decide (s.began + FORCED_WAIT ≤ now)
  | .forcedJoining => s.run.listenersEnded
  | .returned _ => false

/-- Some task of the server has work to do. -/
def urgent (now : Nat) (s : Stamped) : Bool :=
  let server := s.run.server
  let told := server.shutdown || server.force
  (server.relays.zipIdx.any fun (b, relay) =>
    b.listener.due told (decide (s.failed relay + ACCEPT_ERROR_BACKOFF ≤ now))) ||
  (server.tasks.zipIdx.any fun (t, index) =>
    t.due server.force (decide (s.connectDeadline T index t ≤ now))) ||
  (s.run.refreshLoops.any fun loop => loop.due told server.force) ||
  (s.run.metricsListener.any fun listener => listener.due told) ||
  (s.run.metricsConnections.zipIdx.any fun (connection, index) =>
    connection.due tls server.force (decide (s.served index + METRICS_REQUEST_TIMEOUT ≤ now))) ||
  s.runDue T now

def clocked : Clocked Stamped RunLabel :=
  ⟨fun _ s => s.run.Initial settings, step settings tls T, urgent tls T⟩

/-- The server, and time passing. -/
def running : Machine (Timed Stamped) (TimedLabel RunLabel) := (clocked settings tls T).timed

variable {settings tls T}

theorem step_some {now : Nat} {s t : Stamped} {label : RunLabel}
    (stepped : step settings tls T now s label = some t) :
    s.allowed T now label = true ∧
      ∃ run, s.run.step settings tls label = some run ∧ t = s.stamp now run label := by
  obtain ⟨allowed, stepped⟩ := Option.ite_none_right_eq_some.mp stepped
  obtain ⟨run, moved, same⟩ := Option.map_eq_some_iff.mp stepped
  exact ⟨allowed, run, moved, same.symm⟩

@[simp] theorem stamp_run (now : Nat) (s : Stamped) (run : RunState) (label : RunLabel) :
    (s.stamp now run label).run = run := by
  unfold stamp
  split <;> rfl

/-- The clock is beside the server: it takes no step the server could not. -/
theorem reachable_run {s : Timed Stamped} (reached : (running settings tls T).Reachable s) :
    (RunState.machine settings tls).Reachable s.state.run := by
  refine Clocked.within (C := clocked settings tls T)
    (P := fun _ s => (RunState.machine settings tls).Reachable s.run) ?_ ?_ ?_ reached
  · intro now s initial
    exact .start initial
  · intro now s label t before stepped
    obtain ⟨-, run, moved, rfl⟩ := step_some stepped
    rw [stamp_run]
    exact .step before moved
  · intro now s before idle
    exact before

theorem reachable_server {s : Timed Stamped} (reached : (running settings tls T).Reachable s) :
    (ServerState.machine settings).Reachable s.state.run.server := by
  obtain ⟨start, labels, initial, ran⟩ :=
    ((RunState.machine settings tls).reachable_iff_exec _).mp (reachable_run reached)
  exact ((ServerState.machine settings).reachable_iff_exec _).mpr
    ⟨start.server, _, initial.server, RunState.exec_onServer ran⟩

theorem reachable_inv {s : RunState} (reached : (RunState.machine settings tls).Reachable s) :
    s.Inv := by
  obtain ⟨start, labels, initial, ran⟩ :=
    ((RunState.machine settings tls).reachable_iff_exec _).mp reached
  exact RunState.exec_inv (RunState.initial_inv initial) ran

end Stamped

/-! ## Shutdown in time -/

namespace ServerState

variable {settings : Settings}

theorem step_told {s t : ServerState} {label : ServerLabel}
    (stepped : step settings s label = some t) (other : label ≠ .shutdown) :
    t.shutdown = s.shutdown := by
  have kept : ∀ (s : ServerState) relay effect, (s.perform relay effect).shutdown = s.shutdown := by
    intro s relay effect
    cases effect <;> rfl
  cases step_stepped stepped with
  | cancelled => exact absurd rfl other
  | forced told => rfl
  | listener found moved => rw [kept]
  | task found moved => rw [kept]

end ServerState

namespace RunState

variable {settings : Settings} {tls : Bool}

theorem step_told {s t : RunState} {label : RunLabel} (stepped : step settings tls s label = some t)
    (other : label ≠ .cancel) : t.server.shutdown = s.server.shutdown := by
  have moves := step_onServer stepped
  cases seen : onServer label with
  | none =>
      rw [seen] at moves
      exact congrArg ServerState.shutdown moves
  | some l =>
      rw [seen] at moves
      refine ServerState.step_told moves ?_
      rintro rfl
      cases label with
      | cancel => exact other rfl
      | run event => cases event <;> cases seen
      | listener _ _ | task _ _ | refreshLoop _ _ | metricsListener _ | metricsConnection _ _ =>
          cases seen

/-- Only `run` moves `run`. -/
theorem step_phase {s t : RunState} {label : RunLabel} (stepped : step settings tls s label = some t)
    (other : ∀ event, label ≠ .run event) : t.phase = s.phase := by
  cases label with
  | cancel | listener relay event | task index event =>
      simp only [step] at stepped
      obtain ⟨server, -, rfl⟩ := Option.map_eq_some_iff.mp stepped
      rfl
  | refreshLoop index event | metricsListener event | metricsConnection index event =>
      simp only [step] at stepped
      split at stepped <;> [cases stepped; skip]
      obtain ⟨after, -, rfl⟩ := Option.map_eq_some_iff.mp stepped
      rfl
  | run event => exact absurd rfl (other event)

end RunState

namespace Stamped

variable {settings : Settings} {tls : Bool} {T : Timeouts}

/-- Where `run` can be, and until when. -/
def InTime (T : Timeouts) (now : Nat) (s : Stamped) : Prop :=
  match s.run.phase with
  | .serving => s.run.server.shutdown = true → now = s.told
  | .joining => s.began = s.told ∧ now ≤ s.told + T.shutdown
  | .draining => s.began = s.told ∧ now ≤ s.told + T.shutdown
  | .forcing => now ≤ s.told + T.shutdown
  | .forcedDraining => s.began ≤ s.told + T.shutdown ∧ now ≤ s.began + FORCED_WAIT
  | .forcedJoining => now ≤ s.told + T.shutdown + FORCED_WAIT
  | .returned _ => True

/-- A step that neither cancels nor moves `run`. -/
theorem InTime.other {now : Nat} {s : Stamped} {label : RunLabel} {run : RunState}
    (inTime : s.InTime T now) (moved : s.run.step settings tls label = some run)
    (cancel : label ≠ .cancel) (other : ∀ event, label ≠ .run event) :
    (s.stamp now run label).InTime T now := by
  have marks : (s.stamp now run label).began = s.began ∧ (s.stamp now run label).told = s.told := by
    unfold stamp
    split
    · exact absurd rfl cancel
    · exact ⟨rfl, rfl⟩
    · exact ⟨rfl, rfl⟩
    · exact ⟨rfl, rfl⟩
    · exact ⟨rfl, rfl⟩
    · exact absurd rfl (other _)
    · exact absurd rfl (other _)
    · exact ⟨rfl, rfl⟩
  simp only [InTime, stamp_run, RunState.step_phase moved other, RunState.step_told moved cancel,
    marks.1, marks.2]
  exact inTime

theorem cancel_inTime {now : Nat} {s : Stamped} {run : RunState} (inv : s.run.Inv)
    (inTime : s.InTime T now) (moved : s.run.step settings tls .cancel = some run) :
    (s.stamp now run .cancel).InTime T now := by
  have phase := RunState.step_phase moved fun event => by simp
  unfold InTime at inTime ⊢
  rw [stamp_run, phase]
  by_cases told : s.run.server.shutdown = true
  · have same : (s.stamp now run .cancel).told = s.told := if_pos told
    have began : (s.stamp now run .cancel).began = s.began := rfl
    rw [same, began]
    split at inTime
    · intro _
      exact inTime told
    all_goals exact inTime
  · -- the first cancellation finds `run` serving
    have serving : s.run.phase = .serving := by
      by_contra later
      exact told (inv.told later)
    rw [serving]
    intro _
    exact (if_neg told).symm

theorem run_inTime {now : Nat} {s : Stamped} {event : RunEvent} {run : RunState}
    (inTime : s.InTime T now) (moved : s.run.step settings tls (.run event) = some run) :
    (s.stamp now run (.run event)).InTime T now := by
  unfold InTime at inTime
  cases event with
  | cancelled =>
      obtain ⟨⟨serving, told⟩, same⟩ := Option.ite_none_right_eq_some.mp moved
      obtain rfl := Option.some.inj same
      rw [serving] at inTime
      have here := inTime told
      exact ⟨here, Nat.le_trans (Nat.le_of_eq here) (Nat.le_add_right _ _)⟩
  | joined =>
      obtain ⟨⟨joining, -⟩, same⟩ := Option.ite_none_right_eq_some.mp moved
      obtain rfl := Option.some.inj same
      rw [joining] at inTime
      exact inTime
  | drained =>
      obtain ⟨-, same⟩ := Option.ite_none_right_eq_some.mp moved
      obtain rfl := Option.some.inj same
      trivial
  | timeoutElapsed =>
      obtain ⟨waiting, moved⟩ := Option.ite_none_right_eq_some.mp moved
      obtain ⟨server, -, rfl⟩ := Option.map_eq_some_iff.mp moved
      show now ≤ s.told + T.shutdown
      rcases waiting with joining | draining
      · rw [joining] at inTime
        exact inTime.2
      · rw [draining] at inTime
        exact inTime.2
  | closeTracker =>
      obtain ⟨forcing, same⟩ := Option.ite_none_right_eq_some.mp moved
      obtain rfl := Option.some.inj same
      rw [forcing] at inTime
      exact ⟨inTime, Nat.le_add_right _ _⟩
  | waited =>
      obtain ⟨draining, same⟩ := Option.ite_none_right_eq_some.mp moved
      obtain rfl := Option.some.inj same
      rw [draining] at inTime
      show now ≤ s.told + T.shutdown + FORCED_WAIT
      omega
  | abortedJoined =>
      obtain ⟨-, same⟩ := Option.ite_none_right_eq_some.mp moved
      obtain rfl := Option.some.inj same
      trivial

/-- No task has work to do. -/
structure Idle (tls : Bool) (T : Timeouts) (now : Nat) (s : Stamped) : Prop where
  listeners : ∀ (relay : Nat) (b : BoundRelay), s.run.server.relays[relay]? = some b →
    b.listener.due (s.run.server.shutdown || s.run.server.force)
      (decide (s.failed relay + ACCEPT_ERROR_BACKOFF ≤ now)) = false
  tasks : ∀ (index : Nat) (t : Task), s.run.server.tasks[index]? = some t →
    t.due s.run.server.force (decide (s.connectDeadline T index t ≤ now)) = false
  loops : ∀ loop ∈ s.run.refreshLoops,
    loop.due (s.run.server.shutdown || s.run.server.force) s.run.server.force = false
  metrics : ∀ listener : MetricsListener, s.run.metricsListener = some listener →
    listener.due (s.run.server.shutdown || s.run.server.force) = false
  connections : ∀ (index : Nat) (connection : MetricsConnection),
    s.run.metricsConnections[index]? = some connection → connection.due tls s.run.server.force
      (decide (s.served index + METRICS_REQUEST_TIMEOUT ≤ now)) = false
  run : s.runDue T now = false

theorem idle_iff (now : Nat) (s : Stamped) : s.urgent tls T now = false ↔ s.Idle tls T now := by
  unfold urgent
  simp only [Bool.or_eq_false_iff, List.any_eq_false, Option.any_eq_false, Bool.not_eq_true]
  constructor
  · rintro ⟨⟨⟨⟨⟨listeners, tasks⟩, loops⟩, metrics⟩, connections⟩, run⟩
    refine ⟨?_, ?_, loops, ?_, ?_, run⟩
    · intro relay b found
      exact listeners (b, relay) (List.mk_mem_zipIdx_iff_getElem?.mpr found)
    · intro index t found
      exact tasks (t, index) (List.mk_mem_zipIdx_iff_getElem?.mpr found)
    · intro listener found
      exact metrics listener found
    · intro index connection found
      exact connections (connection, index) (List.mk_mem_zipIdx_iff_getElem?.mpr found)
  · intro idle
    refine ⟨⟨⟨⟨⟨?_, ?_⟩, idle.loops⟩, ?_⟩, ?_⟩, idle.run⟩
    · rintro ⟨b, relay⟩ member
      exact idle.listeners relay b (List.mk_mem_zipIdx_iff_getElem?.mp member)
    · rintro ⟨t, index⟩ member
      exact idle.tasks index t (List.mk_mem_zipIdx_iff_getElem?.mp member)
    · intro listener found
      exact idle.metrics listener found
    · rintro ⟨connection, index⟩ member
      exact idle.connections index connection (List.mk_mem_zipIdx_iff_getElem?.mp member)

/-- With everything told to stop and nothing due, the listener tasks have ended. -/
theorem Idle.ended {now : Nat} {s : Stamped} (idle : s.Idle tls T now)
    (force : s.run.server.force = true) : s.run.listenersEnded = true := by
  have told : (s.run.server.shutdown || s.run.server.force) = true := by
    rw [force, Bool.or_true]
  refine (RunState.listenersEnded_iff s.run).mpr ⟨?_, ?_, ?_⟩
  · intro b member
    obtain ⟨relay, found⟩ := List.mem_iff_getElem?.mp member
    have resting := idle.listeners relay b found
    rw [told] at resting
    unfold Listener.due at resting
    split at resting
    · cases resting
    · cases resting
    · assumption
    · cases resting
  · intro loop member
    have resting := idle.loops loop member
    rw [told, force] at resting
    cases loop with
    | stopped => rfl
    | ticking | refreshing => cases resting
  · intro listener found
    have resting := idle.metrics listener found
    rw [told] at resting
    cases listener with
    | stopped => rfl
    | accepting | spawning => cases resting

theorem tick_inTime {now : Nat} {s : Stamped} (inv : s.run.Inv) (inTime : s.InTime T now)
    (idle : s.Idle tls T now) : s.InTime T (now + 1) := by
  have resting := idle.run
  unfold InTime at inTime ⊢
  unfold runDue at resting
  cases phase : s.run.phase with
  | serving =>
      rw [phase] at resting
      intro told
      exact absurd told (Bool.eq_false_iff.mp resting)
  | joining =>
      rw [phase] at resting inTime
      have early := (Bool.or_eq_false_iff.mp resting).2
      have before := of_decide_eq_false early
      exact ⟨inTime.1, by omega⟩
  | draining =>
      rw [phase] at resting inTime
      have early := (Bool.or_eq_false_iff.mp resting).2
      have before := of_decide_eq_false early
      exact ⟨inTime.1, by omega⟩
  | forcing =>
      rw [phase] at resting
      cases resting
  | forcedDraining =>
      rw [phase] at resting inTime
      have early := (Bool.or_eq_false_iff.mp resting).2
      have before := of_decide_eq_false early
      exact ⟨inTime.1, by omega⟩
  | forcedJoining =>
      rw [phase] at resting
      have force : s.run.server.force = true := by rw [inv.forced, phase]; rfl
      exact absurd (idle.ended force) (Bool.eq_false_iff.mp resting)
  | returned timedOut => trivial

theorem initial_inTime {now : Nat} {s : Stamped} (initial : s.run.Initial settings) :
    s.InTime T now := by
  unfold InTime
  rw [initial.serving, initial.server]
  intro told
  cases told

theorem step_inTime {now : Nat} {s t : Stamped} {label : RunLabel}
    (before : (RunState.machine settings tls).Reachable s.run) (inTime : s.InTime T now)
    (stepped : step settings tls T now s label = some t) : t.InTime T now := by
  obtain ⟨-, run, moved, rfl⟩ := step_some stepped
  cases label with
  | cancel => exact cancel_inTime (reachable_inv before) inTime moved
  | run event => exact run_inTime inTime moved
  | _ => exact inTime.other moved (by simp) (by simp)

theorem reachable_inTime {s : Timed Stamped} (reached : (running settings tls T).Reachable s) :
    s.state.InTime T s.now := by
  have both : (RunState.machine settings tls).Reachable s.state.run ∧ s.state.InTime T s.now := by
    refine Clocked.within (C := clocked settings tls T)
      (P := fun now s => (RunState.machine settings tls).Reachable s.run ∧ s.InTime T now)
      ?_ ?_ ?_ reached
    · intro now s initial
      exact ⟨.start initial, initial_inTime initial⟩
    · rintro now s label t ⟨before, inTime⟩ stepped
      have inTime' := step_inTime before inTime stepped
      obtain ⟨-, run, moved, rfl⟩ := step_some stepped
      exact ⟨(stamp_run now s run label).symm ▸ .step before moved, inTime'⟩
    · rintro now s ⟨before, inTime⟩ idle
      exact ⟨before, tick_inTime (reachable_inv before) inTime ((idle_iff now s).mp idle)⟩
  exact both.2

/-- Only the first cancellation sets its time. -/
theorem stamp_told {now : Nat} {s : Stamped} {run : RunState} {label : RunLabel}
    (other : label ≠ .cancel) : (s.stamp now run label).told = s.told := by
  unfold stamp
  split
  · exact absurd rfl other
  all_goals rfl

theorem told_le {s : Timed Stamped} (reached : (running settings tls T).Reachable s)
    (told : s.state.run.server.shutdown = true) : s.state.told ≤ s.now := by
  refine Clocked.within (C := clocked settings tls T)
    (P := fun now s => s.run.server.shutdown = true → s.told ≤ now) ?_ ?_ ?_ reached told
  · intro now s initial told
    rw [initial.server] at told
    cases told
  · intro now s label t before stepped told
    obtain ⟨-, run, moved, rfl⟩ := step_some stepped
    rw [stamp_run] at told
    by_cases cancel : label = .cancel
    · subst cancel
      show (if s.run.server.shutdown = true then s.told else now) ≤ now
      split
      · exact before ‹_›
      · exact Nat.le_refl now
    · rw [RunState.step_told moved cancel] at told
      rw [stamp_told cancel]
      exact before told
  · intro now s before _ told
    exact Nat.le_succ_of_le (before told)

theorem told_kept {s t : Timed Stamped} {labels : List (TimedLabel RunLabel)}
    (told : s.state.run.server.shutdown = true)
    (ran : (running settings tls T).exec s labels = some t) :
    t.state.run.server.shutdown = true ∧ t.state.told = s.state.told := by
  have along := (running settings tls T).along_of_kept
    (P := fun t => t.state.run.server.shutdown = true ∧ t.state.told = s.state.told)
    (by
      rintro t label u ⟨told, same⟩ stepped
      cases Clocked.timedStep_stepped stepped with
      | tick idle => exact ⟨told, same⟩
      | @act label v acted =>
          obtain ⟨-, run, moved, rfl⟩ := step_some acted
          show (t.state.stamp t.now run label).run.server.shutdown = true ∧
            (t.state.stamp t.now run label).told = s.state.told
          rw [stamp_run]
          by_cases cancel : label = .cancel
          · subst cancel
            simp only [RunState.step] at moved
            obtain ⟨server, cancelled, rfl⟩ := Option.map_eq_some_iff.mp moved
            obtain rfl := Option.some.inj cancelled
            exact ⟨rfl, (if_pos told).trans same⟩
          · exact ⟨(RunState.step_told moved cancel).trans told, (stamp_told cancel).trans same⟩)
    ⟨told, rfl⟩ labels
  exact along.last ran

/-- A run that cancels does so no earlier than it began. -/
theorem told_ge {s t : Timed Stamped} {labels : List (TimedLabel RunLabel)}
    (untold : s.state.run.server.shutdown = false)
    (ran : (running settings tls T).exec s labels = some t)
    (told : t.state.run.server.shutdown = true) : s.now ≤ t.state.told := by
  have along := (running settings tls T).along_of_kept
    (P := fun t => s.now ≤ t.now ∧ (t.state.run.server.shutdown = true → s.now ≤ t.state.told))
    (by
      rintro t label u ⟨later, after⟩ stepped
      cases Clocked.timedStep_stepped stepped with
      | tick idle => exact ⟨Nat.le_succ_of_le later, after⟩
      | @act label v acted =>
          obtain ⟨-, run, moved, rfl⟩ := step_some acted
          refine ⟨later, ?_⟩
          show (t.state.stamp t.now run label).run.server.shutdown = true →
            s.now ≤ (t.state.stamp t.now run label).told
          rw [stamp_run]
          intro told
          by_cases cancel : label = .cancel
          · subst cancel
            show s.now ≤ if t.state.run.server.shutdown = true then t.state.told else t.now
            split
            · exact after ‹_›
            · exact later
          · rw [stamp_told cancel]
            exact after ((RunState.step_told moved cancel).symm.trans told))
    ⟨Nat.le_refl _, fun told => by rw [untold] at told; cases told⟩ labels
  exact (along.last ran).2 told

/-- Nothing is forced before the shutdown timeout has passed. -/
theorem forced_late {s : Timed Stamped} (reached : (running settings tls T).Reachable s)
    (forced : s.state.run.phase.forced = true) : s.state.told + T.shutdown ≤ s.now := by
  have all : (RunState.machine settings tls).Reachable s.state.run ∧ s.state.InTime T s.now ∧
      (s.state.run.phase.forced = true → s.state.told + T.shutdown ≤ s.now) := by
    refine Clocked.within (C := clocked settings tls T)
      (P := fun now s => (RunState.machine settings tls).Reachable s.run ∧ s.InTime T now ∧
        (s.run.phase.forced = true → s.told + T.shutdown ≤ now)) ?_ ?_ ?_ reached
    · intro now s initial
      refine ⟨.start initial, initial_inTime initial, ?_⟩
      rw [initial.serving]
      intro forced
      cases forced
    · rintro now s label t ⟨before, inTime, late⟩ stepped
      have inTime' := step_inTime before inTime stepped
      obtain ⟨allowed, run, moved, rfl⟩ := step_some stepped
      refine ⟨(stamp_run now s run label).symm ▸ .step before moved, inTime', ?_⟩
      rw [stamp_run]
      intro forced
      by_cases elapsed : label = .run .timeoutElapsed
      · subst elapsed
        have waited : s.began + T.shutdown ≤ now := of_decide_eq_true allowed
        obtain ⟨waiting, -⟩ := Option.ite_none_right_eq_some.mp moved
        unfold InTime at inTime
        have began : s.began = s.told := by
          rcases waiting with phase | phase
          · rw [phase] at inTime
            exact inTime.1
          · rw [phase] at inTime
            exact inTime.1
        exact began ▸ waited
      · have already : s.run.phase.forced = true := by
          by_contra unforced
          rw [RunState.step_unforced (Bool.eq_false_iff.mpr unforced) moved elapsed] at forced
          cases forced
        have told : (s.stamp now run label).told = s.told := by
          by_cases cancel : label = .cancel
          · subst cancel
            refine if_pos ((reachable_inv before).told ?_)
            intro serving
            rw [serving] at already
            cases already
          · exact stamp_told cancel
        rw [told]
        exact late already
    · rintro now s ⟨before, inTime, late⟩ idle
      refine ⟨before, tick_inTime (reachable_inv before) inTime ((idle_iff now s).mp idle), ?_⟩
      exact fun forced => Nat.le_succ_of_le (late forced)
  exact all.2.2 forced

/-- However the run goes on after a cancellation, `run` has returned when the shutdown timeout
and a second have passed. -/
theorem returned_of_late {s : Timed Stamped} (reached : (running settings tls T).Reachable s)
    (told : s.state.run.server.shutdown = true)
    (late : s.state.told + T.shutdown + FORCED_WAIT < s.now) :
    ∃ timedOut, s.state.run.phase = .returned timedOut := by
  have inTime := reachable_inTime reached
  unfold InTime at inTime
  cases phase : s.state.run.phase with
  | returned timedOut => exact ⟨timedOut, rfl⟩
  | serving =>
      rw [phase] at inTime
      have here := inTime told
      omega
  | joining | draining | forcing | forcedDraining | forcedJoining =>
      rw [phase] at inTime
      have bound := inTime
      omega

end Stamped

end Portrelay.Server
