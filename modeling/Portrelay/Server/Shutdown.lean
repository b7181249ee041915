/-
# Server.Shutdown -- Server::run from cancellation to its return

`Server::run` joins the listener tasks (the relay listeners, the refresh loops and the
metrics listener), closes the task tracker, and waits until it is empty, all within the
shutdown timeout; if that elapses it cancels `force_shutdown`, aborts the listener tasks
and waits a little longer.  `RunState` puts its phases beside the `ServerState` and the
parties that only matter for shutdown.

* `exec_onServer` -- what `run` does to the listeners and connections is a run of them.
* `admitted_after_cancel` -- a cancelled listener admits one connection at most.
* `Inv` -- what each phase of `run` knows, kept by `step_inv`.
* `shutdown_waits` -- `run` does not return before its connections, except forced.
-/
import Portrelay.Server.Attribution

namespace Portrelay.Server

open Portrelay.Theory Portrelay.Relay Portrelay.Metrics

set_option autoImplicit false

/-! ## The other tasks of the server -/

/-- Where `refresh_target_loop` is. -/
inductive RefreshLoop
  /-- in the `select!` over shutdown and the ticker -/
  | ticking
  /-- in `target.refresh()` -/
  | refreshing
  | stopped
  deriving DecidableEq

inductive RefreshEvent
  | tick
  | refreshed
  | stop
  | abort

def RefreshLoop.step (shutdown force : Bool) : RefreshLoop → RefreshEvent → Option RefreshLoop
  | .ticking, .tick => some .refreshing
  | .ticking, .stop => if shutdown then some .stopped else none
  | .ticking, .abort => if force then some .stopped else none
  | .refreshing, .refreshed => some .ticking
  | .refreshing, .abort => if force then some .stopped else none
  | _, _ => none

/-- Where the task of a metrics connection is. -/
inductive MetricsConnection
  /-- in the `select!` over forced shutdown and the TLS handshake -/
  | handshaking
  /-- in the `select!` over forced shutdown and `read_metrics_request` -/
  | reading
  | writingHeader
  | writingBody
  /-- in `stream.shutdown()` -/
  | closing
  | finished
  deriving DecidableEq

inductive MetricsConnectionEvent
  | handshook
  /-- the handshake failed or timed out -/
  | handshakeFailed
  | read
  /-- the read failed or timed out -/
  | readFailed
  | headerWritten
  | headerFailed
  /-- with success or not -/
  | bodyWritten
  | closed
  | forced

def MetricsConnection.step (force : Bool) :
    MetricsConnection → MetricsConnectionEvent → Option MetricsConnection
  | .handshaking, .handshook => some .reading
  | .handshaking, .handshakeFailed => some .finished
  | .handshaking, .forced => if force then some .finished else none
  | .reading, .read => some .writingHeader
  | .reading, .readFailed => some .closing
  | .reading, .forced => if force then some .closing else none
  | .writingHeader, .headerWritten => some .writingBody
  | .writingHeader, .headerFailed => some .closing
  | .writingBody, .bodyWritten => some .closing
  | .closing, .closed => some .finished
  | _, _ => none

/-- Where `run_metrics_listener` is. -/
inductive MetricsListener
  /-- in the `select!` over shutdown and `accept` -/
  | accepting
  | spawning
  | stopped
  deriving DecidableEq

inductive MetricsListenerEvent
  | accept
  | acceptFailed
  | spawn
  | stop
  | abort

/-- The listener's next state, and whether it spawns a connection task. -/
def MetricsListener.step (shutdown force : Bool) :
    MetricsListener → MetricsListenerEvent → Option (MetricsListener × Bool)
  | .accepting, .accept => some (.spawning, false)
  | .accepting, .acceptFailed => some (.accepting, false)
  | .accepting, .stop => if shutdown then some (.stopped, false) else none
  | .accepting, .abort => if force then some (.stopped, false) else none
  | .spawning, .spawn => some (.accepting, true)
  | _, _ => none

/-! ## Server::run -/

/-- Where `Server::run` is. -/
inductive RunPhase
  /-- in `shutdown.cancelled()` -/
  | serving
  /-- joining the listener tasks, within the timeout -/
  | joining
  /-- in `connection_tasks.wait()`, the tracker closed, within the timeout -/
  | draining
  /-- the timeout has elapsed and `force_shutdown` is cancelled -/
  | forcing
  /-- in `connection_tasks.wait()` for at most a second more -/
  | forcedDraining
  /-- joining the aborted listener tasks -/
  | forcedJoining
  | returned (timedOut : Bool)
  deriving DecidableEq

inductive RunEvent
  | cancelled
  | joined
  | drained
  | timeoutElapsed
  | closeTracker
  | waited
  | abortedJoined

structure RunState where
  server : ServerState
  refreshLoops : List RefreshLoop
  metricsListener : Option MetricsListener
  metricsConnections : List MetricsConnection
  /-- `connection_tasks.close()` has been called -/
  trackerClosed : Bool
  phase : RunPhase

inductive RunLabel
  /-- the shutdown token is cancelled -/
  | cancel
  | listener (relay : Nat) (event : ListenerEvent)
  | task (index : Nat) (event : TaskEvent)
  | refreshLoop (index : Nat) (event : RefreshEvent)
  | metricsListener (event : MetricsListenerEvent)
  | metricsConnection (index : Nat) (event : MetricsConnectionEvent)
  | run (event : RunEvent)

/-- The future of the task has completed. -/
def Task.finished (t : Task) : Bool :=
  match t.phase with
  | .returning => t.held.isEmpty
  | _ => false

namespace RunState

/-- Every task of `listener_tasks` has ended. -/
def listenersEnded (s : RunState) : Bool :=
  (s.server.relays.all fun b => decide (b.listener = .stopped)) &&
    (s.refreshLoops.all fun loop => decide (loop = .stopped)) &&
    (s.metricsListener.all fun listener => decide (listener = .stopped))

/-- `connection_tasks` tracks no unfinished task. -/
def trackerEmpty (s : RunState) : Bool :=
  s.server.tasks.all Task.finished &&
    s.metricsConnections.all fun connection => decide (connection = .finished)

def runStep (settings : Settings) (s : RunState) : RunEvent → Option RunState
  | .cancelled =>
      if s.phase = .serving ∧ s.server.shutdown = true then some { s with phase := .joining }
      else none
  | .joined =>
      if s.phase = .joining ∧ s.listenersEnded = true then
        some { s with phase := .draining, trackerClosed := true }
      else none
  | .drained =>
      if s.phase = .draining ∧ s.trackerClosed = true ∧ s.trackerEmpty = true then
        some { s with phase := .returned false }
      else none
  | .timeoutElapsed =>
      if s.phase = .joining ∨ s.phase = .draining then
        (s.server.step settings .forceShutdown).map fun server =>
          { s with server, phase := .forcing }
      else none
  | .closeTracker =>
      if s.phase = .forcing then some { s with phase := .forcedDraining, trackerClosed := true }
      else none
  | .waited => if s.phase = .forcedDraining then some { s with phase := .forcedJoining } else none
  | .abortedJoined =>
      if s.phase = .forcedJoining ∧ s.listenersEnded = true then
        some { s with phase := .returned true }
      else none

def step (settings : Settings) (tls : Bool) (s : RunState) : RunLabel → Option RunState
  | .cancel => (s.server.step settings .shutdown).map fun server => { s with server }
  | .listener relay event =>
      (s.server.step settings (.listener relay event)).map fun server => { s with server }
  | .task index event =>
      (s.server.step settings (.task index event)).map fun server => { s with server }
  | .refreshLoop index event =>
      match s.refreshLoops[index]? with
      | none => none
      | some loop =>
          (loop.step s.server.shutdown s.server.force event).map fun after =>
            { s with refreshLoops := s.refreshLoops.set index after }
  | .metricsListener event =>
      match s.metricsListener with
      | none => none
      | some listener =>
          (listener.step s.server.shutdown s.server.force event).map fun after =>
            let spawned := if tls then MetricsConnection.handshaking else .reading
            { s with
              metricsListener := some after.1
              metricsConnections :=
                if after.2 then s.metricsConnections ++ [spawned] else s.metricsConnections }
  | .metricsConnection index event =>
      match s.metricsConnections[index]? with
      | none => none
      | some connection =>
          (connection.step s.server.force event).map fun after =>
            { s with metricsConnections := s.metricsConnections.set index after }
  | .run event => s.runStep settings event

/-- `run` has just spawned the listener tasks. -/
structure Initial (settings : Settings) (s : RunState) : Prop where
  server : s.server = .start settings
  unconnected : s.metricsConnections = []
  opened : s.trackerClosed = false
  serving : s.phase = .serving

def machine (settings : Settings) (tls : Bool) : Machine RunState RunLabel :=
  ⟨Initial settings, step settings tls⟩

/-- What a step can do. -/
inductive Stepped (settings : Settings) (tls : Bool) (s : RunState) : RunState → Prop
  | server {label : ServerLabel} {server : ServerState} (unforced : label ≠ .forceShutdown)
      (moved : s.server.step settings label = some server) :
      Stepped settings tls s { s with server }
  | refreshed {index : Nat} {event : RefreshEvent} {loop after : RefreshLoop}
      (found : s.refreshLoops[index]? = some loop)
      (moved : loop.step s.server.shutdown s.server.force event = some after) :
      Stepped settings tls s { s with refreshLoops := s.refreshLoops.set index after }
  | listened {listener after : MetricsListener}
      {connections : List MetricsConnection} (found : s.metricsListener = some listener)
      (running : listener ≠ .stopped) :
      Stepped settings tls s
        { s with metricsListener := some after, metricsConnections := connections }
  | served {index : Nat} {event : MetricsConnectionEvent} {connection after : MetricsConnection}
      (found : s.metricsConnections[index]? = some connection)
      (moved : connection.step s.server.force event = some after) :
      Stepped settings tls s { s with metricsConnections := s.metricsConnections.set index after }
  | cancelled (serving : s.phase = .serving) (told : s.server.shutdown = true) :
      Stepped settings tls s { s with phase := .joining }
  | joined (joining : s.phase = .joining) (ended : s.listenersEnded = true) :
      Stepped settings tls s { s with phase := .draining, trackerClosed := true }
  | drained (draining : s.phase = .draining) (empty : s.trackerEmpty = true) :
      Stepped settings tls s { s with phase := .returned false }
  | timedOut {server : ServerState} (waiting : s.phase = .joining ∨ s.phase = .draining)
      (moved : s.server.step settings .forceShutdown = some server) :
      Stepped settings tls s { s with server, phase := .forcing }
  | closed (forcing : s.phase = .forcing) :
      Stepped settings tls s { s with phase := .forcedDraining, trackerClosed := true }
  | waited (draining : s.phase = .forcedDraining) :
      Stepped settings tls s { s with phase := .forcedJoining }
  | abortedJoined (joining : s.phase = .forcedJoining) (ended : s.listenersEnded = true) :
      Stepped settings tls s { s with phase := .returned true }

variable {settings : Settings} {tls : Bool}

theorem runStep_stepped {s t : RunState} {event : RunEvent}
    (stepped : s.runStep settings event = some t) : Stepped settings tls s t := by
  cases event with
  | timeoutElapsed =>
      simp only [runStep] at stepped
      split at stepped <;> [skip; cases stepped]
      rename_i waiting
      obtain ⟨server, moved, rfl⟩ := Option.map_eq_some_iff.mp stepped
      exact .timedOut waiting moved
  | cancelled =>
      simp only [runStep] at stepped
      split at stepped <;> [skip; cases stepped]
      rename_i told
      obtain rfl := Option.some.inj stepped
      exact .cancelled told.1 told.2
  | joined =>
      simp only [runStep] at stepped
      split at stepped <;> [skip; cases stepped]
      rename_i ended
      obtain rfl := Option.some.inj stepped
      exact .joined ended.1 ended.2
  | drained =>
      simp only [runStep] at stepped
      split at stepped <;> [skip; cases stepped]
      rename_i empty
      obtain rfl := Option.some.inj stepped
      exact .drained empty.1 empty.2.2
  | closeTracker =>
      simp only [runStep] at stepped
      split at stepped <;> [skip; cases stepped]
      obtain rfl := Option.some.inj stepped
      exact .closed ‹_›
  | waited =>
      simp only [runStep] at stepped
      split at stepped <;> [skip; cases stepped]
      obtain rfl := Option.some.inj stepped
      exact .waited ‹_›
  | abortedJoined =>
      simp only [runStep] at stepped
      split at stepped <;> [skip; cases stepped]
      rename_i ended
      obtain rfl := Option.some.inj stepped
      exact .abortedJoined ended.1 ended.2

theorem step_stepped {s t : RunState} {label : RunLabel}
    (stepped : step settings tls s label = some t) : Stepped settings tls s t := by
  cases label with
  | cancel =>
      simp only [step] at stepped
      obtain ⟨server, moved, rfl⟩ := Option.map_eq_some_iff.mp stepped
      exact .server (by simp) moved
  | listener relay event =>
      simp only [step] at stepped
      obtain ⟨server, moved, rfl⟩ := Option.map_eq_some_iff.mp stepped
      exact .server (by simp) moved
  | task index event =>
      simp only [step] at stepped
      obtain ⟨server, moved, rfl⟩ := Option.map_eq_some_iff.mp stepped
      exact .server (by simp) moved
  | refreshLoop index event =>
      simp only [step] at stepped
      split at stepped <;> [cases stepped; skip]
      rename_i loop found
      obtain ⟨after, moved, rfl⟩ := Option.map_eq_some_iff.mp stepped
      exact .refreshed found moved
  | metricsListener event =>
      simp only [step] at stepped
      split at stepped <;> [cases stepped; skip]
      rename_i listener found
      obtain ⟨after, moved, rfl⟩ := Option.map_eq_some_iff.mp stepped
      refine .listened found ?_
      rintro rfl
      cases event <;> cases moved
  | metricsConnection index event =>
      simp only [step] at stepped
      split at stepped <;> [cases stepped; skip]
      rename_i connection found
      obtain ⟨after, moved, rfl⟩ := Option.map_eq_some_iff.mp stepped
      exact .served found moved
  | run event => exact runStep_stepped stepped

/-! ## The server inside a run -/

/-- What a step of the run is to the `ServerState`. -/
def onServer : RunLabel → Option ServerLabel
  | .cancel => some .shutdown
  | .listener relay event => some (.listener relay event)
  | .task index event => some (.task index event)
  | .run .timeoutElapsed => some .forceShutdown
  | _ => none

theorem step_onServer {s t : RunState} {label : RunLabel}
    (stepped : step settings tls s label = some t) :
    (ServerState.machine settings).Moves s.server (onServer label) t.server := by
  cases label with
  | cancel =>
      simp only [step] at stepped
      obtain ⟨server, moved, rfl⟩ := Option.map_eq_some_iff.mp stepped
      exact moved
  | listener relay event =>
      simp only [step] at stepped
      obtain ⟨server, moved, rfl⟩ := Option.map_eq_some_iff.mp stepped
      exact moved
  | task index event =>
      simp only [step] at stepped
      obtain ⟨server, moved, rfl⟩ := Option.map_eq_some_iff.mp stepped
      exact moved
  | refreshLoop index event =>
      simp only [step] at stepped
      split at stepped <;> [cases stepped; skip]
      obtain ⟨after, -, rfl⟩ := Option.map_eq_some_iff.mp stepped
      rfl
  | metricsListener event =>
      simp only [step] at stepped
      split at stepped <;> [cases stepped; skip]
      obtain ⟨after, -, rfl⟩ := Option.map_eq_some_iff.mp stepped
      rfl
  | metricsConnection index event =>
      simp only [step] at stepped
      split at stepped <;> [cases stepped; skip]
      obtain ⟨after, -, rfl⟩ := Option.map_eq_some_iff.mp stepped
      rfl
  | run event =>
      cases event with
      | timeoutElapsed =>
          simp only [step, runStep] at stepped
          split at stepped <;> [skip; cases stepped]
          obtain ⟨server, moved, rfl⟩ := Option.map_eq_some_iff.mp stepped
          exact moved
      | _ =>
          simp only [step, runStep] at stepped
          split at stepped <;> [skip; cases stepped]
          obtain rfl := Option.some.inj stepped
          rfl

/-- A run of the whole server is a run of its listeners and connections. -/
theorem exec_onServer {s t : RunState} {labels : List RunLabel}
    (ran : (machine settings tls).exec s labels = some t) :
    (ServerState.machine settings).exec s.server (labels.filterMap onServer) = some t.server :=
  (machine settings tls).exec_filterMap (ServerState.machine settings) RunState.server onServer
    (fun _ _ _ stepped => step_onServer stepped) ran

end RunState

/-! ## One admission more -/

/-- A cancelled listener that has passed its check may yet admit the client in its hands. -/
def Listener.admits : Listener → Nat
  | .acquiring _ _ => 1
  | .counting _ _ => 1
  | .spawning _ => 1
  | _ => 0

theorem Listener.Stepped.admits {settings : Settings} {relay : Nat} {free : Limit → Nat}
    {shutdown force : Bool} {listener after : Listener} {event : ListenerEvent} {effect : Effect}
    (moved : Stepped settings relay free shutdown force listener event after effect)
    (cancelled : shutdown = true) :
    after.admits + effect.spawned relay (fun _ => 1) ≤ listener.admits := by
  cases moved with
  | begun running => simp [cancelled] at running
  | ended waits told =>
      rcases waits with rfl | rfl
      · exact Nat.le_refl 0
      · exact Nat.le_refl 0
  | _ => simp [Listener.admits, Effect.spawned]

theorem Listener.admits_le {listener : Listener} : listener.admits ≤ 1 := by
  cases listener <;> simp [Listener.admits]

theorem Task.finished_iff (t : Task) : t.finished = true ↔ t.phase = .returning ∧ t.held = [] := by
  unfold finished
  cases t.phase <;> simp

/-- No step is left for a task that has finished. -/
theorem Task.Stepped.not_finished {settings : Settings} {force : Bool} {t after : Task}
    {event : TaskEvent} {effect : Effect}
    (moved : Stepped settings force t event after effect) : ¬ t.finished = true := by
  rw [finished_iff]
  rintro ⟨returning, empty⟩
  cases moved with
  | gaveBack phase last =>
      rw [empty] at last
      cases last
  | connected phase | connectEnded phase why | cutOff phase forced running
  | forwarded phase moved | finished phase ok | failed phase failure why
  | gaveBackEarly phase member | unlimited phase without | started phase configured
  | counted phase | returned phase =>
      rw [returning] at phase
      cases phase

namespace ServerState

variable {settings : Settings}

/-- The connections of relay `relay`, with the one its listener may yet admit. -/
def admissions (s : ServerState) (relay : Nat) : Nat :=
  (s.across relay fun _ => 1) +
    match s.listenerAt relay with
    | some listener => listener.admits
    | none => 0

theorem admissions_step {s t : ServerState} {label : ServerLabel} (cancelled : s.shutdown = true)
    (stepped : step settings s label = some t) (relay : Nat) :
    t.admissions relay ≤ s.admissions relay := by
  cases step_at stepped relay with
  | elsewhere bound tasks =>
      simp only [admissions, listenerAt, tasks, bound]
      exact Nat.le_refl _
  | listener found moved bound tasks =>
      have admits := moved.admits cancelled
      simp only [admissions, listenerAt, tasks, bound, found, Option.map_some,
        BoundRelay.after_listener]
      omega
  | task member moved bound tasks =>
      have same := tasks fun _ => 1
      have still : t.listenerAt relay = s.listenerAt relay := by
        simp only [listenerAt, bound, Option.map_map, Function.comp_def,
          BoundRelay.after_listener]
      simp only [admissions, still]
      omega

theorem admissions_run {s t : ServerState} {labels : List ServerLabel}
    (cancelled : s.shutdown = true) (ran : (machine settings).exec s labels = some t)
    (relay : Nat) : t.admissions relay ≤ s.admissions relay := by
  induction labels generalizing s with
  | nil =>
      simp only [Machine.exec_nil, Option.some.injEq] at ran
      exact Nat.le_of_eq (congrArg (ServerState.admissions · relay) ran.symm)
  | cons label rest ih =>
      obtain ⟨m, stepped, ran⟩ := (Machine.exec_cons_eq_some _).mp ran
      exact Nat.le_trans (ih (step_shutdown stepped cancelled) ran)
        (admissions_step cancelled stepped relay)

/-- From its cancellation on, a listener admits one connection at most. -/
theorem admitted_after_cancel {s t : ServerState} {labels : List ServerLabel}
    (cancelled : s.shutdown = true) (ran : (machine settings).exec s labels = some t)
    (relay : Nat) : (t.across relay fun _ => 1) ≤ (s.across relay fun _ => 1) + 1 := by
  have bound := admissions_run cancelled ran relay
  have one : s.admissions relay ≤ (s.across relay fun _ => 1) + 1 := by
    unfold admissions
    split
    · exact Nat.add_le_add_left Listener.admits_le _
    · exact Nat.le_add_right _ _
  exact Nat.le_trans (Nat.le_add_right _ _) (Nat.le_trans bound one)

theorem step_force {s t : ServerState} {label : ServerLabel}
    (stepped : step settings s label = some t) (unforced : label ≠ .forceShutdown) :
    t.force = s.force := by
  have kept : ∀ (s : ServerState) relay effect, (s.perform relay effect).force = s.force := by
    intro s relay effect
    cases effect <;> rfl
  cases step_stepped stepped with
  | cancelled => rfl
  | forced told => exact absurd rfl unforced
  | listener found moved => rw [kept]
  | task found moved => rw [kept]

/-- No step of a server whose listeners have stopped starts one or adds a connection. -/
theorem step_stopped {s t : ServerState} {label : ServerLabel}
    (stepped : step settings s label = some t) (stopped : ∀ b ∈ s.relays, b.listener = .stopped) :
    (∀ b ∈ t.relays, b.listener = .stopped) ∧
      ((∀ u ∈ s.tasks, u.finished = true) → ∀ u ∈ t.tasks, u.finished = true) := by
  have spawning : ∀ (relay : Nat) (held : List Limit) (b : BoundRelay),
      s.relays[relay]? = some b → b.listener ≠ .spawning held := by
    intro relay held b found same
    have stays := stopped b (List.mem_of_getElem? found)
    rw [same] at stays
    cases stays
  constructor
  · cases step_stepped stepped with
    | cancelled => exact stopped
    | forced told => exact stopped
    | listener found moved =>
        exact absurd (stopped _ (List.mem_of_getElem? found)) moved.not_stopped
    | task found moved =>
        intro b member
        obtain ⟨r, found'⟩ := List.mem_iff_getElem?.mp member
        obtain ⟨b', before, same⟩ := perform_listener found'
        rw [same]
        exact stopped b' (List.mem_of_getElem? before)
  · intro finished
    refine step_tasks stepped finished ?_ ?_
    · intro relay held b found same
      exact absurd same (spawning relay held b found)
    · intro index event u after effect _ found moved
      exact absurd (finished u (List.mem_of_getElem? found)) moved.not_finished

end ServerState

/-- The phases after the timeout has elapsed. -/
def RunPhase.forced : RunPhase → Bool
  | .forcing => true
  | .forcedDraining => true
  | .forcedJoining => true
  | .returned timedOut => timedOut
  | _ => false

namespace RunState

variable {settings : Settings} {tls : Bool}

theorem listenersEnded_iff (s : RunState) : s.listenersEnded = true ↔
    (∀ b ∈ s.server.relays, b.listener = .stopped) ∧
      (∀ loop ∈ s.refreshLoops, loop = .stopped) ∧
      ∀ listener, s.metricsListener = some listener → listener = .stopped := by
  simp only [listenersEnded, Bool.and_eq_true, List.all_eq_true, Option.all_eq_true,
    decide_eq_true_eq, and_assoc]

theorem trackerEmpty_iff (s : RunState) : s.trackerEmpty = true ↔
    (∀ t ∈ s.server.tasks, t.finished = true) ∧
      ∀ connection ∈ s.metricsConnections, connection = .finished := by
  simp only [trackerEmpty, Bool.and_eq_true, List.all_eq_true, decide_eq_true_eq]

/-- What each phase of `run` knows. -/
structure Inv (s : RunState) : Prop where
  told : s.phase ≠ .serving → s.server.shutdown = true
  forced : s.server.force = s.phase.forced
  ended : s.phase = .draining ∨ s.phase = .returned false → s.listenersEnded = true
  drained : s.phase = .returned false → s.trackerEmpty = true

theorem initial_inv {s : RunState} (initial : Initial settings s) : Inv s := by
  refine ⟨fun running => absurd initial.serving running, ?_, ?_, ?_⟩
  · rw [initial.server, initial.serving]
    rfl
  · rw [initial.serving]
    rintro (phase | phase) <;> cases phase
  · rw [initial.serving]
    intro phase
    cases phase

theorem Inv.server {s : RunState} (inv : Inv s) {server : ServerState} {label : ServerLabel}
    (unforced : label ≠ .forceShutdown) (moved : s.server.step settings label = some server) :
    Inv { s with server } := by
  refine ⟨fun running => ServerState.step_shutdown moved (inv.told running), ?_, ?_, ?_⟩
  · rw [ServerState.step_force moved unforced]
    exact inv.forced
  · intro phase
    obtain ⟨listeners, others⟩ := (listenersEnded_iff s).mp (inv.ended phase)
    exact (listenersEnded_iff _).mpr ⟨(ServerState.step_stopped moved listeners).1, others⟩
  · intro phase
    have listeners := ((listenersEnded_iff s).mp (inv.ended (Or.inr phase))).1
    obtain ⟨tasks, others⟩ := (trackerEmpty_iff s).mp (inv.drained phase)
    exact (trackerEmpty_iff _).mpr ⟨(ServerState.step_stopped moved listeners).2 tasks, others⟩

/-- A step of a task other than `run` itself that leaves the server as it is, and that no
ended task takes. -/
theorem Inv.beside {s t : RunState} (inv : Inv s) (server : t.server = s.server)
    (phase : t.phase = s.phase) (ended : s.listenersEnded = true → t.listenersEnded = true)
    (drained : s.listenersEnded = true → s.trackerEmpty = true → t.trackerEmpty = true) :
    Inv t := by
  refine ⟨?_, ?_, ?_, ?_⟩
  · rw [phase, server]
    exact inv.told
  · rw [phase, server]
    exact inv.forced
  · rw [phase]
    exact fun here => ended (inv.ended here)
  · rw [phase]
    exact fun here => drained (inv.ended (Or.inr here)) (inv.drained here)

theorem step_inv {s t : RunState} {label : RunLabel} (inv : Inv s)
    (stepped : step settings tls s label = some t) : Inv t := by
  cases step_stepped stepped with
  | server unforced moved => exact inv.server unforced moved
  | @refreshed index event loop after found moved =>
      have running : ¬ s.listenersEnded = true := by
        intro ended
        have stopped := ((listenersEnded_iff s).mp ended).2.1 loop (List.mem_of_getElem? found)
        subst stopped
        cases event <;> cases moved
      exact inv.beside rfl rfl (fun ended => absurd ended running) fun ended => absurd ended running
  | @listened listener after connections found unstopped =>
      have running : ¬ s.listenersEnded = true := fun ended =>
        unstopped (((listenersEnded_iff s).mp ended).2.2 listener found)
      exact inv.beside rfl rfl (fun ended => absurd ended running) fun ended => absurd ended running
  | @served index event connection after found moved =>
      have busy : ¬ s.trackerEmpty = true := by
        intro empty
        have finished := ((trackerEmpty_iff s).mp empty).2 connection (List.mem_of_getElem? found)
        subst finished
        cases event <;> cases moved
      exact inv.beside rfl rfl id fun _ empty => absurd empty busy
  | cancelled serving told =>
      have unforced := inv.forced
      rw [serving] at unforced
      exact ⟨fun _ => told, unforced, fun phase => by simp at phase, fun phase => by simp at phase⟩
  | joined joining ended =>
      have unforced := inv.forced
      rw [joining] at unforced
      exact ⟨fun _ => inv.told (by simp [joining]), unforced, fun _ => ended,
        fun phase => by simp at phase⟩
  | drained draining empty =>
      have unforced := inv.forced
      rw [draining] at unforced
      exact ⟨fun _ => inv.told (by simp [draining]), unforced,
        fun _ => inv.ended (Or.inl draining), fun _ => empty⟩
  | @timedOut server waiting moved =>
      cases ServerState.step_stepped moved with
      | forced told =>
          exact ⟨fun _ => told, rfl, fun phase => by simp at phase, fun phase => by simp at phase⟩
  | closed forcing =>
      have forced := inv.forced
      rw [forcing] at forced
      exact ⟨fun _ => inv.told (by simp [forcing]), forced, fun phase => by simp at phase,
        fun phase => by simp at phase⟩
  | waited draining =>
      have forced := inv.forced
      rw [draining] at forced
      exact ⟨fun _ => inv.told (by simp [draining]), forced, fun phase => by simp at phase,
        fun phase => by simp at phase⟩
  | abortedJoined joining ended =>
      have forced := inv.forced
      rw [joining] at forced
      exact ⟨fun _ => inv.told (by simp [joining]), forced, fun phase => by simp at phase,
        fun phase => by simp at phase⟩

theorem exec_inv {s t : RunState} {labels : List RunLabel} (inv : Inv s)
    (ran : (machine settings tls).exec s labels = some t) : Inv t := by
  induction labels generalizing s with
  | nil =>
      simp only [Machine.exec_nil, Option.some.injEq] at ran
      exact ran ▸ inv
  | cons label rest ih =>
      obtain ⟨m, stepped, ran⟩ := (Machine.exec_cons_eq_some _).mp ran
      exact ih (step_inv inv stepped) ran

/-- Only the timeout leads to the forced phases. -/
theorem step_unforced {s t : RunState} {label : RunLabel} (unforced : s.phase.forced = false)
    (stepped : step settings tls s label = some t) (others : label ≠ .run .timeoutElapsed) :
    t.phase.forced = false := by
  cases label with
  | run event =>
      cases event with
      | timeoutElapsed => exact absurd rfl others
      | _ =>
          simp only [step, runStep] at stepped
          split at stepped <;> [skip; cases stepped]
          rename_i here
          obtain rfl := Option.some.inj stepped
          simp_all [RunPhase.forced]
  | refreshLoop index event | metricsListener event | metricsConnection index event =>
      simp only [step] at stepped
      split at stepped <;> [cases stepped; skip]
      obtain ⟨after, -, rfl⟩ := Option.map_eq_some_iff.mp stepped
      exact unforced
  | cancel | listener relay event | task index event =>
      simp only [step] at stepped
      obtain ⟨server, -, rfl⟩ := Option.map_eq_some_iff.mp stepped
      exact unforced

theorem elapsed_of_forced {s t : RunState} {labels : List RunLabel}
    (unforced : s.phase.forced = false) (ran : (machine settings tls).exec s labels = some t)
    (forced : t.phase.forced = true) : .run .timeoutElapsed ∈ labels := by
  induction labels generalizing s with
  | nil =>
      simp only [Machine.exec_nil, Option.some.injEq] at ran
      rw [ran, forced] at unforced
      cases unforced
  | cons label rest ih =>
      obtain ⟨m, stepped, ran⟩ := (Machine.exec_cons_eq_some _).mp ran
      by_cases here : label = .run .timeoutElapsed
      · rw [here]
        exact List.mem_cons_self
      · exact List.mem_cons_of_mem _ (ih (step_unforced unforced stepped here) ran)

/-! ## What holds when run returns -/

/-- What connection `i` adds to the closed connections in a step, by its call of `closed`. -/
def closes (settings : Settings) (i : Nat) (s : RunState) (label : RunLabel) : Nat :=
  match onServer label with
  | some l => s.server.madeBy settings Meter.closed.weight i l
  | none => 0

theorem closes_step {s t : RunState} {label : RunLabel}
    (stepped : step settings tls s label = some t) (i : Nat) :
    (closes settings i s label : Int) =
      (1 - t.server.at_ (Task.owes Meter.closed.weight 1) 1 i) -
        (1 - s.server.at_ (Task.owes Meter.closed.weight 1) 1 i) := by
  have moves := step_onServer stepped
  unfold closes
  cases seen : onServer label with
  | none =>
      rw [seen] at moves
      have still : t.server = s.server := moves
      rw [still]
      exact (Int.sub_self _).symm
  | some l =>
      rw [seen] at moves
      exact ServerState.closed_step moves i

end RunState

theorem Task.ended_of_finished {t : Task} (settings : Settings) (finished : t.finished = true) :
    t.Ended settings := by
  refine ⟨((finished_iff t).mp finished).1, fun force event => ?_⟩
  cases moved : t.step settings force event with
  | none => rfl
  | some after => exact absurd finished (step_stepped moved).not_finished

namespace ServerState

variable {settings : Settings}

/-- With every listener stopped and every connection over, nothing is open, nothing is
owed and nothing is held. -/
theorem stopped_accounting {s : ServerState} (reached : (machine settings).Reachable s)
    (stopped : ∀ b ∈ s.relays, b.listener = .stopped) (finished : ∀ t ∈ s.tasks, t.finished = true) :
    (∀ (relay : Nat) (b : BoundRelay), s.relays[relay]? = some b →
      b.metrics.activeConnections = 0 ∧ b.metrics.connectionsClosed = b.metrics.connectionsAccepted) ∧
    ∀ l permits, settings.limit l = some permits → s.free l = permits := by
  have returned : ∀ t ∈ s.tasks, t.phase = .returning := fun t member =>
    ((Task.finished_iff t).mp (finished t member)).1
  refine ⟨fun relay b found => ?_, fun l permits limited => ?_⟩
  · have here : s.listenerAt relay = some .stopped := by
      rw [listenerAt, found, Option.map_some, stopped b (List.mem_of_getElem? found)]
    have quiet : s.Quiet relay := by
      refine ⟨fun updates held counting => ?_, fun t member _ updates closing => ?_⟩
      · rw [here] at counting
        cases counting
      · rw [returned t member] at closing
        cases closing
    have none : s.live relay = 0 := by
      have unbound : s.tasks.countP (Task.boundBy (.perRelayLimit relay)) = 0 :=
        List.countP_eq_zero.mpr fun t member => by
          simp [Task.boundBy, Task.live, returned t member]
      rw [live, here, unbound]
      rfl
    obtain ⟨accepted, active, -⟩ := quiet_accounting reached found quiet
    rw [none] at accepted active
    exact ⟨active, by omega⟩
  · refine all_free reached (fun b member => ?_)
      (fun t member => Task.ended_of_finished settings (finished t member)) limited
    rw [stopped b member]
    rfl

end ServerState

namespace RunState

variable {settings : Settings} {tls : Bool}

/-- After cancellation each relay listener admits one connection at most.  `run` returns
before a connection task has finished only if the timeout has elapsed and forced shutdown
is cancelled; if it returns without that, every connection has called `closed` once, none
is active and every permit is free. -/
theorem shutdown_waits {s₀ s : RunState} {labels : List RunLabel} (initial : Initial settings s₀)
    (ran : (machine settings tls).exec s₀ labels = some s) :
    (∀ front back m relay, labels = front ++ back →
      (machine settings tls).exec s₀ front = some m → m.server.shutdown = true →
        (s.server.across relay fun _ => 1) ≤ (m.server.across relay fun _ => 1) + 1) ∧
    (∀ timedOut, s.phase = .returned timedOut → ∀ t ∈ s.server.tasks, t.finished = false →
      .run .timeoutElapsed ∈ labels ∧ s.server.force = true) ∧
    (∀ timedOut, s.phase = .returned timedOut → .run .timeoutElapsed ∉ labels →
      (∀ t ∈ s.server.tasks, t.finished = true) ∧
      (∀ i < s.server.tasks.length,
        (machine settings tls).sumAlong (fun s label _ => closes settings i s label) s₀ labels = 1) ∧
      (∀ (relay : Nat) (b : BoundRelay), s.server.relays[relay]? = some b →
        b.metrics.activeConnections = 0 ∧ b.metrics.connectionsClosed = b.metrics.connectionsAccepted) ∧
      ∀ l permits, settings.limit l = some permits → s.server.free l = permits) := by
  have inv := exec_inv (initial_inv initial) ran
  have unforced : s₀.phase.forced = false := by rw [initial.serving]; rfl
  have started : (ServerState.machine settings).exec (.start settings) (labels.filterMap onServer) =
      some s.server := initial.server ▸ exec_onServer ran
  refine ⟨?_, ?_, ?_⟩
  · rintro front back m relay rfl first cancelled
    rw [Machine.exec_append, first, Option.bind_some] at ran
    exact ServerState.admitted_after_cancel cancelled (exec_onServer ran) relay
  · intro timedOut returned t member running
    cases timedOut with
    | false =>
        have finished := ((trackerEmpty_iff s).mp (inv.drained returned)).1 t member
        rw [running] at finished
        cases finished
    | true =>
        have forced : s.phase.forced = true := by rw [returned]; rfl
        exact ⟨elapsed_of_forced unforced ran forced, inv.forced.trans forced⟩
  · intro timedOut returned inTime
    have graceful : timedOut = false := by
      cases timedOut with
      | false => rfl
      | true => exact absurd (elapsed_of_forced unforced ran (by rw [returned]; rfl)) inTime
    subst graceful
    have stopped := ((listenersEnded_iff s).mp (inv.ended (Or.inr returned))).1
    have finished := ((trackerEmpty_iff s).mp (inv.drained returned)).1
    have reached := ((ServerState.machine settings).reachable_iff_exec s.server).mpr
      ⟨_, _, rfl, started⟩
    refine ⟨finished, fun i inside => ?_, ServerState.stopped_accounting reached stopped finished⟩
    have calls := (machine settings tls).sumAlong_eq_change
      (fun s => 1 - s.server.at_ (Task.owes Meter.closed.weight 1) 1 i)
      (fun s label t stepped => closes_step stepped i) ran
    have unspawned : s₀.server.at_ (Task.owes Meter.closed.weight 1) 1 i = 1 := by
      rw [initial.server]
      rfl
    have settled : s.server.at_ (Task.owes Meter.closed.weight 1) 1 i = 0 := by
      have ended := finished _ (List.getElem_mem inside)
      simp only [ServerState.at_, List.getElem?_eq_getElem inside, Task.owes,
        ((Task.finished_iff _).mp ended).1]
    rw [calls, unspawned, settled]
    rfl

/-- Cancelled while the first listener is past its check: it admits that client, whose
connect fails. -/
def cancelledAtAccept : List RunLabel :=
  [.listener 0 .accept, .listener 0 .next, .cancel] ++ List.replicate 9 (.listener 0 .next) ++
    [.listener 0 .stop, .listener 1 .stop, .refreshLoop 0 .stop, .run .cancelled, .run .joined,
      .task 0 (.connectFailed 2_000_000)] ++
    List.replicate 11 (.task 0 .next) ++ [.run .drained]

theorem shutdown_waits_admitted :
    ∃ s, (machine ServerState.twoRelays false).exec
        ⟨.start ServerState.twoRelays, [.ticking], none, [], false, .serving⟩ cancelledAtAccept =
          some s ∧
      (machine ServerState.twoRelays false).sumAlong
        (fun s label _ => closes ServerState.twoRelays 0 s label)
        ⟨.start ServerState.twoRelays, [.ticking], none, [], false, .serving⟩ cancelledAtAccept = 1 ∧
      s.server.free .globalLimit = 2 := by
  have reaches : ∃ s, (machine ServerState.twoRelays false).exec
        ⟨.start ServerState.twoRelays, [.ticking], none, [], false, .serving⟩ cancelledAtAccept =
          some s ∧
      s.phase = .returned false ∧ s.server.tasks.length = 1 := ⟨_, rfl, rfl, rfl⟩
  obtain ⟨s, ran, returned, one⟩ := reaches
  obtain ⟨-, closed, -, free⟩ := (shutdown_waits ⟨rfl, rfl, rfl, rfl⟩ ran).2.2 false returned
    (by simp [cancelledAtAccept])
  exact ⟨s, ran, closed 0 (by omega), free .globalLimit 2 rfl⟩

end RunState

end Portrelay.Server
