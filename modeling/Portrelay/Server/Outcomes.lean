/-
# Server.Outcomes -- connect attempts and idle timeouts in the metrics

How a connection ended reaches the metrics through a few calls: `upstream_failure` and
`upstream_timeout` in the connect phase, `idle_timeout` after a transfer.

* `connect_metrics_iff` -- the failure and timeout counters are exact in every run;
  `observe_upstream_connect` is called nowhere, so the histogram is exact in the runs in
  which no attempt ends.
* `idle_timeouts_iff` -- an error of kind `TimedOut` counts as an idle timeout whoever
  made it, so the counter is exact in the runs in which the watchdog alone makes one.
-/
import Portrelay.Server.Attribution

namespace Portrelay.Metrics.Meter

set_option autoImplicit false

def upstreamFailures : Meter where
  read := RelayMetrics.upstreamConnectFailures
  weight | .addUpstreamFailures => 1 | _ => 0
  apply m u := by cases u <;> rfl
  new := rfl

def upstreamTimeouts : Meter where
  read := RelayMetrics.upstreamConnectTimeouts
  weight | .addUpstreamTimeouts => 1 | _ => 0
  apply m u := by cases u <;> rfl
  new := rfl

def idleTimeouts : Meter where
  read := RelayMetrics.idleTimeouts
  weight | .addIdleTimeouts => 1 | _ => 0
  apply m u := by cases u <;> rfl
  new := rfl

/-- The number of observations of `upstream_connect_duration`. -/
def connects : Meter where
  read m := m.upstreamConnectDuration.count
  weight | .upstreamConnectDuration .count => 1 | _ => 0
  apply m u := by
    cases u with
    | upstreamConnectDuration update => cases update <;> rfl
    | _ => rfl
  new := rfl

end Portrelay.Metrics.Meter

namespace Portrelay.Relay

/-- `forward_with_*` has returned the error of its watchdog. -/
def Forward.idledOut (f : Forward) : Bool :=
  match f.stage with
  | .forwarding transfer =>
      match transfer.outcome with
      | some (.idle _) => true
      | _ => false
  | _ => false

end Portrelay.Relay

namespace Portrelay.Server

open Portrelay.Theory Portrelay.Relay Portrelay.Metrics

set_option autoImplicit false

/-- The transfer of the task was ended by its watchdog. -/
def Task.idledOut (t : Task) : Bool :=
  match t.phase with
  | .transferring forward => forward.idledOut
  | _ => false

theorem Task.timesOut_of_idledOut (t : Task) (idled : t.idledOut = true) : t.timesOut = true := by
  unfold idledOut at idled
  unfold timesOut
  cases phase : t.phase with
  | transferring forward =>
      rw [phase] at idled
      simp only [Forward.idledOut] at idled
      simp only [Forward.result]
      split at idled
      · rename_i transfer stage
        simp only [stage]
        split at idled
        · rename_i exit outcome
          rw [outcome]
          rfl
        · cases idled
      · cases idled
  | _ =>
      rw [phase] at idled
      cases idled

/-- A weight that `closed` has none of. -/
theorem closed_silent {w : MetricUpdate → Nat}
    (bucket : ∀ index, w (.connectionDuration (.bucket index)) = 0)
    (sum : ∀ micros, w (.connectionDuration (.sumMicros micros)) = 0)
    (others : ∀ a b, w .subActive + w .addClosed + w (.addClientToUpstream a) +
      w (.addUpstreamToClient b) + w (.connectionDuration .count) = 0) (duration a b : Nat) :
    total w (RelayMetrics.closed duration a b) = 0 := by
  have none := others a b
  rw [RelayMetrics.closed, total_append, observe_total w duration bucket sum]
  simp only [total_cons, total_nil]
  omega

namespace ServerState

variable {settings : Settings}

/-- No connection of relay `relay` has an update in flight. -/
def NoneInFlight (s : ServerState) (relay : Nat) : Prop :=
  ∀ t ∈ s.tasks, t.relay = relay → ∀ u updates, t.phase ≠ .closing (u :: updates)

theorem owes_settled {t : Task} (w : MetricUpdate → Nat)
    (settled : ∀ u updates, t.phase ≠ .closing (u :: updates)) : t.owes w 0 = 0 := by
  unfold Task.owes
  cases phase : t.phase with
  | closing updates =>
      cases updates with
      | nil => rfl
      | cons u updates => exact absurd phase (settled u updates)
  | _ => rfl

theorem NoneInFlight.owed {s : ServerState} {relay : Nat} (none : s.NoneInFlight relay)
    (w : MetricUpdate → Nat) : s.across relay (Task.owes w 0) = 0 := by
  refine (tally_eq_zero_iff _ _).mpr fun t member => ?_
  split
  · exact owes_settled w (none t member ‹_›)
  · rfl

theorem step_bound {s t : ServerState} {label : ServerLabel}
    (stepped : step settings s label = some t) (relay : Nat) :
    (t.relays[relay]?).isSome = (s.relays[relay]?).isSome := by
  cases step_at stepped relay with
  | elsewhere bound tasks => rw [bound]
  | listener found moved bound tasks => rw [bound, found]; rfl
  | task member moved bound tasks => rw [bound, Option.isSome_map]

/-- The relays of a run are those it started with. -/
theorem exec_bound {s t : ServerState} {labels : List ServerLabel}
    (ran : (machine settings).exec s labels = some t) (relay : Nat) :
    (t.relays[relay]?).isSome = (s.relays[relay]?).isSome := by
  induction labels generalizing s with
  | nil =>
      simp only [Machine.exec_nil, Option.some.injEq] at ran
      rw [ran]
  | cons label rest ih =>
      obtain ⟨m, stepped, ran⟩ := (Machine.exec_cons_eq_some _).mp ran
      rw [ih ran, step_bound stepped]

/-- What a counter of relay `relay` shows, with what is owed to it. -/
def shown (M : Meter) (relay : Nat) (s : ServerState) : Nat :=
  (match s.relays[relay]? with
    | some b => M.read b.metrics
    | none => 0) + s.across relay (Task.owes M.weight 0)

/-- Over a run to a state with nothing in flight, a counter of the connections is what
their calls add up to. -/
theorem read_run (M : Meter) (accepted : total M.weight RelayMetrics.accepted = 0)
    (rejected : total M.weight RelayMetrics.rejected = 0) {relay : Nat}
    {labels : List ServerLabel} {s : ServerState} {b : BoundRelay}
    (ran : (machine settings).exec (start settings) labels = some s)
    (found : s.relays[relay]? = some b) (none : s.NoneInFlight relay) :
    (M.read b.metrics : Int) = (machine settings).sumAlong
      (fun s label _ => queuedBy settings M.weight (fun _ u => u.relay == relay) s label)
      (start settings) labels := by
  have each : ∀ s label t, ((machine settings).Reachable s ∧ (s.relays[relay]?).isSome = true) →
      step settings s label = some t → True →
      (queuedBy settings M.weight (fun _ u => u.relay == relay) s label : Int) =
        shown M relay t - shown M relay s := by
    intro s label t inv stepped _
    obtain ⟨reached, bound⟩ := inv
    obtain ⟨b, found⟩ := Option.isSome_iff_exists.mp bound
    have booked := (reachable_books reached relay b found).booked
    obtain ⟨b', found', change⟩ := read_queued M accepted rejected stepped found booked
    simp only [shown, found, found']
    omega
  have kept : ∀ s label t, ((machine settings).Reachable s ∧ (s.relays[relay]?).isSome = true) →
      step settings s label = some t →
      (machine settings).Reachable t ∧ (t.relays[relay]?).isSome = true := by
    intro s label t inv stepped
    exact ⟨inv.1.step stepped, by rw [step_bound stepped, inv.2]⟩
  have bound : ((start settings).relays[relay]?).isSome = true := by
    rw [← exec_bound ran relay, found]
    rfl
  have whole := (machine settings).sumAlong_eq_sub kept each ⟨.start rfl, bound⟩
    ((machine settings).guarded_of_forall (fun _ _ => trivial) _ _) ran
  obtain ⟨b₀, started⟩ := Option.isSome_iff_exists.mp bound
  have zero : shown M relay (start settings) = 0 := by
    obtain ⟨spec, -, rfl⟩ := List.mem_map.mp (List.mem_of_getElem? started)
    simp only [shown, started, M.new]
    rfl
  rw [whole, zero]
  simp only [shown, found, none.owed]
  omega

/-! ## Connect attempts -/

/-- How an upstream connect attempt can end. -/
inductive ConnectOutcome
  | succeeded
  | failed
  | timedOut
  deriving DecidableEq

end ServerState

def TaskEvent.connectOutcome : TaskEvent → Option ServerState.ConnectOutcome
  | .connected => some .succeeded
  | .connectFailed _ => some .failed
  | .connectTimedOut _ => some .timedOut
  | _ => none

namespace ServerState

variable {settings : Settings}

/-- The attempts of relay `relay` that end so in a step. -/
def attempts (relay : Nat) (outcome : ConnectOutcome) (s : ServerState) : ServerLabel → Nat
  | .task index event =>
      match s.tasks[index]? with
      | some t => if t.relay = relay ∧ event.connectOutcome = some outcome then 1 else 0
      | none => 0
  | _ => 0

/-- The attempts of relay `relay` that end so in a run. -/
def attemptsAlong (settings : Settings) (relay : Nat) (outcome : ConnectOutcome)
    (labels : List ServerLabel) : Int :=
  (machine settings).sumAlong (fun s label _ => attempts relay outcome s label) (start settings)
    labels

/-- The connect metrics of a relay are what its attempts were in the run. -/
structure ConnectsAccounted (settings : Settings) (relay : Nat) (labels : List ServerLabel)
    (metrics : RelayMetrics) : Prop where
  durations : (metrics.upstreamConnectDuration.count : Int) =
    attemptsAlong settings relay .succeeded labels + attemptsAlong settings relay .failed labels +
      attemptsAlong settings relay .timedOut labels
  failures : (metrics.upstreamConnectFailures : Int) = attemptsAlong settings relay .failed labels
  timeouts : (metrics.upstreamConnectTimeouts : Int) = attemptsAlong settings relay .timedOut labels

/-- The step ends no connect attempt of relay `relay`. -/
def EndsNoAttempt (relay : Nat) (s : ServerState) (label : ServerLabel) : Prop :=
  ∀ outcome, attempts relay outcome s label = 0

/-- The failed attempts are the calls of `upstream_failure`, the timed out ones those of
`upstream_timeout`. -/
theorem queued_attempts (outcome : ConnectOutcome) {relay : Nat} {w : MetricUpdate → Nat}
    (closed : ∀ duration a b, total w (RelayMetrics.closed duration a b) = 0)
    (idle : total w RelayMetrics.idleTimeout = 0)
    (failure : total w RelayMetrics.upstreamFailure = if outcome = .failed then 1 else 0)
    (timeout : total w RelayMetrics.upstreamTimeout = if outcome = .timedOut then 1 else 0)
    (unseen : outcome ≠ .succeeded) {s t : ServerState} {label : ServerLabel}
    (stepped : step settings s label = some t) :
    queuedBy settings w (fun _ u => u.relay == relay) s label = attempts relay outcome s label := by
  cases label with
  | task index event =>
      simp only [step] at stepped
      split at stepped <;> [cases stepped; skip]
      rename_i u found
      obtain ⟨⟨after, effect⟩, moved, -⟩ := Option.map_eq_some_iff.mp stepped
      rw [queuedBy_task found moved, Task.queued_total closed moved]
      simp only [attempts, found, beq_iff_eq]
      by_cases here : u.relay = relay
      · simp only [here, if_true, true_and]
        simp only [Task.called]
        cases event with
        | connected => simp [TaskEvent.connectOutcome, unseen.symm]
        | connectFailed elapsed => simp [TaskEvent.connectOutcome, failure, eq_comm]
        | connectTimedOut elapsed => simp [TaskEvent.connectOutcome, timeout, eq_comm]
        | settled elapsed => simp [TaskEvent.connectOutcome, idle]
        | _ => simp [TaskEvent.connectOutcome]
      · simp only [here, if_false, false_and]
  | _ => rfl

theorem failures_run {relay : Nat} {labels : List ServerLabel} {s : ServerState} {b : BoundRelay}
    (ran : (machine settings).exec (start settings) labels = some s)
    (found : s.relays[relay]? = some b) (none : s.NoneInFlight relay) :
    (b.metrics.upstreamConnectFailures : Int) = attemptsAlong settings relay .failed labels := by
  have read := read_run Meter.upstreamFailures rfl rfl ran found none
  refine read.trans ((machine settings).sumAlong_congr (fun s label t stepped => ?_) _ _)
  rw [queued_attempts .failed (closed_silent (fun _ => rfl) (fun _ => rfl) fun _ _ => rfl) rfl rfl rfl
    (by simp) stepped]

theorem timeouts_run {relay : Nat} {labels : List ServerLabel} {s : ServerState} {b : BoundRelay}
    (ran : (machine settings).exec (start settings) labels = some s)
    (found : s.relays[relay]? = some b) (none : s.NoneInFlight relay) :
    (b.metrics.upstreamConnectTimeouts : Int) = attemptsAlong settings relay .timedOut labels := by
  have read := read_run Meter.upstreamTimeouts rfl rfl ran found none
  refine read.trans ((machine settings).sumAlong_congr (fun s label t stepped => ?_) _ _)
  rw [queued_attempts .timedOut (closed_silent (fun _ => rfl) (fun _ => rfl) fun _ _ => rfl) rfl rfl rfl
    (by simp) stepped]

/-- No task observes a connect duration. -/
theorem connects_none {s : ServerState} (reached : (machine settings).Reachable s) {relay : Nat}
    {b : BoundRelay} (found : s.relays[relay]? = some b) :
    b.metrics.upstreamConnectDuration.count = 0 := by
  have silent : Settles Meter.connects.weight fun _ => 0 :=
    .of_closed (fun _ => rfl) (fun _ => rfl) (fun _ _ => rfl) rfl
  have settled := (reachable_books reached relay b found).settled Meter.connects _ 0 silent
  have nothing : s.across relay (Task.recorded (fun _ => 0) 0) = 0 := by
    refine (tally_eq_zero_iff _ _).mpr fun t _ => ?_
    split
    · unfold Task.recorded
      split <;> rfl
    · rfl
  rw [nothing] at settled
  simp only [Meter.connects] at settled
  omega

theorem endsNoAttempt_iff {relay : Nat} {s : ServerState} {label : ServerLabel} :
    EndsNoAttempt relay s label ↔ attempts relay .succeeded s label +
      attempts relay .failed s label + attempts relay .timedOut s label = 0 := by
  constructor
  · intro none
    rw [none .succeeded, none .failed, none .timedOut]
  · intro none outcome
    cases outcome <;> omega

/-- At every state of a run with no update of the relay in flight, the counters of failed
and of timed out connects are exact; the histogram is, too, exactly if no attempt of the
relay has ended. -/
theorem connect_metrics_iff {relay : Nat} {labels : List ServerLabel} {s : ServerState}
    {b : BoundRelay} (ran : (machine settings).exec (start settings) labels = some s)
    (found : s.relays[relay]? = some b) (settled : s.NoneInFlight relay) :
    ((b.metrics.upstreamConnectFailures : Int) = attemptsAlong settings relay .failed labels ∧
      (b.metrics.upstreamConnectTimeouts : Int) = attemptsAlong settings relay .timedOut labels) ∧
    (ConnectsAccounted settings relay labels b.metrics ↔
      (machine settings).Guarded (EndsNoAttempt relay) (start settings) labels) := by
  have failures := failures_run ran found settled
  have timeouts := timeouts_run ran found settled
  have reached := ((machine settings).reachable_iff_exec s).mpr ⟨_, _, rfl, ran⟩
  have none := connects_none reached found
  refine ⟨⟨failures, timeouts⟩, ?_⟩
  have ended : (machine settings).Guarded (EndsNoAttempt relay) (start settings) labels ↔
      attemptsAlong settings relay .succeeded labels + attemptsAlong settings relay .failed labels +
        attemptsAlong settings relay .timedOut labels = 0 := by
    simp only [attemptsAlong, ← Machine.sumAlong_add]
    have counted := (machine settings).sumAlong_eq_zero_iff
      (fun s label => attempts relay .succeeded s label + attempts relay .failed s label +
        attempts relay .timedOut s label) (start settings) labels
    push_cast at counted
    rw [counted]
    show (machine settings).Guarded (fun s label => EndsNoAttempt relay s label) _ _ ↔ _
    simp only [endsNoAttempt_iff]
  rw [ended]
  constructor
  · intro accounted
    rw [← accounted.durations, none]
    rfl
  · intro zero
    exact ⟨by rw [none, zero]; rfl, failures, timeouts⟩

/-- A client of the first relay whose upstream connect fails, until its task has returned. -/
def failedConnect : List ServerLabel :=
  .listener 0 .accept :: List.replicate 10 (.listener 0 .next) ++
    [.task 0 (.connectFailed 2_000_000)] ++ List.replicate 9 (.task 0 .next)

theorem connect_metrics_iff_failed :
    ∃ (s : ServerState) (b : BoundRelay),
      (machine twoRelays).exec (start twoRelays) failedConnect = some s ∧
      s.relays[0]? = some b ∧
      (b.metrics.upstreamConnectFailures : Int) = attemptsAlong twoRelays 0 .failed failedConnect ∧
      b.metrics.upstreamConnectFailures = 1 ∧
      ¬ (machine twoRelays).Guarded (EndsNoAttempt 0) (start twoRelays) failedConnect := by
  have reaches :
      ∃ (s : ServerState) (b : BoundRelay),
        (machine twoRelays).exec (start twoRelays) failedConnect = some s ∧
        s.relays[0]? = some b ∧ (∀ t ∈ s.tasks, t.phase = .returning) ∧
        b.metrics.upstreamConnectFailures = 1 ∧ b.metrics.upstreamConnectDuration.count = 0 :=
    ⟨_, _, rfl, rfl, fun t member => by rw [List.mem_singleton.mp member], rfl, rfl⟩
  obtain ⟨s, b, ran, found, returned, one, none⟩ := reaches
  have settled : s.NoneInFlight 0 := by
    intro t member _ u updates closing
    rw [returned t member] at closing
    cases closing
  obtain ⟨⟨failures, -⟩, accounted⟩ := connect_metrics_iff ran found settled
  refine ⟨s, b, ran, found, failures, one, fun guarded => ?_⟩
  have durations := (accounted.mpr guarded).durations
  rw [none] at durations
  cases durations

/-- The upstream has just accepted: the attempt succeeded, and no histogram shows it. -/
theorem connect_unobserved :
    ∃ (s : ServerState) (b : BoundRelay),
      (machine twoRelays).exec (start twoRelays)
        (.listener 0 .accept :: List.replicate 10 (.listener 0 .next) ++ [.task 0 .connected]) =
          some s ∧
      s.relays[0]? = some b ∧ s.NoneInFlight 0 ∧
      ¬ ConnectsAccounted twoRelays 0
        (.listener 0 .accept :: List.replicate 10 (.listener 0 .next) ++ [.task 0 .connected])
        b.metrics := by
  have reaches :
      ∃ (s : ServerState) (b : BoundRelay),
        (machine twoRelays).exec (start twoRelays)
          (.listener 0 .accept :: List.replicate 10 (.listener 0 .next) ++ [.task 0 .connected]) =
            some s ∧
        s.relays[0]? = some b ∧
        (∀ t ∈ s.tasks, t.phase = .releasing [.globalConnecting, .perRelayConnecting 0]) ∧
        b.metrics.upstreamConnectDuration.count = 0 :=
    ⟨_, _, rfl, rfl, fun t member => by rw [List.mem_singleton.mp member], rfl⟩
  obtain ⟨s, b, ran, found, releasing, none⟩ := reaches
  refine ⟨s, b, ran, found, fun t member _ u updates closing => ?_, fun accounted => ?_⟩
  · rw [releasing t member] at closing
    cases closing
  · have durations := accounted.durations
    rw [none] at durations
    cases durations

/-! ## Idle timeouts -/

/-- What the relay's counter shows. -/
def idleTimeouts (s : ServerState) (relay : Nat) : Nat :=
  match s.relays[relay]? with
  | some b => b.metrics.idleTimeouts
  | none => 0

/-- How far connection `i` moves the counter of its relay in a step. -/
def idleChange (i : Nat) (s : ServerState) (label : ServerLabel) (t : ServerState) : Int :=
  match label with
  | .task index _ =>
      match s.tasks[index]? with
      | some u => if index = i then t.idleTimeouts u.relay - s.idleTimeouts u.relay else 0
      | none => 0
  | _ => 0

/-- Connection `i` is ended by its watchdog in this step. -/
def watchdogEnds (i : Nat) (s : ServerState) : ServerLabel → Nat
  | .task index (.settled _) =>
      match s.tasks[index]? with
      | some t => if index = i ∧ t.idledOut = true then 1 else 0
      | none => 0
  | _ => 0

/-- Connection `i` is ended in this step by an error of kind `TimedOut` that its watchdog
did not make. -/
def otherTimeouts (i : Nat) (s : ServerState) : ServerLabel → Nat
  | .task index (.settled _) =>
      match s.tasks[index]? with
      | some t => if index = i ∧ t.timesOut = true ∧ t.idledOut = false then 1 else 0
      | none => 0
  | _ => 0

/-- An error of kind `TimedOut` that ends connection `i` in this step is its watchdog's. -/
def TimedOutByWatchdog (i : Nat) (s : ServerState) (label : ServerLabel) : Prop :=
  ∀ elapsed t, label = .task i (.settled elapsed) → s.tasks[i]? = some t → t.timesOut = true →
    t.idledOut = true

theorem timedOutByWatchdog_iff {i : Nat} {s : ServerState} {label : ServerLabel} :
    TimedOutByWatchdog i s label ↔ otherTimeouts i s label = 0 := by
  constructor
  · intro watchdog
    unfold otherTimeouts
    split
    · rename_i index elapsed
      split
      · rename_i t found
        refine if_neg ?_
        rintro ⟨rfl, timesOut, other⟩
        rw [watchdog elapsed t rfl found timesOut] at other
        cases other
      · rfl
    · rfl
  · intro none elapsed t same found timesOut
    subst same
    simp only [otherTimeouts, found, timesOut, true_and] at none
    simpa using none

/-- The calls of `idle_timeout` of a connection are its watchdog's, and the others. -/
theorem queued_idle {i : Nat} {s t : ServerState} {label : ServerLabel}
    (stepped : step settings s label = some t) :
    queuedBy settings Meter.idleTimeouts.weight (fun index _ => index == i) s label =
      watchdogEnds i s label + otherTimeouts i s label := by
  cases label with
  | task index event =>
      simp only [step] at stepped
      split at stepped <;> [cases stepped; skip]
      rename_i u found
      obtain ⟨⟨after, effect⟩, moved, -⟩ := Option.map_eq_some_iff.mp stepped
      rw [queuedBy_task found moved, Task.queued_total
        (closed_silent (fun _ => rfl) (fun _ => rfl) fun _ _ => rfl) moved]
      simp only [beq_iff_eq, Task.called]
      by_cases here : index = i
      · subst here
        cases event with
        | settled elapsed =>
            simp only [watchdogEnds, otherTimeouts, found, if_true, true_and]
            have implied := u.timesOut_of_idledOut
            cases idled : u.idledOut with
            | true =>
                simp only [implied idled, if_true, true_and]
                rfl
            | false =>
                cases u.timesOut <;> rfl
        | _ => simp only [if_true]; rfl
      · cases event with
        | settled elapsed =>
            simp only [watchdogEnds, otherTimeouts, found, here, if_false, false_and]
        | _ => simp only [here, if_false, watchdogEnds, otherTimeouts]
  | _ => rfl

/-- A task is of a relay of the server. -/
theorem tasks_bound {s : ServerState} (reached : (machine settings).Reachable s) :
    ∀ t ∈ s.tasks, (s.relays[t.relay]?).isSome = true := by
  induction reached with
  | start initial =>
      obtain rfl := initial
      intro t member
      cases member
  | @step s t label before stepped ih =>
      refine step_tasks stepped (fun u member => ?_) ?_ ?_
      · rw [step_bound stepped]
        exact ih u member
      · intro relay held b found spawning
        rw [step_bound stepped, found]
        rfl
      · intro index event u after effect _ found moved
        rw [step_bound stepped, moved.relay]
        exact ih u (List.mem_of_getElem? found)

theorem idleChange_made {s t : ServerState} {label : ServerLabel}
    (reached : (machine settings).Reachable s) (stepped : step settings s label = some t) (i : Nat) :
    idleChange i s label t = madeBy settings Meter.idleTimeouts.weight i s label := by
  cases label with
  | task index event =>
      simp only [step] at stepped
      split at stepped <;> [cases stepped; skip]
      rename_i u found
      obtain ⟨⟨after, effect⟩, moved, rfl⟩ := Option.map_eq_some_iff.mp stepped
      simp only [idleChange, found]
      by_cases here : index = i
      · subst here
        have bound := tasks_bound reached u (List.mem_of_getElem? found)
        obtain ⟨b, bound⟩ := Option.isSome_iff_exists.mp bound
        have after := (task_at found (Task.step_stepped moved) u.relay).1
        have read := b.after_read effect Meter.idleTimeouts
        simp only [bound, Option.map_some, if_true] at after
        rw [madeBy_own found moved, if_pos rfl]
        simp only [idleTimeouts, after, bound]
        simp only [Meter.idleTimeouts] at read ⊢
        omega
      · rw [madeBy_other (fun event same => here (ServerLabel.task.inj same).1), if_neg here]
        rfl
  | _ => rfl

/-- A connection with no update in flight has raised `idle_timeouts` as often as its
watchdog has ended it, exactly if no error of kind `TimedOut` but the watchdog's has. -/
theorem idle_timeouts_iff {i : Nat} {labels : List ServerLabel} {s : ServerState}
    (ran : (machine settings).exec (start settings) labels = some s)
    (settled : ∀ t, s.tasks[i]? = some t → ∀ u updates, t.phase ≠ .closing (u :: updates)) :
    (machine settings).sumAlong (idleChange i) (start settings) labels =
        (machine settings).sumAlong (fun s label _ => watchdogEnds i s label) (start settings)
          labels ↔
      (machine settings).Guarded (TimedOutByWatchdog i) (start settings) labels := by
  have each : ∀ s label t, (machine settings).Reachable s → step settings s label = some t → True →
      idleChange i s label t - (watchdogEnds i s label + otherTimeouts i s label : Int) =
        -(t.at_ (Task.owes Meter.idleTimeouts.weight 0) 0 i : Int) -
          -(s.at_ (Task.owes Meter.idleTimeouts.weight 0) 0 i : Int) := by
    intro s label t reached stepped _
    have made := made_queued Meter.idleTimeouts.weight stepped i
    rw [queued_idle stepped] at made
    rw [idleChange_made reached stepped i]
    omega
  have whole := (machine settings).sumAlong_eq_sub (fun _ _ _ reached stepped => reached.step stepped)
    each (.start rfl) ((machine settings).guarded_of_forall (fun _ _ => trivial) _ _) ran
  have made : s.at_ (Task.owes Meter.idleTimeouts.weight 0) 0 i = 0 := by
    unfold at_
    split
    · exact owes_settled _ (settled _ ‹_›)
    · rfl
  have unspawned : (start settings).at_ (Task.owes Meter.idleTimeouts.weight 0) 0 i = 0 := rfl
  rw [Machine.sumAlong_sub, Machine.sumAlong_add, made, unspawned] at whole
  have none := (machine settings).sumAlong_eq_zero_iff (otherTimeouts i) (start settings) labels
  have same : (machine settings).Guarded (TimedOutByWatchdog i) (start settings) labels ↔
      (machine settings).Guarded (fun s label => otherTimeouts i s label = 0) (start settings)
        labels := by
    show (machine settings).Guarded (fun s label => TimedOutByWatchdog i s label) _ _ ↔ _
    simp only [timedOutByWatchdog_iff]
  rw [same, ← none]
  constructor
  · intro equal
    omega
  · intro zero
    omega

/-- One relay with an idle timeout. -/
def oneIdle : Settings :=
  ⟨none, none, [⟨none, none, .auto, some ⟨5, by decide⟩⟩]⟩

/-- Its client and its upstream say nothing until the watchdog's timer has expired. -/
def idledOut : List ServerLabel :=
  .listener 0 .accept :: List.replicate 10 (.listener 0 .next) ++
    [.task 0 .connected, .task 0 .next, .task 0 .next, .task 0 .next,
      .task 0 (.forward (.prepared ⟨[0], Nat.zero_lt_one⟩ ⟨[0], Nat.zero_lt_one⟩)),
      .task 0 (.forward (.poll ⟨1, true, true, true, false, [], []⟩)),
      .task 0 (.forward (.poll ⟨6, true, true, true, false, [], []⟩)),
      .task 0 (.settled 8)] ++
    List.replicate 9 (.task 0 .next)

theorem idle_timeouts_iff_idled :
    ∃ s, (machine oneIdle).exec (start oneIdle) idledOut = some s ∧ s.idleTimeouts 0 = 1 ∧
      (machine oneIdle).Guarded (TimedOutByWatchdog 0) (start oneIdle) idledOut := by
  have reaches : ∃ s, (machine oneIdle).exec (start oneIdle) idledOut = some s ∧
      (∀ t ∈ s.tasks, t.phase = .returning) ∧ s.idleTimeouts 0 = 1 :=
    ⟨_, rfl, fun t member => by rw [List.mem_singleton.mp member], rfl⟩
  obtain ⟨s, ran, returned, one⟩ := reaches
  refine ⟨s, ran, one, (idle_timeouts_iff ran fun t found u updates closing => ?_).mp rfl⟩
  rw [returned t (List.mem_of_getElem? found)] at closing
  cases closing

/-- The first of the two relays has no idle timeout; the kernel gives up on the client's
connection, and a read fails with `ETIMEDOUT`. -/
def keepaliveTimeout : List ServerLabel :=
  .listener 0 .accept :: List.replicate 10 (.listener 0 .next) ++
    [.task 0 .connected, .task 0 .next, .task 0 .next, .task 0 .next,
      .task 0 (.forward (.prepared ⟨[0], Nat.zero_lt_one⟩ ⟨[0], Nat.zero_lt_one⟩)),
      .task 0 (.forward (.poll ⟨1, true, true, true, false, [.takeFailed (.os .timedOut)], []⟩)),
      .task 0 (.settled 3)] ++
    List.replicate 9 (.task 0 .next)

theorem keepalive_counts_as_idle :
    (∃ s, (machine twoRelays).exec (start twoRelays) keepaliveTimeout = some s ∧
      (∀ t ∈ s.tasks, t.phase = .returning) ∧ s.idleTimeouts 0 = 1) ∧
    ¬ (machine twoRelays).sumAlong (idleChange 0) (start twoRelays) keepaliveTimeout =
      (machine twoRelays).sumAlong (fun s label _ => watchdogEnds 0 s label) (start twoRelays)
        keepaliveTimeout := by
  have change : (machine twoRelays).sumAlong (idleChange 0) (start twoRelays) keepaliveTimeout = 1 :=
    rfl
  have ends : (machine twoRelays).sumAlong (fun s label _ => watchdogEnds 0 s label)
      (start twoRelays) keepaliveTimeout = 0 := rfl
  refine ⟨⟨_, rfl, fun t member => by rw [List.mem_singleton.mp member], rfl⟩, ?_⟩
  rw [change, ends]
  decide

end ServerState

end Portrelay.Server
