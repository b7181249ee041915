/-
# Server.ForcedShutdown -- what forced shutdown reaches

The awaits of the tracked tasks while `force_shutdown` is cancelled.  A connection task of a
relay waits in two `select!`s, whatever its connect or transfer waits for inside; a metrics
connection also waits at its writes, for as long as its client leaves no room for them.
`ForcedRun` puts beside the server which of these writes are pending.

* `Task.suspended_raced` -- every await of a relay's connection task is raced, and between
  its awaits the task goes on by itself (`Task.goes_on`).
* `forced_reaches_iff` -- along a run no task can stay blocked once forced, if and only if no
  write of a metrics connection is pending then.
-/
import Portrelay.Server.Shutdown

namespace Portrelay.Server

open Portrelay.Theory Portrelay.Relay

set_option autoImplicit false

/-! ## Awaits -/

/-- The connection task is suspended, in one of its two `select!`s. -/
def Task.suspended (t : Task) : Bool :=
  match t.phase with
  | .connecting => true
  | .transferring forward => decide (forward.result = none)
  | _ => false

/-- Forced shutdown ends the await. -/
def Task.Raced (settings : Settings) (t : Task) : Prop :=
  ∀ elapsed, ∃ after, t.step settings true (.forced elapsed) = some after

theorem Task.suspended_raced (settings : Settings) {t : Task} (suspended : t.suspended = true) :
    t.Raced settings := by
  intro elapsed
  unfold Task.suspended at suspended
  unfold Task.step
  split at suspended
  · rename_i phase
    rw [phase]
    exact ⟨_, rfl⟩
  · rename_i forward phase
    have running := of_decide_eq_true suspended
    rw [phase]
    exact ⟨_, if_pos ⟨rfl, running⟩⟩
  · cases suspended

/-- A task that is neither suspended nor finished has a step of its own. -/
theorem Task.goes_on {settings : Settings} {force : Bool} {t : Task} {spec : RelaySpec}
    (configured : settings.relays[t.relay]? = some spec) (unfinished : t.finished = false)
    (running : t.suspended = false) :
    (∃ after, t.step settings force .next = some after) ∨
      ∀ elapsed, ∃ after, t.step settings force (.settled elapsed) = some after := by
  unfold Task.suspended at running
  unfold Task.finished at unfinished
  unfold Task.step
  cases phase : t.phase with
  | connecting =>
      rw [phase] at running
      cases running
  | releasing rest =>
      left
      cases rest with
      | nil => simp [configured]
      | cons limit rest =>
          by_cases held : limit ∈ t.held
          · exact ⟨_, if_pos held⟩
          · exact ⟨_, if_neg held⟩
  | transferring forward =>
      right
      intro elapsed
      rw [phase] at running
      have returned : forward.result ≠ none := of_decide_eq_false running
      obtain ⟨result, same⟩ := Option.ne_none_iff_exists'.mp returned
      cases result with
      | ok counts => simp [same]
      | error error => simp [same]
  | closing updates =>
      left
      cases updates with
      | nil => simp
      | cons u updates => simp
  | returning =>
      left
      rw [phase] at unfinished
      cases held : t.held with
      | nil =>
          rw [held] at unfinished
          cases unfinished
      | cons limit rest => simp

namespace MetricsConnection

/-- A write of the task, which may have to wait for its client; `shutdown` of a plain stream
does not, and that of a TLS stream writes a last record. -/
def writes (tls : Bool) : MetricsConnection → Bool
  | .writingHeader => true
  | .writingBody => true
  | .closing => tls
  | _ => false

/-- The task is suspended, in one of its two `select!`s or at a pending write. -/
def suspended (pending : Bool) : MetricsConnection → Bool
  | .handshaking => true
  | .reading => true
  | _ => pending

/-- Forced shutdown ends the await. -/
def Raced (connection : MetricsConnection) : Prop :=
  ∃ after, connection.step true .forced = some after

theorem writes_not_raced {tls : Bool} {connection : MetricsConnection}
    (writes : connection.writes tls = true) : ¬ connection.Raced := by
  rintro ⟨after, stepped⟩
  cases connection with
  | handshaking | reading | finished => cases writes
  | writingHeader | writingBody | closing =>
      rw [step] at stepped
      · cases stepped
      all_goals simp

end MetricsConnection

/-! ## Pending writes -/

/-- The server, and the metrics connections whose write is pending. -/
structure ForcedRun where
  run : RunState
  pending : List Nat

inductive ForcedLabel
  | run (label : RunLabel)
  /-- the write at which the connection stands finds no room -/
  | pends (connection : Nat)

namespace ForcedRun

/-- What is pending after a step: a connection that moves on does not wait any more. -/
def stillPending (pending : List Nat) : RunLabel → List Nat
  | .metricsConnection index _ => pending.filter (· ≠ index)
  | _ => pending

def step (settings : Settings) (tls : Bool) (s : ForcedRun) : ForcedLabel → Option ForcedRun
  | .run label =>
      (s.run.step settings tls label).map fun run => ⟨run, stillPending s.pending label⟩
  | .pends connection =>
      match s.run.metricsConnections[connection]? with
      | none => none
      | some c => if c.writes tls then some { s with pending := connection :: s.pending } else none

/-- `run` has just spawned the listener tasks. -/
def machine (settings : Settings) (tls : Bool) : Machine ForcedRun ForcedLabel :=
  ⟨fun s => s.run.Initial settings ∧ s.pending = [], step settings tls⟩

/-- Once `force_shutdown` is cancelled, every tracked task that is suspended is raced with it. -/
def Reaches (settings : Settings) (s : ForcedRun) : Prop :=
  s.run.server.force = true →
    (∀ t ∈ s.run.server.tasks, t.suspended = true → t.Raced settings) ∧
    ∀ (index : Nat) (c : MetricsConnection), s.run.metricsConnections[index]? = some c →
      c.suspended (s.pending.contains index) = true → c.Raced

/-- No write is pending when `force_shutdown` is cancelled, and none becomes so after it. -/
def Unblocked (s : ForcedRun) : ForcedLabel → Prop
  | .pends _ => s.run.server.force = false
  | .run (.run .timeoutElapsed) => s.pending = []
  | .run _ => True

variable {settings : Settings} {tls : Bool}

/-- What is pending is a write. -/
def Inv (tls : Bool) (s : ForcedRun) : Prop :=
  ∀ index ∈ s.pending, ∃ c, s.run.metricsConnections[index]? = some c ∧ c.writes tls = true

/-- A step of the server other than one of metrics connection `index` leaves it as it is. -/
theorem connection_kept {s t : RunState} {label : RunLabel} {index : Nat} {c : MetricsConnection}
    (found : s.metricsConnections[index]? = some c)
    (stepped : RunState.step settings tls s label = some t)
    (other : ∀ event, label ≠ .metricsConnection index event) :
    t.metricsConnections[index]? = some c := by
  cases label with
  | cancel | listener relay event | task i event =>
      simp only [RunState.step] at stepped
      obtain ⟨server, -, rfl⟩ := Option.map_eq_some_iff.mp stepped
      exact found
  | refreshLoop i event =>
      simp only [RunState.step] at stepped
      split at stepped <;> [cases stepped; skip]
      obtain ⟨after, -, rfl⟩ := Option.map_eq_some_iff.mp stepped
      exact found
  | metricsListener event =>
      simp only [RunState.step] at stepped
      split at stepped <;> [cases stepped; skip]
      obtain ⟨after, -, rfl⟩ := Option.map_eq_some_iff.mp stepped
      have inside := (List.getElem?_eq_some_iff.mp found).1
      show (if _ then _ else _)[index]? = some c
      split
      · rw [List.getElem?_append_left inside]
        exact found
      · exact found
  | metricsConnection i event =>
      have apart : i ≠ index := fun same => other event (by rw [same])
      simp only [RunState.step] at stepped
      split at stepped <;> [cases stepped; skip]
      obtain ⟨after, -, rfl⟩ := Option.map_eq_some_iff.mp stepped
      show (s.metricsConnections.set i after)[index]? = some c
      rw [List.getElem?_set_ne apart]
      exact found
  | run event =>
      cases event with
      | timeoutElapsed =>
          obtain ⟨-, stepped⟩ := Option.ite_none_right_eq_some.mp stepped
          obtain ⟨server, -, rfl⟩ := Option.map_eq_some_iff.mp stepped
          exact found
      | cancelled | joined | drained | closeTracker | waited | abortedJoined =>
          obtain ⟨-, same⟩ := Option.ite_none_right_eq_some.mp stepped
          cases same
          exact found

/-- Only the timeout cancels `force_shutdown`. -/
theorem force_after {s t : RunState} {label : RunLabel}
    (stepped : RunState.step settings tls s label = some t) :
    (label = .run .timeoutElapsed ∧ t.server.force = true) ∨
      (label ≠ .run .timeoutElapsed ∧ t.server.force = s.server.force) := by
  have moves := RunState.step_onServer stepped
  by_cases elapsed : label = .run .timeoutElapsed
  · subst elapsed
    have forced : s.server.step settings .forceShutdown = some t.server := moves
    obtain ⟨-, same⟩ := Option.ite_none_right_eq_some.mp forced
    refine Or.inl ⟨rfl, ?_⟩
    rw [← Option.some.inj same]
  · refine Or.inr ⟨elapsed, ?_⟩
    cases seen : RunState.onServer label with
    | none =>
        rw [seen] at moves
        exact congrArg ServerState.force moves
    | some l =>
        rw [seen] at moves
        apply ServerState.step_force moves
        rintro rfl
        cases label with
        | run event =>
            cases event with
            | timeoutElapsed => exact elapsed rfl
            | cancelled | joined | drained | closeTracker | waited | abortedJoined => cases seen
        | cancel | listener _ _ | task _ _ | refreshLoop _ _ | metricsListener _
        | metricsConnection _ _ => cases seen

theorem mem_stillPending {pending : List Nat} {label : RunLabel} {index : Nat}
    (member : index ∈ stillPending pending label) :
    index ∈ pending ∧ ∀ event, label ≠ .metricsConnection index event := by
  cases label with
  | metricsConnection i event =>
      obtain ⟨before, apart⟩ := List.mem_filter.mp member
      refine ⟨before, ?_⟩
      intro other same
      cases same
      exact of_decide_eq_true apart rfl
  | cancel | listener _ _ | task _ _ | refreshLoop _ _ | metricsListener _ | run _ =>
      exact ⟨member, fun _ same => by cases same⟩

theorem step_inv {s t : ForcedRun} {label : ForcedLabel} (inv : s.Inv tls)
    (stepped : step settings tls s label = some t) : t.Inv tls := by
  cases label with
  | run label =>
      obtain ⟨run, moved, rfl⟩ := Option.map_eq_some_iff.mp stepped
      intro index member
      obtain ⟨before, other⟩ := mem_stillPending member
      obtain ⟨c, found, writes⟩ := inv index before
      exact ⟨c, connection_kept found moved other, writes⟩
  | pends connection =>
      simp only [step] at stepped
      split at stepped <;> [cases stepped; skip]
      rename_i c found
      obtain ⟨writes, same⟩ := Option.ite_none_right_eq_some.mp stepped
      cases same
      intro index member
      rcases List.mem_cons.mp member with rfl | member
      · exact ⟨c, found, writes⟩
      · exact inv index member

/-- Of the awaits only the pending writes are not raced. -/
theorem reaches_iff {s : ForcedRun} (inv : s.Inv tls) :
    s.Reaches settings ↔ (s.run.server.force = true → s.pending = []) := by
  constructor
  · intro reaches forced
    by_contra some_
    obtain ⟨index, member⟩ := List.exists_mem_of_ne_nil s.pending some_
    obtain ⟨c, found, writes⟩ := inv index member
    have waits : c.suspended (s.pending.contains index) = true := by
      rw [List.contains_iff_mem.mpr member]
      cases c <;> rfl
    exact MetricsConnection.writes_not_raced writes ((reaches forced).2 index c found waits)
  · intro none_ forced
    refine ⟨fun t _ suspended => t.suspended_raced settings suspended, ?_⟩
    intro index c found waits
    rw [none_ forced] at waits
    cases c with
    | handshaking => exact ⟨.finished, rfl⟩
    | reading => exact ⟨.closing, rfl⟩
    | writingHeader | writingBody | closing | finished => cases waits

theorem unblocked_run {s : ForcedRun} {label : RunLabel} (other : label ≠ .run .timeoutElapsed) :
    s.Unblocked (.run label) := by
  cases label with
  | run event =>
      cases event with
      | timeoutElapsed => exact absurd rfl other
      | cancelled | joined | drained | closeTracker | waited | abortedJoined => trivial
  | cancel | listener _ _ | task _ _ | refreshLoop _ _ | metricsListener _
  | metricsConnection _ _ => trivial

theorem step_reaches_iff {s t : ForcedRun} {label : ForcedLabel} (inv : s.Inv tls)
    (reaches : s.Reaches settings) (stepped : step settings tls s label = some t) :
    t.Reaches settings ↔ s.Unblocked label := by
  have before := (reaches_iff inv).mp reaches
  rw [reaches_iff (step_inv inv stepped)]
  cases label with
  | pends connection =>
      simp only [step] at stepped
      split at stepped <;> [cases stepped; skip]
      obtain ⟨-, same⟩ := Option.ite_none_right_eq_some.mp stepped
      cases same
      simp [Unblocked]
  | run label =>
      obtain ⟨run, moved, rfl⟩ := Option.map_eq_some_iff.mp stepped
      rcases force_after moved with ⟨rfl, forced⟩ | ⟨other, same⟩
      · exact ⟨fun later => later forced, fun none_ _ => none_⟩
      · refine iff_of_true ?_ (unblocked_run other)
        intro forced
        apply List.eq_nil_iff_forall_not_mem.mpr
        intro index member
        have none_ := before (same.symm.trans forced)
        rw [none_] at member
        exact absurd (mem_stillPending member).1 List.not_mem_nil

end ForcedRun

/-- From any state of the server, with any relay and metrics connections, plain or TLS, no
tracked task can stay blocked on its peer once `force_shutdown` is cancelled, if and only if
no write of a metrics connection is pending then. -/
theorem forced_reaches_iff (settings : Settings) (tls : Bool) (s : RunState)
    (labels : List ForcedLabel) :
    (ForcedRun.machine settings tls).Along (ForcedRun.Reaches settings) ⟨s, []⟩ labels ↔
      (ForcedRun.machine settings tls).Guarded ForcedRun.Unblocked ⟨s, []⟩ labels := by
  have start : ForcedRun.Inv tls ⟨s, []⟩ := fun _ member => absurd member List.not_mem_nil
  apply (ForcedRun.machine settings tls).along_iff_guarded
    (fun _ _ _ inv stepped => ForcedRun.step_inv inv stepped) ?_ start ?_
  · intro s label t inv reaches stepped
    exact ForcedRun.step_reaches_iff inv reaches stepped
  · exact (ForcedRun.reaches_iff start).mpr fun _ => rfl

/-- A client asks for the metrics and reads no answer; the shutdown timeout elapses. -/
def silentClient : List ForcedLabel :=
  [.run (.metricsListener .accept), .run (.metricsListener .spawn),
    .run (.metricsConnection 0 .read), .pends 0, .run .cancel, .run (.run .cancelled),
    .run (.run .timeoutElapsed)]

/-- Its task stays blocked at the header, which forced shutdown does not reach. -/
theorem silent_client_blocks : ∃ s, (ForcedRun.machine ServerState.twoRelays false).Reachable s ∧
    s.run.server.force = true ∧ s.run.metricsConnections = [.writingHeader] ∧
      ¬ s.Reaches ServerState.twoRelays := by
  have ran : ∃ s, (ForcedRun.machine ServerState.twoRelays false).exec
      ⟨⟨.start ServerState.twoRelays, [], some .accepting, [], false, .serving⟩, []⟩ silentClient =
        some s ∧ s.run.server.force = true ∧ s.run.metricsConnections = [.writingHeader] ∧
          s.pending = [0] := ⟨_, rfl, rfl, rfl, rfl⟩
  obtain ⟨s, ran, forced, writing, pending⟩ := ran
  refine ⟨s, ?_, forced, writing, ?_⟩
  · exact ((ForcedRun.machine _ false).reachable_iff_exec s).mpr
      ⟨_, silentClient, ⟨⟨rfl, rfl, rfl, rfl⟩, rfl⟩, ran⟩
  · intro reaches
    have found : s.run.metricsConnections[0]? = some .writingHeader := by rw [writing]; rfl
    have waits : MetricsConnection.writingHeader.suspended (s.pending.contains 0) = true := by
      rw [pending]
      rfl
    have writes : MetricsConnection.writingHeader.writes false = true := rfl
    exact MetricsConnection.writes_not_raced writes ((reaches forced).2 0 _ found waits)

end Portrelay.Server
