/-
# Server.Admission -- listeners, permits and connection tasks

`run_relay_listener` and the task it spawns around `handle_connection`, for any number
of relays that share the two global semaphores.  One step is one acquire, one release,
one atomic update of a metric, one poll of a transfer, or the choice of a branch; a
local step (`Listener.step`, `Task.step`) names what it does to the shared state as an
`Effect`, and `ServerState.step` performs it.

Permits are listed as they will be dropped, the last acquired first: that is the order
of the rollback branches and of the locals of a returning task.
-/
import Portrelay.Theory.Machine
import Portrelay.Theory.Tally
import Portrelay.Metrics.RelayMetrics
import Portrelay.Relay.Forward

namespace Portrelay.Server

open Portrelay.Theory Portrelay.Relay Portrelay.Metrics

set_option autoImplicit false

/-- What the admission path reads of a `RelaySpec`. -/
structure RelaySpec where
  maxConnections : Option Nat
  maxConnecting : Option Nat
  forwardMode : ForwardMode
  idleTimeout : Option IdleTimeout

/-- What the admission path reads of the `Settings`. -/
structure Settings where
  globalMaxConnections : Option Nat
  globalMaxConnecting : Option Nat
  relays : List RelaySpec

/-- The four kinds of semaphore, two of them one for each relay. -/
inductive Limit
  | globalLimit
  | perRelayLimit (relay : Nat)
  | globalConnecting
  | perRelayConnecting (relay : Nat)
  deriving DecidableEq, Repr

/-- The permits a semaphore was made with; `none` where it is not configured. -/
def Settings.limit (settings : Settings) : Limit → Option Nat
  | .globalLimit => settings.globalMaxConnections
  | .perRelayLimit relay => settings.relays[relay]?.bind RelaySpec.maxConnections
  | .globalConnecting => settings.globalMaxConnecting
  | .perRelayConnecting relay => settings.relays[relay]?.bind RelaySpec.maxConnecting

/-- The order in which a connection acquires its permits. -/
def admission (relay : Nat) : List Limit :=
  [.globalLimit, .perRelayLimit relay, .globalConnecting, .perRelayConnecting relay]

/-- What a local step does to the shared state. -/
inductive Effect
  | none
  | acquire (limit : Limit)
  | release (limit : Limit)
  | update (u : MetricUpdate)
  /-- a socket came out of `accept` -/
  | taken
  /-- a socket was closed because shutdown was cancelled -/
  | dropped
  | spawn (held : List Limit)
  deriving DecidableEq

/-! ## The listener -/

/-- Where `run_relay_listener` is. -/
inductive Listener
  /-- in the `select!` over shutdown and `accept` -/
  | accepting
  /-- in the `select!` over shutdown and `sleep(ACCEPT_ERROR_BACKOFF)` -/
  | backoff
  /-- before `shutdown.is_cancelled()` -/
  | checking
  | acquiring (rest held : List Limit)
  /-- in `metrics.rejected()` -/
  | refusing (updates : List MetricUpdate) (held : List Limit)
  | rollingBack (held : List Limit)
  /-- in `metrics.accepted()` -/
  | counting (updates : List MetricUpdate) (held : List Limit)
  | spawning (held : List Limit)
  | stopped
  deriving DecidableEq

inductive ListenerEvent
  | accept
  | acceptFailed
  | wake
  /-- the shutdown branch of a `select!` -/
  | stop
  | abort
  | next
  deriving DecidableEq

namespace Listener

def held : Listener → List Limit
  | .acquiring _ held => held
  | .refusing _ held => held
  | .rollingBack held => held
  | .counting _ held => held
  | .spawning held => held
  | _ => []

def step (settings : Settings) (relay : Nat) (free : Limit → Nat) (shutdown force : Bool) :
    Listener → ListenerEvent → Option (Listener × Effect)
  | .accepting, .accept => some (.checking, .taken)
  | .accepting, .acceptFailed => some (.backoff, .none)
  | .accepting, .stop => if shutdown then some (.stopped, .none) else none
  | .accepting, .abort => if force then some (.stopped, .none) else none
  | .backoff, .wake => some (.accepting, .none)
  | .backoff, .stop => if shutdown then some (.stopped, .none) else none
  | .backoff, .abort => if force then some (.stopped, .none) else none
  | .checking, .next =>
      if shutdown then some (.stopped, .dropped) else some (.acquiring (admission relay) [], .none)
  | .acquiring (limit :: rest) held, .next =>
      match settings.limit limit with
      | none => some (.acquiring rest held, .none)
      | some _ =>
          if free limit = 0 then some (.refusing RelayMetrics.rejected held, .none)
          else some (.acquiring rest (limit :: held), .acquire limit)
  | .acquiring [] held, .next => some (.counting RelayMetrics.accepted held, .none)
  | .refusing (u :: updates) held, .next => some (.refusing updates held, .update u)
  | .refusing [] held, .next => some (.rollingBack held, .none)
  | .rollingBack (limit :: held), .next => some (.rollingBack held, .release limit)
  | .rollingBack [], .next => some (.accepting, .none)
  | .counting (u :: updates) held, .next => some (.counting updates held, .update u)
  | .counting [] held, .next => some (.spawning held, .none)
  | .spawning held, .next => some (.accepting, .spawn held)
  | _, _ => none

end Listener

/-! ## The connection task -/

/-- How a connection ended: the amounts it reports, and the bytes its transfer
had delivered. -/
structure Ending where
  reported : Nat × Nat
  delivered : Nat × Nat
  deriving DecidableEq, Repr

/-- Where the task of a connection is. -/
inductive Phase
  /-- in the `select!` over forced shutdown and the connect -/
  | connecting
  /-- dropping the two connecting permits -/
  | releasing (rest : List Limit)
  /-- in the `select!` over forced shutdown and `forward_with_mode` -/
  | transferring (forward : Forward)
  /-- in the last metrics calls -/
  | closing (updates : List MetricUpdate)
  /-- `handle_connection` has returned; what is held is being dropped -/
  | returning

structure Task where
  relay : Nat
  held : List Limit
  phase : Phase
  ending : Option Ending

inductive TaskEvent
  | connected
  | connectFailed (elapsed : Nat)
  | connectTimedOut (elapsed : Nat)
  | forced (elapsed : Nat)
  | forward (event : ForwardEvent)
  /-- `forward_with_mode` has returned -/
  | settled (elapsed : Nat)
  | next

namespace Task

/-- The task goes into its last metrics calls, with what it will have reported. -/
def close (t : Task) (before : List MetricUpdate) (elapsed : Nat) (ending : Ending) :
    Task × Effect :=
  ({ t with phase := .closing
              (before ++ RelayMetrics.closed elapsed ending.reported.1 ending.reported.2),
            ending := some ending }, .none)

def step (settings : Settings) (force : Bool) (t : Task) : TaskEvent → Option (Task × Effect)
  | .connected =>
      match t.phase with
      | .connecting =>
          some ({ t with phase := .releasing [.globalConnecting, .perRelayConnecting t.relay] },
            .none)
      | _ => none
  | .connectFailed elapsed =>
      match t.phase with
      | .connecting => some (t.close RelayMetrics.upstreamFailure elapsed ⟨(0, 0), (0, 0)⟩)
      | _ => none
  | .connectTimedOut elapsed =>
      match t.phase with
      | .connecting => some (t.close RelayMetrics.upstreamTimeout elapsed ⟨(0, 0), (0, 0)⟩)
      | _ => none
  | .forced elapsed =>
      match t.phase with
      | .connecting => if force then some (t.close [] elapsed ⟨(0, 0), (0, 0)⟩) else none
      | .transferring forward =>
          if force = true ∧ forward.result = none then
            some (t.close [] elapsed ⟨(0, 0), forward.delivered⟩)
          else none
      | _ => none
  | .forward event =>
      match t.phase with
      | .transferring forward =>
          if forward.result = none then
            (forward.step event).map fun forward => ({ t with phase := .transferring forward }, .none)
          else none
      | _ => none
  | .settled elapsed =>
      match t.phase with
      | .transferring forward =>
          match forward.result with
          | none => none
          | some (.ok counts) => some (t.close [] elapsed ⟨counts, forward.delivered⟩)
          | some (.error error) =>
              some (t.close (if error.kind = .timedOut then RelayMetrics.idleTimeout else []) elapsed
                ⟨(0, 0), forward.delivered⟩)
      | _ => none
  | .next =>
      match t.phase with
      | .releasing (limit :: rest) =>
          if limit ∈ t.held then
            some ({ t with held := t.held.erase limit, phase := .releasing rest }, .release limit)
          else some ({ t with phase := .releasing rest }, .none)
      | .releasing [] =>
          settings.relays[t.relay]?.map fun spec =>
            ({ t with phase := .transferring (.start spec.forwardMode spec.idleTimeout) }, .none)
      | .closing (u :: updates) => some ({ t with phase := .closing updates }, .update u)
      | .closing [] => some ({ t with phase := .returning }, .none)
      | .returning =>
          match t.held with
          | limit :: held => some ({ t with held }, .release limit)
          | [] => none
      | _ => none

end Task

/-! ## The server -/

/-- One relay's listener and metrics, with the sockets it took from `accept` and those
it dropped because shutdown was cancelled. -/
structure BoundRelay where
  listener : Listener
  metrics : RelayMetrics
  taken : Nat
  dropped : Nat

structure ServerState where
  free : Limit → Nat
  relays : List BoundRelay
  tasks : List Task
  shutdown : Bool
  force : Bool

inductive ServerLabel
  | shutdown
  | forceShutdown
  | listener (relay : Nat) (event : ListenerEvent)
  | task (index : Nat) (event : TaskEvent)

namespace ServerState

/-- An effect of relay `relay`'s listener or of one of its tasks. -/
def perform (s : ServerState) (relay : Nat) : Effect → ServerState
  | .none => s
  | .acquire limit => { s with free := fun l => if l = limit then s.free l - 1 else s.free l }
  | .release limit => { s with free := fun l => if l = limit then s.free l + 1 else s.free l }
  | .update u =>
      { s with relays := s.relays.modify relay fun b => { b with metrics := b.metrics.apply u } }
  | .taken => { s with relays := s.relays.modify relay fun b => { b with taken := b.taken + 1 } }
  | .dropped =>
      { s with relays := s.relays.modify relay fun b => { b with dropped := b.dropped + 1 } }
  | .spawn held => { s with tasks := s.tasks ++ [⟨relay, held, .connecting, none⟩] }

def step (settings : Settings) (s : ServerState) : ServerLabel → Option ServerState
  | .shutdown => some { s with shutdown := true }
  | .forceShutdown => if s.shutdown then some { s with force := true } else none
  | .listener relay event =>
      match s.relays[relay]? with
      | none => none
      | some b =>
          (b.listener.step settings relay s.free s.shutdown s.force event).map fun after =>
            { s with relays := s.relays.set relay { b with listener := after.1 } }.perform relay after.2
  | .task index event =>
      match s.tasks[index]? with
      | none => none
      | some t =>
          (t.step settings s.force event).map fun after =>
            { s with tasks := s.tasks.set index after.1 }.perform t.relay after.2

/-- Every semaphore has its configured permits, every listener waits in `accept`. -/
def start (settings : Settings) : ServerState where
  free limit := (settings.limit limit).getD 0
  relays := settings.relays.map fun _ => ⟨.accepting, .new, 0, 0⟩
  tasks := []
  shutdown := false
  force := false

def machine (settings : Settings) : Machine ServerState ServerLabel :=
  ⟨fun s => s = start settings, step settings⟩

end ServerState

end Portrelay.Server
