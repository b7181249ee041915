/-
# Server.Bind -- Server::bind, from settings to semaphores

What `Server::bind` of `src/server.rs` makes of its settings: the listeners that could be
bound, and with each its semaphores and its buffer pool.  A `tokio::sync::Semaphore` holds at
most `MAX_PERMITS` permits and its constructor panics above that.

* `never_panics_iff` -- bind panics in no environment, if and only if every limit fits.
* `bind_made` -- the sockets it opens are endpoints of the settings, in their order.
* `bind_limit` -- the semaphores have the permits admission starts with.
-/
import Portrelay.Config.Listeners
import Portrelay.Relay.BufferPool
import Portrelay.Server.Admission
import Portrelay.Theory.Guarded

namespace Portrelay.Binding

open Portrelay.Theory Portrelay.Relay Portrelay.Config

set_option autoImplicit false

/-- `usize::MAX >> 3` of a 64-bit platform -/
def MAX_PERMITS : Nat := (2 ^ 64 - 1) >>> 3

structure Semaphore where
  permits : Nat
  le : permits ≤ MAX_PERMITS

inductive BindError
  | invalid (error : ConfigError)
  | metricsTls
  | localAddr
  | noListeners
  deriving DecidableEq, Repr

/-- Why there is no server: an error, or a panic. -/
inductive Stop
  | failed (error : BindError)
  | panicked
  deriving DecidableEq, Repr

def Semaphore.new (permits : Nat) : Except Stop Semaphore :=
  if le : permits ≤ MAX_PERMITS then .ok ⟨permits, le⟩ else .error .panicked

/-- A limit that may not be configured. -/
def newLimit : Option Nat → Except Stop (Option Semaphore)
  | none => .ok none
  | some limit => (Semaphore.new limit).map some

/-- `BufferPool::new`, with its debug assertions. -/
def newBufferPool (bufferSize bufferCount : Nat) : Except Stop BufferPool :=
  if 0 < bufferSize ∧ 2 ≤ bufferCount then
    (Semaphore.new bufferCount).map fun permits => ⟨bufferSize, [], permits.permits, []⟩
  else .error .panicked

structure BoundRelay where
  spec : Config.RelaySpec
  bufferPool : BufferPool
  perRelayLimit : Option Semaphore
  globalLimit : Option Semaphore
  perRelayConnecting : Option Semaphore
  globalConnecting : Option Semaphore
  connectionLogSampleRate : Nat

structure Server where
  shutdownTimeout : Nat
  relays : List BoundRelay
  metricsListener : Option Endpoint
  metricsTls : Bool
  metricsBearerToken : Option Text

/-- How a call of `bind_listener` ends: with an error, or with a listener that has its local
address or has none. -/
inductive Listening
  | refused
  | bound
  | unnamed
  deriving DecidableEq, Repr

/-- What bind meets: whether the TLS acceptor can be built from two files, and how each call
of `bind_listener` ends. -/
structure Environment where
  metricsTls : Text → Text → Bool
  listen : Nat → Listening

def buildMetricsTlsAcceptor (env : Environment) : Option Text → Option Text → Except Stop Bool
  | some cert, some key => if env.metricsTls cert key then .ok true else .error (.failed .metricsTls)
  | _, _ => .ok false

def bindRelay (settings : Config.Settings) (globalLimit globalConnecting : Option Semaphore)
    (spec : Config.RelaySpec) : Except Stop BoundRelay := do
  let bufferPool ← newBufferPool spec.bufferSize settings.bufferPoolSize
  let perRelayLimit ← newLimit spec.maxConnections
  let perRelayConnecting ← newLimit spec.maxConnecting
  return { spec, bufferPool, perRelayLimit, globalLimit, perRelayConnecting, globalConnecting,
           connectionLogSampleRate := settings.connectionLogSampleRate }

/-- The loop over the relays; a relay whose listener is refused is skipped. -/
def bindRelays (env : Environment) (settings : Config.Settings)
    (globalLimit globalConnecting : Option Semaphore) :
    Nat → List Config.RelaySpec → Except Stop (List BoundRelay)
  | _, [] => .ok []
  | call, spec :: rest =>
      match env.listen call with
      | .refused => bindRelays env settings globalLimit globalConnecting (call + 1) rest
      | .unnamed => .error (.failed .localAddr)
      | .bound => do
          let relay ← bindRelay settings globalLimit globalConnecting spec
          let relays ← bindRelays env settings globalLimit globalConnecting (call + 1) rest
          return relay :: relays

def bindMetrics (env : Environment) (call : Nat) : Option Endpoint → Except Stop (Option Endpoint)
  | none => .ok none
  | some endpoint =>
      match env.listen call with
      | .refused => .ok none
      | .unnamed => .error (.failed .localAddr)
      | .bound => .ok (some endpoint)

def Server.bind (env : Environment) (settings : Config.Settings) : Except Stop Server := do
  settings.validate.mapError fun error => .failed (.invalid error)
  let metricsTls ← buildMetricsTlsAcceptor env settings.metricsTlsCert settings.metricsTlsKey
  let globalLimit ← newLimit settings.globalMaxConnections
  let globalConnecting ← newLimit settings.globalMaxConnecting
  let relays ← bindRelays env settings globalLimit globalConnecting 0 settings.relays
  if relays.isEmpty then .error (.failed .noListeners)
  else do
    let metricsListener ← bindMetrics env settings.relays.length settings.metricsListen
    return { shutdownTimeout := settings.shutdownTimeout, relays, metricsListener, metricsTls,
             metricsBearerToken := settings.metricsBearerToken }

/-! ## Panics -/

def FitsLimit (limit : Option Nat) : Prop := ∀ permits ∈ limit, permits ≤ MAX_PERMITS

/-- Every number of permits the settings ask for is one a semaphore can have. -/
structure Fits (settings : Config.Settings) : Prop where
  connections : FitsLimit settings.globalMaxConnections
  connecting : FitsLimit settings.globalMaxConnecting
  pool : settings.bufferPoolSize ≤ MAX_PERMITS
  relays : ∀ relay ∈ settings.relays,
    FitsLimit relay.maxConnections ∧ FitsLimit relay.maxConnecting

theorem semaphore_guarded (permits : Nat) :
    Guarded .panicked (Semaphore.new permits) (permits ≤ MAX_PERMITS) := by
  unfold Semaphore.new
  split
  · rename_i le
    exact Or.inl ⟨le, _, rfl⟩
  · rename_i more
    exact Or.inr ⟨more, rfl⟩

theorem newLimit_guarded (limit : Option Nat) : Guarded .panicked (newLimit limit) (FitsLimit limit) := by
  cases limit with
  | none => exact Or.inl ⟨fun _ member => (Option.not_mem_none _ member).elim, none, rfl⟩
  | some permits =>
      have fits : FitsLimit (some permits) ↔ permits ≤ MAX_PERMITS := by
        simp only [FitsLimit, Option.mem_def, Option.some.injEq, forall_eq']
      rw [fits]
      exact (semaphore_guarded permits).map some

/-- What bind asks of the limits of one relay. -/
def FitsRelay (settings : Config.Settings) (spec : Config.RelaySpec) : Prop :=
  settings.bufferPoolSize ≤ MAX_PERMITS ∧ FitsLimit spec.maxConnections ∧
    FitsLimit spec.maxConnecting

section Accepted

variable {settings : Config.Settings} (valid : settings.Valid)
  (globalLimit globalConnecting : Option Semaphore)

include valid

/-- The assertions of a pool hold of accepted settings. -/
theorem newBufferPool_guarded {spec : Config.RelaySpec} (member : spec ∈ settings.relays) :
    Guarded .panicked (newBufferPool spec.bufferSize settings.bufferPoolSize)
      (settings.bufferPoolSize ≤ MAX_PERMITS) := by
  have size := (valid.relays spec member).buffer
  have asserted : 0 < spec.bufferSize ∧ 2 ≤ settings.bufferPoolSize :=
    ⟨Nat.pos_of_ne_zero size, valid.pool.1⟩
  rw [newBufferPool, if_pos asserted]
  exact (semaphore_guarded _).map _

theorem bindRelay_guarded {spec : Config.RelaySpec} (member : spec ∈ settings.relays) :
    Guarded .panicked (bindRelay settings globalLimit globalConnecting spec) (FitsRelay settings spec) := by
  refine (newBufferPool_guarded valid member).bind fun bufferPool => ?_
  refine (newLimit_guarded spec.maxConnections).bind fun perRelayLimit => ?_
  exact (newLimit_guarded spec.maxConnecting).returns _

/-- Where every listener is bound, every relay's limits are tried. -/
theorem bindRelays_guarded {env : Environment} (listens : ∀ call, env.listen call = .bound)
    (specs : List Config.RelaySpec) (members : ∀ spec ∈ specs, spec ∈ settings.relays) (call : Nat) :
    Guarded .panicked (bindRelays env settings globalLimit globalConnecting call specs)
      (∀ spec ∈ specs, FitsRelay settings spec) := by
  induction specs generalizing call with
  | nil => exact Or.inl ⟨fun _ member => (List.not_mem_nil member).elim, [], rfl⟩
  | cons spec rest ih =>
      have here := bindRelay_guarded valid globalLimit globalConnecting
        (members spec List.mem_cons_self)
      have later := ih (fun other member => members other (List.mem_cons_of_mem _ member)) (call + 1)
      rw [List.forall_mem_cons, bindRelays, listens call]
      exact here.bind fun relay => later.returns _

theorem bindRelays_ne_panicked (env : Environment) {specs : List Config.RelaySpec}
    (members : ∀ spec ∈ specs, spec ∈ settings.relays)
    (fits : ∀ spec ∈ specs, FitsRelay settings spec) (call : Nat) :
    bindRelays env settings globalLimit globalConnecting call specs ≠ .error .panicked := by
  induction specs generalizing call with
  | nil => exact ok_ne_error [] _
  | cons spec rest ih =>
      rw [List.forall_mem_cons] at members fits
      have later := ih members.2 fits.2 (call + 1)
      rw [bindRelays]
      cases env.listen call with
      | refused => exact later
      | unnamed => exact fun impossible => by cases impossible
      | bound =>
          have here := bindRelay_guarded valid globalLimit globalConnecting members.1
          refine bind_ne_error (here.ne_error fits.1) fun relay => ?_
          exact bind_ne_error later fun relays => ok_ne_error (relay :: relays) _

end Accepted

theorem tls_ne_panicked (env : Environment) (cert key : Option Text) :
    buildMetricsTlsAcceptor env cert key ≠ .error .panicked := by
  unfold buildMetricsTlsAcceptor
  split
  · split
    · exact fun impossible => by cases impossible
    · exact fun impossible => by cases impossible
  · exact fun impossible => by cases impossible

theorem bindMetrics_ne_panicked (env : Environment) (call : Nat) (endpoint : Option Endpoint) :
    bindMetrics env call endpoint ≠ .error .panicked := by
  unfold bindMetrics
  split
  · exact fun impossible => by cases impossible
  · split
    all_goals exact fun impossible => by cases impossible

/-- Every file can be read, and every listener be bound. -/
def permissive : Environment := ⟨fun _ _ => true, fun _ => .bound⟩

theorem tls_permissive (cert key : Option Text) :
    ∃ tls, buildMetricsTlsAcceptor permissive cert key = .ok tls := by
  unfold buildMetricsTlsAcceptor
  split
  · exact ⟨true, rfl⟩
  · exact ⟨false, rfl⟩

/-- Accepted settings never make bind panic, whatever it meets, if and only if no limit is
above what a semaphore can hold. -/
theorem never_panics_iff (settings : Config.Settings) (accepted : settings.validate = .ok ()) :
    (∀ env, Server.bind env settings ≠ .error .panicked) ↔ Fits settings := by
  have valid := settings.validate_ok_iff.mp accepted
  constructor
  · intro safe
    have run := safe permissive
    obtain ⟨tls, built⟩ := tls_permissive settings.metricsTlsCert settings.metricsTlsKey
    rw [Server.bind, accepted, built] at run
    obtain ⟨connections, globalLimit, run⟩ := (newLimit_guarded _).of_bind run
    obtain ⟨connecting, globalConnecting, run⟩ := (newLimit_guarded _).of_bind run
    have listens : ∀ call, permissive.listen call = .bound := fun _ => rfl
    have guarded := bindRelays_guarded valid globalLimit globalConnecting listens settings.relays
      (fun _ member => member) 0
    obtain ⟨relays, -⟩ := guarded.of_bind run
    obtain ⟨first, member⟩ := List.exists_mem_of_ne_nil _ valid.relay
    exact ⟨connections, connecting, (relays first member).1, fun relay member => (relays relay member).2⟩
  · intro fits env
    have relays : ∀ spec ∈ settings.relays, FitsRelay settings spec :=
      fun spec member => ⟨fits.pool, fits.relays spec member⟩
    rw [Server.bind, accepted]
    refine bind_ne_error (ok_ne_error () _) fun _ => ?_
    refine bind_ne_error (tls_ne_panicked _ _ _) fun tls => ?_
    refine bind_ne_error ((newLimit_guarded _).ne_error fits.connections) fun globalLimit => ?_
    refine bind_ne_error ((newLimit_guarded _).ne_error fits.connecting)
      fun globalConnecting => ?_
    refine bind_ne_error (bindRelays_ne_panicked valid globalLimit globalConnecting env
      (fun _ member => member) relays 0) fun bound => ?_
    split
    · exact fun impossible => by cases impossible
    · refine bind_ne_error (bindMetrics_ne_panicked _ _ _) fun metrics => ?_
      exact ok_ne_error _ _

theorem never_panics_iff_default :
    (∀ env, Server.bind env (serveSettings 8080 none) ≠ .error .panicked) ↔
      Fits (serveSettings 8080 none) :=
  never_panics_iff (serveSettings 8080 none) (by decide)

/-- `--max-connections 2305843009213693952`, one more than a semaphore can hold. -/
theorem large_limit_panics :
    ({ serveSettings 8080 none with globalMaxConnections := some (2 ^ 61) } : Config.Settings).validate
        = .ok () ∧
      Server.bind permissive
        { serveSettings 8080 none with globalMaxConnections := some (2 ^ 61) } =
          .error .panicked := by
  constructor
  · decide
  · rfl

/-! ## What is bound -/

/-- The endpoints listened on. -/
def Server.sockets (server : Server) : List Endpoint :=
  server.relays.map (fun relay => relay.spec.listen) ++ server.metricsListener.toList

/-- A relay has what the settings say of it. -/
structure BoundRelay.Made (settings : Config.Settings) (relay : BoundRelay) : Prop where
  pool : relay.bufferPool = ⟨relay.spec.bufferSize, [], settings.bufferPoolSize, []⟩
  perRelayLimit : relay.perRelayLimit.map Semaphore.permits = relay.spec.maxConnections
  globalLimit : relay.globalLimit.map Semaphore.permits = settings.globalMaxConnections
  perRelayConnecting : relay.perRelayConnecting.map Semaphore.permits = relay.spec.maxConnecting
  globalConnecting : relay.globalConnecting.map Semaphore.permits = settings.globalMaxConnecting

theorem semaphore_permits {permits : Nat} {semaphore : Semaphore}
    (run : Semaphore.new permits = .ok semaphore) : semaphore.permits = permits := by
  unfold Semaphore.new at run
  split at run
  · rw [← Except.ok.inj run]
  · cases run

theorem newLimit_permits {limit : Option Nat} {semaphore : Option Semaphore}
    (run : newLimit limit = .ok semaphore) : semaphore.map Semaphore.permits = limit := by
  cases limit with
  | none =>
      obtain rfl := Except.ok.inj run
      rfl
  | some permits =>
      obtain ⟨one, made, rfl⟩ := of_map_ok run
      rw [Option.map_some, semaphore_permits made]

theorem newBufferPool_eq {bufferSize bufferCount : Nat} {pool : BufferPool}
    (run : newBufferPool bufferSize bufferCount = .ok pool) :
    pool = ⟨bufferSize, [], bufferCount, []⟩ := by
  unfold newBufferPool at run
  split at run
  · obtain ⟨permits, made, rfl⟩ := of_map_ok run
    simp only [semaphore_permits made]
  · cases run

section Made

variable {settings : Config.Settings} {globalLimit globalConnecting : Option Semaphore}

theorem bindRelay_made (limit : globalLimit.map Semaphore.permits = settings.globalMaxConnections)
    (connecting : globalConnecting.map Semaphore.permits = settings.globalMaxConnecting)
    {spec : Config.RelaySpec} {relay : BoundRelay}
    (run : bindRelay settings globalLimit globalConnecting spec = .ok relay) :
    relay.spec = spec ∧ relay.Made settings := by
  obtain ⟨pool, pooled, run⟩ := of_bind_ok run
  obtain ⟨perRelayLimit, limited, run⟩ := of_bind_ok run
  obtain ⟨perRelayConnecting, limited', run⟩ := of_bind_ok run
  obtain rfl := Except.ok.inj run
  exact ⟨rfl, newBufferPool_eq pooled, newLimit_permits limited, limit, newLimit_permits limited',
    connecting⟩

theorem bindRelays_made (limit : globalLimit.map Semaphore.permits = settings.globalMaxConnections)
    (connecting : globalConnecting.map Semaphore.permits = settings.globalMaxConnecting)
    (env : Environment) {specs : List Config.RelaySpec} {call : Nat} {relays : List BoundRelay}
    (run : bindRelays env settings globalLimit globalConnecting call specs = .ok relays) :
    (relays.map BoundRelay.spec).Sublist specs ∧ ∀ relay ∈ relays, relay.Made settings := by
  induction specs generalizing call relays with
  | nil =>
      obtain rfl := Except.ok.inj run
      exact ⟨List.Sublist.slnil, fun _ member => (List.not_mem_nil member).elim⟩
  | cons spec rest ih =>
      rw [bindRelays] at run
      cases listens : env.listen call with
      | refused =>
          rw [listens] at run
          exact ⟨(ih run).1.cons spec, (ih run).2⟩
      | unnamed => rw [listens] at run; cases run
      | bound =>
          rw [listens] at run
          obtain ⟨relay, first, run⟩ := of_bind_ok run
          obtain ⟨others, later, run⟩ := of_bind_ok run
          obtain rfl := Except.ok.inj run
          obtain ⟨same, made⟩ := bindRelay_made limit connecting first
          obtain ⟨within, all⟩ := ih later
          refine ⟨?_, List.forall_mem_cons.mpr ⟨made, all⟩⟩
          rw [List.map_cons, same]
          exact within.cons_cons spec

end Made

theorem bindMetrics_sublist {env : Environment} {call : Nat} {endpoint bound : Option Endpoint}
    (run : bindMetrics env call endpoint = .ok bound) : bound.toList.Sublist endpoint.toList := by
  cases endpoint with
  | none =>
      obtain rfl := Except.ok.inj run
      exact List.Sublist.slnil
  | some endpoint =>
      rw [bindMetrics] at run
      split at run
      · obtain rfl := Except.ok.inj run
        exact List.nil_sublist _
      · cases run
      · obtain rfl := Except.ok.inj run
        exact List.Sublist.refl _

theorem bind_made {env : Environment} {settings : Config.Settings} {server : Server}
    (run : Server.bind env settings = .ok server) :
    server.sockets.Sublist settings.listening ∧ server.relays ≠ [] ∧
      ∀ relay ∈ server.relays, relay.Made settings := by
  obtain ⟨_, -, run⟩ := of_bind_ok run
  obtain ⟨tls, -, run⟩ := of_bind_ok run
  obtain ⟨globalLimit, limit, run⟩ := of_bind_ok run
  obtain ⟨globalConnecting, connecting, run⟩ := of_bind_ok run
  obtain ⟨relays, bound, run⟩ := of_bind_ok run
  have made := bindRelays_made (newLimit_permits limit) (newLimit_permits connecting) env bound
  split at run
  · cases run
  · rename_i some_
    obtain ⟨metrics, listened, run⟩ := of_bind_ok run
    obtain rfl := Except.ok.inj run
    refine ⟨?_, fun none_ => some_ (List.isEmpty_iff.mpr none_), made.2⟩
    have specs := made.1.map Config.RelaySpec.listen
    rw [List.map_map] at specs
    exact specs.append (bindMetrics_sublist listened)

/-! ## What admission reads of it -/

/-- The semaphore behind a limit; the relays share the global ones. -/
def Server.semaphore (server : Server) : Portrelay.Server.Limit → Option Semaphore
  | .globalLimit => server.relays.head?.bind BoundRelay.globalLimit
  | .perRelayLimit relay => server.relays[relay]?.bind BoundRelay.perRelayLimit
  | .globalConnecting => server.relays.head?.bind BoundRelay.globalConnecting
  | .perRelayConnecting relay => server.relays[relay]?.bind BoundRelay.perRelayConnecting

/-- A relay as its listener and its connections see it. -/
def admissionSpec (spec : Config.RelaySpec) : Portrelay.Server.RelaySpec where
  maxConnections := spec.maxConnections
  maxConnecting := spec.maxConnecting
  forwardMode := spec.forwardMode
  idleTimeout := spec.idleTimeout.bind fun nanos => if pos : 0 < nanos then some ⟨nanos, pos⟩ else none

def Server.admission (settings : Config.Settings) (server : Server) : Portrelay.Server.Settings where
  globalMaxConnections := settings.globalMaxConnections
  globalMaxConnecting := settings.globalMaxConnecting
  relays := server.relays.map fun relay => admissionSpec relay.spec

/-- The semaphores of a bound server have the permits that its admission starts with. -/
theorem bind_limit {env : Environment} {settings : Config.Settings} {server : Server}
    (run : Server.bind env settings = .ok server) (limit : Portrelay.Server.Limit) :
    (server.semaphore limit).map Semaphore.permits = (server.admission settings).limit limit := by
  obtain ⟨-, some_, made⟩ := bind_made run
  obtain ⟨first, rest, relays⟩ := List.exists_cons_of_ne_nil some_
  have shared := made first (relays ▸ List.mem_cons_self)
  have each : ∀ (relay : Nat) (semaphore : BoundRelay → Option Semaphore)
      (configured : Portrelay.Server.RelaySpec → Option Nat),
      (∀ bound ∈ server.relays, (semaphore bound).map Semaphore.permits =
        configured (admissionSpec bound.spec)) →
      (server.relays[relay]?.bind semaphore).map Semaphore.permits =
        (server.admission settings).relays[relay]?.bind configured := by
    intro relay semaphore configured same
    rw [Server.admission, List.getElem?_map]
    cases found : server.relays[relay]? with
    | none => rfl
    | some bound => exact same bound (List.mem_of_getElem? found)
  cases limit with
  | globalLimit =>
      rw [Server.semaphore, relays]
      exact shared.globalLimit
  | perRelayLimit relay =>
      exact each relay _ _ fun bound member => (made bound member).perRelayLimit
  | globalConnecting =>
      rw [Server.semaphore, relays]
      exact shared.globalConnecting
  | perRelayConnecting relay =>
      exact each relay _ _ fun bound member => (made bound member).perRelayConnecting

end Portrelay.Binding
