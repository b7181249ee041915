/-
# Config.Settings -- RelaySpec, Settings and Settings::validate, as compiled for Linux

The settings a server is bound with, and the check that `Server::bind` starts with.
Durations are in nanoseconds.

* `validate_ok_iff` -- what the check lets through, in the order of its tests (`Settings.Valid`).
-/
import Portrelay.Config.Endpoint
import Portrelay.Relay.Backend
import Portrelay.Theory.Guarded

namespace Portrelay.Config

open Portrelay.Theory
open Portrelay.Relay (ForwardMode)

set_option autoImplicit false

def DEFAULT_CONNECT_TIMEOUT : Nat := 10_000_000_000

def DEFAULT_SHUTDOWN_TIMEOUT : Nat := 30_000_000_000

def DEFAULT_BUFFER_SIZE : Nat := 16 * 1024

def DEFAULT_BUFFER_POOL_SIZE : Nat := 8 * 1024

def DEFAULT_CONNECTION_LOG_SAMPLE_RATE : Nat := 100

structure RelaySpec where
  name : Text
  listen : Endpoint
  target : Endpoint
  connectTimeout : Nat
  idleTimeout : Option Nat
  maxConnections : Option Nat
  maxConnecting : Option Nat
  tcpKeepalive : Option Nat
  dnsRefresh : Option Nat
  socketBufferSize : Option Nat
  bufferSize : Nat
  forwardMode : ForwardMode
  deriving DecidableEq

structure Settings where
  logLevel : Text
  metricsListen : Option Endpoint
  metricsBearerToken : Option Text
  metricsTlsCert : Option Text
  metricsTlsKey : Option Text
  shutdownTimeout : Nat
  globalMaxConnections : Option Nat
  globalMaxConnecting : Option Nat
  bufferPoolSize : Nat
  connectionLogSampleRate : Nat
  reusePort : Bool
  relays : List RelaySpec
  deriving DecidableEq

/-! ## The check -/

/-- `if bad { return Err(..) }` -/
def reject (bad : Prop) [Decidable bad] (message : Message) : Except ConfigError Unit :=
  if bad then .error (.invalid message) else .ok ()

def validateLimit (value : Option Nat) (name : Message) : Except ConfigError Unit :=
  reject (value = some 0) (name ++ [.words " must be greater than zero"])

namespace RelaySpec

/-- `"relay {name:?} {field}"` -/
def field (relay : RelaySpec) (name : String) : Message :=
  [.words "relay ", .debug relay.name, .words " ", .words name]

/-- The tests of one relay behind those for duplicates. -/
def validate (relay : RelaySpec) : Except ConfigError Unit := do
  reject (relay.connectTimeout = 0)
    (relay.field "connect_timeout" ++ [.words " must be greater than zero"])
  reject (relay.idleTimeout = some 0)
    (relay.field "idle_timeout" ++ [.words " must be greater than zero"])
  reject (relay.tcpKeepalive = some 0)
    (relay.field "tcp_keepalive" ++ [.words " must be greater than zero"])
  validateLimit relay.maxConnections (relay.field "max_connections")
  validateLimit relay.maxConnecting (relay.field "max_connecting")
  reject (relay.dnsRefresh = some 0)
    (relay.field "dns_refresh" ++ [.words " must be greater than zero"])
  reject (relay.socketBufferSize = some 0)
    (relay.field "socket_buffer_size" ++ [.words " must be greater than zero"])
  reject (relay.bufferSize = 0)
    (relay.field "buffer_size" ++ [.words " must be greater than zero"])

end RelaySpec

/-- The loop over the relays, with the names and listeners it has inserted. -/
def validateRelays (names listeners : List Text) : List RelaySpec → Except ConfigError Unit
  | [] => .ok ()
  | relay :: rest => do
      reject (trim isWhitespace relay.name = []) [.words "relay name cannot be empty"]
      reject (relay.name ∈ names) [.words "duplicate relay name ", .debug relay.name]
      reject (relay.listen.port ≠ 0 ∧ relay.listen.address ∈ listeners)
        [.words "duplicate listener address ", .debug relay.listen.address]
      relay.validate
      validateRelays (relay.name :: names)
        (if relay.listen.port ≠ 0 then relay.listen.address :: listeners else listeners) rest

namespace Settings

def validate (settings : Settings) : Except ConfigError Unit := do
  reject (settings.relays = []) [.words "at least one relay mapping is required"]
  reject (settings.shutdownTimeout = 0) [.words "shutdown_timeout must be greater than zero"]
  validateLimit settings.globalMaxConnections [.words "global max_connections"]
  validateLimit settings.globalMaxConnecting [.words "global max_connecting"]
  reject (settings.bufferPoolSize < 2 ∨ settings.bufferPoolSize % 2 ≠ 0)
    [.words "buffer_pool_size must be an even number of at least 2"]
  reject (settings.connectionLogSampleRate = 0)
    [.words "connection_log_sample_rate must be greater than zero"]
  reject (settings.metricsTlsCert.isSome ≠ settings.metricsTlsKey.isSome)
    [.words "metrics_tls_cert and metrics_tls_key must be configured together"]
  reject ((settings.metricsTlsCert.isSome ∨ settings.metricsTlsKey.isSome) ∧
      settings.metricsListen.isNone)
    [.words "metrics TLS requires metrics_listen"]
  reject (settings.metricsBearerToken = some []) [.words "metrics_bearer_token cannot be empty"]
  validateRelays [] [] settings.relays

/-- `Settings::single` -/
def single (listen target : Text) : Except ConfigError Settings := do
  let listen ← Endpoint.parse listen true true
  let target ← Endpoint.parse target false false
  let relay : RelaySpec :=
    { name := "default".toList, listen, target, connectTimeout := DEFAULT_CONNECT_TIMEOUT,
      idleTimeout := none, maxConnections := none, maxConnecting := none, tcpKeepalive := none,
      dnsRefresh := none, socketBufferSize := none, bufferSize := DEFAULT_BUFFER_SIZE,
      forwardMode := .auto }
  let settings : Settings :=
    { logLevel := "info".toList, metricsListen := none, metricsBearerToken := none,
      metricsTlsCert := none, metricsTlsKey := none, shutdownTimeout := DEFAULT_SHUTDOWN_TIMEOUT,
      globalMaxConnections := none, globalMaxConnecting := none,
      bufferPoolSize := DEFAULT_BUFFER_POOL_SIZE,
      connectionLogSampleRate := DEFAULT_CONNECTION_LOG_SAMPLE_RATE, reusePort := false,
      relays := [relay] }
  settings.validate
  return settings

end Settings

/-! ## What it lets through -/

structure RelaySpec.Valid (relay : RelaySpec) : Prop where
  connect : relay.connectTimeout ≠ 0
  idle : relay.idleTimeout ≠ some 0
  keepalive : relay.tcpKeepalive ≠ some 0
  connections : relay.maxConnections ≠ some 0
  connecting : relay.maxConnecting ≠ some 0
  refresh : relay.dnsRefresh ≠ some 0
  socket : relay.socketBufferSize ≠ some 0
  buffer : relay.bufferSize ≠ 0

/-- The addresses the check compares: those with a port of their own. -/
def fixedListeners (relays : List RelaySpec) : List Text :=
  (relays.filter fun relay => relay.listen.port ≠ 0).map fun relay => relay.listen.address

structure Settings.Valid (settings : Settings) : Prop where
  relay : settings.relays ≠ []
  shutdown : settings.shutdownTimeout ≠ 0
  connections : settings.globalMaxConnections ≠ some 0
  connecting : settings.globalMaxConnecting ≠ some 0
  pool : 2 ≤ settings.bufferPoolSize ∧ settings.bufferPoolSize % 2 = 0
  sampling : settings.connectionLogSampleRate ≠ 0
  together : settings.metricsTlsCert.isSome = settings.metricsTlsKey.isSome
  tls : settings.metricsTlsCert.isSome ∨ settings.metricsTlsKey.isSome →
    settings.metricsListen ≠ none
  token : settings.metricsBearerToken ≠ some []
  named : ∀ relay ∈ settings.relays, trim isWhitespace relay.name ≠ []
  names : (settings.relays.map RelaySpec.name).Nodup
  listeners : (fixedListeners settings.relays).Nodup
  relays : ∀ relay ∈ settings.relays, relay.Valid

theorem reject_ok_iff {bad : Prop} [Decidable bad] (message : Message) :
    reject bad message = .ok () ↔ ¬ bad := by
  unfold reject
  split
  · rename_i holds
    exact iff_of_false (fun impossible => by cases impossible) (not_not_intro holds)
  · rename_i no
    exact iff_of_true rfl no

theorem RelaySpec.validate_ok_iff (relay : RelaySpec) : relay.validate = .ok () ↔ relay.Valid := by
  simp only [validate, validateLimit, then_ok_iff, reject_ok_iff]
  exact ⟨fun ⟨h₁, h₂, h₃, h₄, h₅, h₆, h₇, h₈⟩ => ⟨h₁, h₂, h₃, h₄, h₅, h₆, h₇, h₈⟩,
    fun ⟨h₁, h₂, h₃, h₄, h₅, h₆, h₇, h₈⟩ => ⟨h₁, h₂, h₃, h₄, h₅, h₆, h₇, h₈⟩⟩

theorem fixedListeners_cons (relay : RelaySpec) (rest : List RelaySpec) :
    fixedListeners (relay :: rest) =
      if relay.listen.port ≠ 0 then relay.listen.address :: fixedListeners rest
      else fixedListeners rest := by
  unfold fixedListeners
  by_cases fixed : relay.listen.port ≠ 0
  · rw [if_pos fixed, List.filter_cons_of_pos (by simpa using fixed), List.map_cons]
  · rw [if_neg fixed, List.filter_cons_of_neg (by simpa using fixed)]

/-- The loop refuses what is repeated, among the relays or from what it was started with. -/
theorem validateRelays_ok_iff (names listeners : List Text) (relays : List RelaySpec) :
    validateRelays names listeners relays = .ok () ↔
      (∀ relay ∈ relays, trim isWhitespace relay.name ≠ []) ∧
      ((∀ relay ∈ relays, relay.name ∉ names) ∧ (relays.map RelaySpec.name).Nodup) ∧
      ((∀ address ∈ fixedListeners relays, address ∉ listeners) ∧ (fixedListeners relays).Nodup) ∧
      ∀ relay ∈ relays, relay.Valid := by
  induction relays generalizing names listeners with
  | nil => simp [validateRelays, fixedListeners]
  | cons relay rest ih =>
      have named : (∀ other ∈ rest, other.name ∉ relay.name :: names) ↔
          (∀ other ∈ rest, other.name ∉ names) ∧ relay.name ∉ rest.map RelaySpec.name := by
        grind
      simp only [validateRelays, then_ok_iff, reject_ok_iff, RelaySpec.validate_ok_iff, ih, named,
        fixedListeners_cons, List.forall_mem_cons, List.map_cons, List.nodup_cons]
      by_cases fixed : relay.listen.port ≠ 0
      · have listening : (∀ address ∈ fixedListeners rest,
            address ∉ relay.listen.address :: listeners) ↔
            (∀ address ∈ fixedListeners rest, address ∉ listeners) ∧
              relay.listen.address ∉ fixedListeners rest := by
          grind
        simp only [if_pos fixed, listening, List.forall_mem_cons, List.nodup_cons]
        tauto
      · simp only [fixed, false_and, not_false_iff, true_and]
        tauto

theorem Settings.validate_ok_iff (settings : Settings) :
    settings.validate = .ok () ↔ settings.Valid := by
  simp only [validate, validateLimit, then_ok_iff, reject_ok_iff, validateRelays_ok_iff,
    List.not_mem_nil, not_false_eq_true, implies_true, true_and]
  constructor
  · rintro ⟨relay, shutdown, connections, connecting, pool, sampling, together, tls, token, named,
      names, listeners, relays⟩
    exact ⟨relay, shutdown, connections, connecting, by omega, sampling, by simpa using together,
      by simpa using tls, token, named, names, listeners, relays⟩
  · rintro ⟨relay, shutdown, connections, connecting, pool, sampling, together, tls, token, named,
      names, listeners, relays⟩
    exact ⟨relay, shutdown, connections, connecting, by omega, sampling, by simpa using together,
      by simpa using tls, token, named, names, listeners, relays⟩

end Portrelay.Config
