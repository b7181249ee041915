/-
# Config.FileConfig -- the two front ends: settings from the command line and from a file

`ServeArgs` is what the command line gives, `FileConfig` what a TOML file gives; both after
their values are parsed, so durations and sizes are numbers.  `settings_from_cli` and
`settings_from_file` build `Settings` from them, field by field in the order of the source,
and check them.
-/
import Portrelay.Config.Settings

namespace Portrelay.Config

open Portrelay.Theory
open Portrelay.Relay (ForwardMode)

set_option autoImplicit false

/-! ## The options -/

structure ServeArgs where
  listen : Option Text
  target : Option Text
  config : Option Text
  connectTimeout : Option Nat
  idleTimeout : Option Nat
  shutdownTimeout : Option Nat
  maxConnections : Option Nat
  maxConnecting : Option Nat
  tcpKeepalive : Option Nat
  dnsRefresh : Option Nat
  socketBufferSize : Option Nat
  bufferSize : Option Nat
  bufferPoolSize : Option Nat
  connectionLogSampleRate : Option Nat
  forwardMode : Option Text
  reusePort : Bool
  metricsListen : Option Text
  metricsToken : Option Text
  metricsTlsCert : Option Text
  metricsTlsKey : Option Text
  logLevel : Option Text
  deriving DecidableEq, Repr

/-- No option is given. -/
def ServeArgs.none : ServeArgs :=
  { listen := .none, target := .none, config := .none, connectTimeout := .none,
    idleTimeout := .none, shutdownTimeout := .none, maxConnections := .none,
    maxConnecting := .none, tcpKeepalive := .none, dnsRefresh := .none, socketBufferSize := .none,
    bufferSize := .none, bufferPoolSize := .none, connectionLogSampleRate := .none,
    forwardMode := .none, reusePort := false, metricsListen := .none, metricsToken := .none,
    metricsTlsCert := .none, metricsTlsKey := .none, logLevel := .none }

structure GlobalFileConfig where
  logLevel : Option Text
  metricsListen : Option Text
  metricsBearerToken : Option Text
  metricsTlsCert : Option Text
  metricsTlsKey : Option Text
  connectTimeout : Option Nat
  idleTimeout : Option Nat
  shutdownTimeout : Option Nat
  maxConnections : Option Nat
  maxConnecting : Option Nat
  tcpKeepalive : Option Nat
  dnsRefresh : Option Nat
  socketBufferSize : Option Nat
  bufferSize : Option Nat
  bufferPoolSize : Option Nat
  connectionLogSampleRate : Option Nat
  forwardMode : Option Text
  reusePort : Bool
  deriving DecidableEq, Repr

structure RelayFileConfig where
  name : Option Text
  listen : Text
  target : Text
  connectTimeout : Option Nat
  idleTimeout : Option Nat
  maxConnections : Option Nat
  maxConnecting : Option Nat
  tcpKeepalive : Option Nat
  dnsRefresh : Option Nat
  socketBufferSize : Option Nat
  bufferSize : Option Nat
  forwardMode : Option Text
  deriving DecidableEq, Repr

structure FileConfig where
  global : GlobalFileConfig
  relay : List RelayFileConfig
  deriving DecidableEq, Repr

/-- A `[[relay]]` table with nothing but its name, where it listens and its target. -/
def RelayFileConfig.plain (name : Option Text) (listen target : Text) : RelayFileConfig :=
  { name, listen, target, connectTimeout := none, idleTimeout := none, maxConnections := none,
    maxConnecting := none, tcpKeepalive := none, dnsRefresh := none, socketBufferSize := none,
    bufferSize := none, forwardMode := none }

/-! ## Forward modes -/

/-- `ForwardMode::from_str` -/
def readForwardMode (value : Text) : Except ConfigError ForwardMode :=
  let other := (trim isWhitespace value).map Char.toLower
  if other = "auto".toList then .ok .auto
  else if other = "tokio".toList ∨ other = "copy".toList then .ok .tokio
  else if other = "splice".toList then .ok .splice
  else .error (.invalid
    [.words "forward_mode must be one of auto, tokio, or splice, got ", .debug other])

/-! ## From the command line -/

def required (value : Option Text) : Except ConfigError Text :=
  match value with
  | some value => .ok value
  | none => .error (.invalid [.words "--listen and --target are required without --config"])

def settingsFromCli (args : ServeArgs) : Except ConfigError Settings := do
  let listen ← required args.listen
  let target ← required args.target
  let forwardMode ← args.forwardMode.mapM readForwardMode
  let listen ← Endpoint.parse listen true true
  let target ← Endpoint.parse target false false
  let relay : RelaySpec :=
    { name := "default".toList, listen, target,
      connectTimeout := args.connectTimeout.getD DEFAULT_CONNECT_TIMEOUT,
      idleTimeout := args.idleTimeout, maxConnections := none, maxConnecting := none,
      tcpKeepalive := args.tcpKeepalive, dnsRefresh := args.dnsRefresh,
      socketBufferSize := args.socketBufferSize,
      bufferSize := args.bufferSize.getD DEFAULT_BUFFER_SIZE,
      forwardMode := forwardMode.getD .auto }
  let metricsListen ← args.metricsListen.mapM fun value => Endpoint.parse value true true
  let settings : Settings :=
    { logLevel := args.logLevel.getD "info".toList, metricsListen,
      metricsBearerToken := args.metricsToken, metricsTlsCert := args.metricsTlsCert,
      metricsTlsKey := args.metricsTlsKey,
      shutdownTimeout := args.shutdownTimeout.getD DEFAULT_SHUTDOWN_TIMEOUT,
      globalMaxConnections := args.maxConnections, globalMaxConnecting := args.maxConnecting,
      bufferPoolSize := args.bufferPoolSize.getD DEFAULT_BUFFER_POOL_SIZE,
      connectionLogSampleRate :=
        args.connectionLogSampleRate.getD DEFAULT_CONNECTION_LOG_SAMPLE_RATE,
      reusePort := args.reusePort, relays := [relay] }
  settings.validate
  return settings

/-! ## From a file -/

/-- `relay-1` and so on, by the position from 0. -/
def generatedName (index : Nat) : Text := "relay-".toList ++ Nat.toDigits 10 (index + 1)

/-- The name given to a relay, if it is not blank. -/
def explicitName (name : Option Text) : Option Text :=
  name.filter fun value => decide (trim isWhitespace value ≠ [])

def relayName (index : Nat) (name : Option Text) : Text :=
  (explicitName name).getD (generatedName index)

/-- The relay of one `[[relay]]` table, with the global options it falls back to. -/
def relayFromFile (global : GlobalFileConfig) (globalForwardMode : ForwardMode) (index : Nat)
    (relay : RelayFileConfig) : Except ConfigError RelaySpec := do
  let forwardMode ← relay.forwardMode.mapM readForwardMode
  let listen ← Endpoint.parse relay.listen true true
  let target ← Endpoint.parse relay.target false false
  return {
    name := relayName index relay.name
    listen
    target
    connectTimeout :=
      relay.connectTimeout.getD (global.connectTimeout.getD DEFAULT_CONNECT_TIMEOUT)
    idleTimeout := relay.idleTimeout.or global.idleTimeout
    maxConnections := relay.maxConnections
    maxConnecting := relay.maxConnecting
    tcpKeepalive := relay.tcpKeepalive.or global.tcpKeepalive
    dnsRefresh := relay.dnsRefresh.or global.dnsRefresh
    socketBufferSize := relay.socketBufferSize.or global.socketBufferSize
    bufferSize := relay.bufferSize.getD (global.bufferSize.getD DEFAULT_BUFFER_SIZE)
    forwardMode := forwardMode.getD globalForwardMode }

/-- The loop over the tables, from the position `index`. -/
def relaysFromFile (global : GlobalFileConfig) (globalForwardMode : ForwardMode) :
    (index : Nat) → List RelayFileConfig → Except ConfigError (List RelaySpec)
  | _, [] => .ok []
  | index, relay :: rest => do
      let spec ← relayFromFile global globalForwardMode index relay
      let specs ← relaysFromFile global globalForwardMode (index + 1) rest
      return spec :: specs

def settingsFromFile (file : FileConfig) (args : ServeArgs) : Except ConfigError Settings := do
  reject (file.relay = []) [.words "configuration must contain at least one [[relay]] entry"]
  let logLevel := (args.logLevel.or file.global.logLevel).getD "info".toList
  let overriding ← args.metricsListen.mapM fun value => Endpoint.parse value true true
  let configured ← file.global.metricsListen.mapM fun value => Endpoint.parse value true true
  let shutdownTimeout :=
    (args.shutdownTimeout.or file.global.shutdownTimeout).getD DEFAULT_SHUTDOWN_TIMEOUT
  let globalForwardMode ← file.global.forwardMode.mapM readForwardMode
  let relays ← relaysFromFile file.global (globalForwardMode.getD .auto) 0 file.relay
  let settings : Settings :=
    { logLevel, metricsListen := overriding.or configured,
      metricsBearerToken := file.global.metricsBearerToken,
      metricsTlsCert := file.global.metricsTlsCert, metricsTlsKey := file.global.metricsTlsKey,
      shutdownTimeout, globalMaxConnections := file.global.maxConnections,
      globalMaxConnecting := file.global.maxConnecting,
      bufferPoolSize := file.global.bufferPoolSize.getD DEFAULT_BUFFER_POOL_SIZE,
      connectionLogSampleRate :=
        file.global.connectionLogSampleRate.getD DEFAULT_CONNECTION_LOG_SAMPLE_RATE,
      reusePort := file.global.reusePort, relays }
  settings.validate
  return settings

end Portrelay.Config
