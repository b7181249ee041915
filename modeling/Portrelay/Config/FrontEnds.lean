/-
# Config.FrontEnds -- the command line and a file with the same options

`settings_from_cli` and `settings_from_file` go different ways to the same `Settings`: a
default inlined where the file falls back from its relay to its global table, an override
before a global value.

* `front_ends_agree` -- both fail, or both give the same settings, wherever the three
  options that the command line may override are given.
-/
import Portrelay.Config.FileConfig

namespace Portrelay.Config

open Portrelay.Theory
open Portrelay.Relay (ForwardMode)

set_option autoImplicit false

/-- Which of the options that can be given beside a file are. -/
structure Moved where
  logLevel : Bool
  metricsListen : Bool
  shutdownTimeout : Bool

/-- The option on one side of `moved`. -/
def keep {α : Type} (here : Bool) (value : Option α) : Option α := if here then value else none

theorem keep_or {α : Type} (moved : Bool) (value : Option α) :
    (keep moved value).or (keep (!moved) value) = value := by
  cases moved with
  | false => rfl
  | true => exact Option.or_none

namespace ServeArgs

/-- The `[global]` table with these options, but for those that are moved. -/
def globalTable (args : ServeArgs) (moved : Moved) : GlobalFileConfig :=
  { logLevel := keep (!moved.logLevel) args.logLevel
    metricsListen := keep (!moved.metricsListen) args.metricsListen
    metricsBearerToken := args.metricsToken
    metricsTlsCert := args.metricsTlsCert
    metricsTlsKey := args.metricsTlsKey
    connectTimeout := args.connectTimeout
    idleTimeout := args.idleTimeout
    shutdownTimeout := keep (!moved.shutdownTimeout) args.shutdownTimeout
    maxConnections := args.maxConnections
    maxConnecting := args.maxConnecting
    tcpKeepalive := args.tcpKeepalive
    dnsRefresh := args.dnsRefresh
    socketBufferSize := args.socketBufferSize
    bufferSize := args.bufferSize
    bufferPoolSize := args.bufferPoolSize
    connectionLogSampleRate := args.connectionLogSampleRate
    forwardMode := args.forwardMode
    reusePort := args.reusePort }

/-- The file with these options and one relay `default`. -/
def fileConfig (args : ServeArgs) (listen target : Text) (moved : Moved) : FileConfig :=
  ⟨args.globalTable moved, [.plain (some "default".toList) listen target]⟩

/-- The command line beside that file: the moved options and nothing else. -/
def overrides (args : ServeArgs) (moved : Moved) : ServeArgs :=
  { ServeArgs.none with
    logLevel := keep moved.logLevel args.logLevel
    metricsListen := keep moved.metricsListen args.metricsListen
    shutdownTimeout := keep moved.shutdownTimeout args.shutdownTimeout }

end ServeArgs

/-- An option that is overridden or left where it was is read once. -/
theorem mapM_keep {α β ε : Type} (read : α → Except ε β) (moved : Bool) (value : Option α) :
    (do let overriding ← (keep moved value).mapM read
        let configured ← (keep (!moved) value).mapM read
        return overriding.or configured) = value.mapM read := by
  cases moved with
  | false =>
      show (value.mapM read >>= fun configured => pure configured) = value.mapM read
      exact bind_pure _
  | true =>
      show (value.mapM read >>= fun overriding => pure (overriding.or none)) = value.mapM read
      simp only [Option.or_none]
      exact bind_pure _

/-! ## What both build -/

namespace ServeArgs

/-- The settings of these options, from what their texts were parsed to. -/
def settings (args : ServeArgs) (mode : Option ForwardMode) (listen target : Endpoint)
    (metricsListen : Option Endpoint) : Settings :=
  { logLevel := args.logLevel.getD "info".toList, metricsListen,
    metricsBearerToken := args.metricsToken, metricsTlsCert := args.metricsTlsCert,
    metricsTlsKey := args.metricsTlsKey,
    shutdownTimeout := args.shutdownTimeout.getD DEFAULT_SHUTDOWN_TIMEOUT,
    globalMaxConnections := args.maxConnections, globalMaxConnecting := args.maxConnecting,
    bufferPoolSize := args.bufferPoolSize.getD DEFAULT_BUFFER_POOL_SIZE,
    connectionLogSampleRate :=
      args.connectionLogSampleRate.getD DEFAULT_CONNECTION_LOG_SAMPLE_RATE,
    reusePort := args.reusePort,
    relays :=
      [{ name := "default".toList, listen, target,
         connectTimeout := args.connectTimeout.getD DEFAULT_CONNECT_TIMEOUT,
         idleTimeout := args.idleTimeout, maxConnections := .none, maxConnecting := .none,
         tcpKeepalive := args.tcpKeepalive, dnsRefresh := args.dnsRefresh,
         socketBufferSize := args.socketBufferSize,
         bufferSize := args.bufferSize.getD DEFAULT_BUFFER_SIZE,
         forwardMode := mode.getD .auto }] }

/-- The settings of these options, if their texts can be parsed and the check lets them
through. -/
def accepted (args : ServeArgs) (listen target : Text) : Option Settings := do
  let mode ← (args.forwardMode.mapM readForwardMode).toOption
  let listen ← (Endpoint.parse listen true true).toOption
  let target ← (Endpoint.parse target false false).toOption
  let metrics ← (args.metricsListen.mapM fun value => Endpoint.parse value true true).toOption
  let settings := args.settings mode listen target metrics
  settings.validate.toOption.map fun _ => settings

end ServeArgs

/-- Both end with the check of what they built. -/
theorem checked_toOption (settings : Settings) :
    (do settings.validate; return settings : Except ConfigError Settings).toOption =
      settings.validate.toOption.map fun _ => settings := by
  cases settings.validate with
  | error stop => rfl
  | ok _ => rfl

theorem settingsFromCli_toOption (args : ServeArgs) {listen target : Text}
    (listens : args.listen = some listen) (targets : args.target = some target) :
    (settingsFromCli args).toOption = args.accepted listen target := by
  have listened : required (some listen) = .ok listen := rfl
  have targeted : required (some target) = .ok target := rfl
  rw [settingsFromCli, listens, targets, bind_of_ok listen listened, bind_of_ok target targeted,
    ServeArgs.accepted]
  cases args.forwardMode.mapM readForwardMode with
  | error stop => rfl
  | ok mode =>
  cases Endpoint.parse listen true true with
  | error stop => rfl
  | ok listen =>
  cases Endpoint.parse target false false with
  | error stop => rfl
  | ok target =>
  cases args.metricsListen.mapM fun value => Endpoint.parse value true true with
  | error stop => rfl
  | ok metrics => exact checked_toOption (args.settings mode listen target metrics)

/-- The one table of the file gives the relay of the command line. -/
theorem relaysFromFile_default (args : ServeArgs) (listen target : Text) (moved : Moved)
    (mode : Option ForwardMode) (metricsListen : Option Endpoint) :
    relaysFromFile (args.globalTable moved) (mode.getD .auto) 0
        [.plain (some "default".toList) listen target] =
      (do let listen ← Endpoint.parse listen true true
          let target ← Endpoint.parse target false false
          return (args.settings mode listen target metricsListen).relays) := by
  have named : relayName 0 (some "default".toList) = "default".toList := by decide
  simp only [relaysFromFile, relayFromFile, RelayFileConfig.plain, named]
  cases Endpoint.parse listen true true with
  | error stop => rfl
  | ok listen =>
  cases Endpoint.parse target false false with
  | error stop => rfl
  | ok target =>
      rfl

/-- The file goes the same way in another order: the overridden options first. -/
theorem settingsFromFile_default (args : ServeArgs) (listen target : Text) (moved : Moved) :
    settingsFromFile (args.fileConfig listen target moved) (args.overrides moved) =
      (do let metricsListen ← args.metricsListen.mapM fun value => Endpoint.parse value true true
          let mode ← args.forwardMode.mapM readForwardMode
          let listen ← Endpoint.parse listen true true
          let target ← Endpoint.parse target false false
          let settings := args.settings mode listen target metricsListen
          settings.validate
          return settings) := by
  have some_ : reject ((args.fileConfig listen target moved).relay = [])
      [.words "configuration must contain at least one [[relay]] entry"] = .ok () := rfl
  rw [← mapM_keep _ moved.metricsListen args.metricsListen, settingsFromFile, bind_of_ok () some_]
  simp only [bind_assoc, pure_bind]
  refine bind_congr fun overriding => bind_congr fun configured => bind_congr fun mode => ?_
  have relays := relaysFromFile_default args listen target moved mode (overriding.or configured)
  have level : ((args.overrides moved).logLevel.or
      (args.fileConfig listen target moved).global.logLevel) = args.logLevel := keep_or _ _
  have shutdown : ((args.overrides moved).shutdownTimeout.or
      (args.fileConfig listen target moved).global.shutdownTimeout) = args.shutdownTimeout :=
    keep_or _ _
  show relaysFromFile (args.globalTable moved) (mode.getD .auto) 0
    [.plain (some "default".toList) listen target] >>= _ = _
  simp only [relays, level, shutdown, bind_assoc, pure_bind]
  rfl

theorem settingsFromFile_toOption (args : ServeArgs) (listen target : Text) (moved : Moved) :
    (settingsFromFile (args.fileConfig listen target moved) (args.overrides moved)).toOption =
      args.accepted listen target := by
  rw [settingsFromFile_default, ServeArgs.accepted]
  cases args.forwardMode.mapM readForwardMode with
  | error stop => exact toOption_stop stop
  | ok mode =>
  cases Endpoint.parse listen true true with
  | error stop => exact toOption_stop stop
  | ok listen =>
  cases Endpoint.parse target false false with
  | error stop => exact toOption_stop stop
  | ok target =>
  cases args.metricsListen.mapM fun value => Endpoint.parse value true true with
  | error stop => rfl
  | ok metrics => exact checked_toOption (args.settings mode listen target metrics)

/-- The two front ends agree: with the same options they fail together or give the same
settings, wherever the options that may stand on either side are given. -/
theorem front_ends_agree (args : ServeArgs) (listen target : Text) (moved : Moved)
    (listens : args.listen = some listen) (targets : args.target = some target) :
    (settingsFromCli args).toOption =
      (settingsFromFile (args.fileConfig listen target moved) (args.overrides moved)).toOption := by
  rw [settingsFromCli_toOption args listens targets, settingsFromFile_toOption]

/-- `portrelay serve --listen :8080 --target db:5432 --log-level debug --max-connections 10` -/
def serveArgs : ServeArgs :=
  { ServeArgs.none with
    listen := some ":8080".toList
    target := some "db:5432".toList
    logLevel := some "debug".toList
    maxConnections := some 10 }

theorem front_ends_agree_serve :
    (settingsFromCli serveArgs).toOption =
      (settingsFromFile (serveArgs.fileConfig ":8080".toList "db:5432".toList ⟨true, false, true⟩)
        (serveArgs.overrides ⟨true, false, true⟩)).toOption :=
  front_ends_agree serveArgs ":8080".toList "db:5432".toList ⟨true, false, true⟩ rfl rfl

end Portrelay.Config
