/-
# Config.LoadSettings -- load_settings, and what it was asked for

With `--config` the settings come from a TOML file and the options that the file may hold must
be there; without it they come from the command line.  Reading the file and its syntax are
parameters.

* `load_asked` -- the settings have the limits that are asked for, wherever that is.
* `single_settings` -- `Settings::single` is the command line with nothing but its two options.
-/
import Portrelay.Config.FileConfig

namespace Portrelay.Config

open Portrelay.Theory

set_option autoImplicit false

/-- `std::fs::read_to_string` and `toml::from_str::<FileConfig>`, with their errors. -/
structure Disk (ι τ : Type) where
  readToString : Text → Except ι Text
  fromStr : Text → Except τ FileConfig

/-- `ConfigError`, with the two of its cases that are of a file. -/
inductive LoadError (ι τ : Type)
  | readConfig (path : Text) (source : ι)
  | parseConfig (source : τ)
  | checked (error : ConfigError)

/-- The options that are refused beside `--config`. -/
def ServeArgs.runtimeOptions (args : ServeArgs) : Bool :=
  args.connectTimeout.isSome || args.idleTimeout.isSome || args.maxConnections.isSome ||
    args.maxConnecting.isSome || args.tcpKeepalive.isSome || args.dnsRefresh.isSome ||
    args.socketBufferSize.isSome || args.bufferSize.isSome || args.bufferPoolSize.isSome ||
    args.connectionLogSampleRate.isSome || args.forwardMode.isSome || args.reusePort ||
    args.metricsToken.isSome || args.metricsTlsCert.isSome || args.metricsTlsKey.isSome

variable {ι τ : Type}

def loadSettings (disk : Disk ι τ) (args : ServeArgs) : Except (LoadError ι τ) Settings :=
  match args.config with
  | some path => do
      (reject (args.runtimeOptions = true)
        [.words "relay runtime options must be set in TOML when --config is used"]).mapError .checked
      let contents ← (disk.readToString path).mapError (.readConfig path)
      let file ← (disk.fromStr contents).mapError .parseConfig
      (settingsFromFile file args).mapError .checked
  | none => (settingsFromCli args).mapError .checked

/-! ## What is asked for -/

structure AskedRelay where
  name : Text
  maxConnections : Option Nat
  maxConnecting : Option Nat
  deriving DecidableEq

/-- The limits over all relays, and those of each. -/
structure Asked where
  maxConnections : Option Nat
  maxConnecting : Option Nat
  relays : List AskedRelay
  deriving DecidableEq

def RelaySpec.asked (spec : RelaySpec) : AskedRelay :=
  ⟨spec.name, spec.maxConnections, spec.maxConnecting⟩

def Settings.asked (settings : Settings) : Asked :=
  ⟨settings.globalMaxConnections, settings.globalMaxConnecting,
    settings.relays.map RelaySpec.asked⟩

def ServeArgs.asked (args : ServeArgs) : Asked :=
  ⟨args.maxConnections, args.maxConnecting, [⟨"default".toList, .none, .none⟩]⟩

def FileConfig.asked (file : FileConfig) : Asked :=
  ⟨file.global.maxConnections, file.global.maxConnecting,
    file.relay.mapIdx fun index table =>
      ⟨relayName index table.name, table.maxConnections, table.maxConnecting⟩⟩

/-- The limits that an administrator has written down, in the file or on the command line. -/
def asked (disk : Disk ι τ) (args : ServeArgs) : Option Asked :=
  match args.config with
  | some path => do
      let contents ← (disk.readToString path).toOption
      let file ← (disk.fromStr contents).toOption
      return file.asked
  | none => some args.asked

theorem relaysFromFile_asked {global : GlobalFileConfig} {mode : Portrelay.Relay.ForwardMode}
    {index : Nat} {tables : List RelayFileConfig} {relays : List RelaySpec}
    (built : relaysFromFile global mode index tables = .ok relays) :
    relays.map RelaySpec.asked = tables.mapIdx fun k table =>
      ⟨relayName (index + k) table.name, table.maxConnections, table.maxConnecting⟩ := by
  induction tables generalizing index relays with
  | nil =>
      cases built
      rfl
  | cons table rest ih =>
      obtain ⟨spec, first, built⟩ := of_bind_ok built
      obtain ⟨specs, others, built⟩ := of_bind_ok built
      cases built
      obtain ⟨mode, -, first⟩ := of_bind_ok first
      obtain ⟨listen, -, first⟩ := of_bind_ok first
      obtain ⟨target, -, first⟩ := of_bind_ok first
      cases first
      have shift : (fun k (table : RelayFileConfig) =>
          (⟨relayName (index + (k + 1)) table.name, table.maxConnections, table.maxConnecting⟩ :
            AskedRelay)) =
          fun k table =>
            ⟨relayName (index + 1 + k) table.name, table.maxConnections, table.maxConnecting⟩ := by
        funext k table
        rw [Nat.add_comm k 1, ← Nat.add_assoc]
      rw [List.map_cons, ih others, List.mapIdx_cons, shift]
      rfl

theorem settingsFromFile_asked {file : FileConfig} {args : ServeArgs} {settings : Settings}
    (accepted : settingsFromFile file args = .ok settings) :
    settings.Valid ∧ settings.asked = file.asked := by
  obtain ⟨_, -, accepted⟩ := of_bind_ok accepted
  obtain ⟨overriding, -, accepted⟩ := of_bind_ok accepted
  obtain ⟨configured, -, accepted⟩ := of_bind_ok accepted
  obtain ⟨mode, -, accepted⟩ := of_bind_ok accepted
  obtain ⟨relays, built, accepted⟩ := of_bind_ok accepted
  obtain ⟨_, checked, accepted⟩ := of_bind_ok accepted
  cases accepted
  have each := relaysFromFile_asked built
  simp only [Nat.zero_add] at each
  exact ⟨(Settings.validate_ok_iff _).mp checked, by rw [Settings.asked, each, FileConfig.asked]⟩

theorem settingsFromCli_asked {args : ServeArgs} {settings : Settings}
    (accepted : settingsFromCli args = .ok settings) :
    settings.Valid ∧ settings.asked = args.asked := by
  obtain ⟨listen, -, accepted⟩ := of_bind_ok accepted
  obtain ⟨target, -, accepted⟩ := of_bind_ok accepted
  obtain ⟨mode, -, accepted⟩ := of_bind_ok accepted
  obtain ⟨listening, -, accepted⟩ := of_bind_ok accepted
  obtain ⟨dialled, -, accepted⟩ := of_bind_ok accepted
  obtain ⟨metrics, -, accepted⟩ := of_bind_ok accepted
  obtain ⟨_, checked, accepted⟩ := of_bind_ok accepted
  cases accepted
  exact ⟨(Settings.validate_ok_iff _).mp checked, rfl⟩

theorem of_mapError_ok {α ε ε' : Type} {result : Except ε α} {f : ε → ε'} {value : α}
    (run : result.mapError f = .ok value) : result = .ok value := by
  cases result with
  | error stop => cases run
  | ok given => exact congrArg _ (Except.ok.inj run)

/-- The settings have the limits that are asked for, and pass the check. -/
theorem load_asked {disk : Disk ι τ} {args : ServeArgs} {settings : Settings}
    (loaded : loadSettings disk args = .ok settings) :
    settings.Valid ∧ asked disk args = some settings.asked := by
  unfold loadSettings at loaded
  cases config : args.config with
  | none =>
      rw [config] at loaded
      obtain ⟨valid, same⟩ := settingsFromCli_asked (of_mapError_ok loaded)
      simp only [asked, config, same]
      exact ⟨valid, trivial⟩
  | some path =>
      rw [config] at loaded
      obtain ⟨_, -, loaded⟩ := of_bind_ok loaded
      obtain ⟨contents, read, loaded⟩ := of_bind_ok loaded
      obtain ⟨file, parsed, loaded⟩ := of_bind_ok loaded
      obtain ⟨valid, same⟩ := settingsFromFile_asked (of_mapError_ok loaded)
      refine ⟨valid, ?_⟩
      rw [asked, config, same]
      show (disk.readToString path).toOption >>= _ = _
      rw [of_mapError_ok read]
      show (disk.fromStr contents).toOption >>= _ = _
      rw [of_mapError_ok parsed]
      rfl

/-- Beside `--config` such an option is an error, whatever the file holds. -/
theorem load_runtimeOptions (disk : Disk ι τ) {args : ServeArgs} {path : Text}
    (config : args.config = some path) (given : args.runtimeOptions = true) (settings : Settings) :
    loadSettings disk args ≠ .ok settings := by
  intro loaded
  unfold loadSettings at loaded
  rw [config] at loaded
  obtain ⟨_, gate, -⟩ := of_bind_ok loaded
  exact (reject_ok_iff _).mp (of_mapError_ok gate) given

theorem single_settings (listen target : Text) :
    Settings.single listen target =
      settingsFromCli { ServeArgs.none with listen := some listen, target := some target } := by
  have given : ∀ value, required (some value) = .ok value := fun value => rfl
  have mode : (none : Option Text).mapM readForwardMode = .ok none := rfl
  have metrics : (none : Option Text).mapM (fun value => Endpoint.parse value true true) =
      .ok none := rfl
  unfold Settings.single settingsFromCli ServeArgs.none
  rw [bind_of_ok _ (given listen), bind_of_ok _ (given target), bind_of_ok _ mode]
  refine bind_congr fun listening => bind_congr fun dialled => ?_
  rw [bind_of_ok _ metrics]
  rfl

end Portrelay.Config
