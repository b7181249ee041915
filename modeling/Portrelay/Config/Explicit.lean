/-
# Config.Explicit -- files that leave nothing to a default

What a `[[relay]]` table leaves out comes from `[global]`, from a default, or from its
position.  `FileConfig.explicit` writes all of it into the table, and takes out of `[global]`
what nothing falls back to any more.

* `explicit_settings` -- that changes no settings and no error.
* `reordered_settings` -- a file whose tables are named may list them in any order.
* `layout_settings` -- so the explicit form of any file may.
-/
import Mathlib.Data.List.Perm.Basic
import Portrelay.Config.RelayNames

namespace Portrelay.Config

open Portrelay.Theory
open Portrelay.Relay (ForwardMode)

set_option autoImplicit false

/-- The table with everything that it leaves out. -/
def RelayFileConfig.explicit (global : GlobalFileConfig) (index : Nat) (relay : RelayFileConfig) :
    RelayFileConfig where
  name := some (relayName index relay.name)
  listen := relay.listen
  target := relay.target
  connectTimeout :=
    some (relay.connectTimeout.getD (global.connectTimeout.getD DEFAULT_CONNECT_TIMEOUT))
  idleTimeout := relay.idleTimeout.or global.idleTimeout
  maxConnections := relay.maxConnections
  maxConnecting := relay.maxConnecting
  tcpKeepalive := relay.tcpKeepalive.or global.tcpKeepalive
  dnsRefresh := relay.dnsRefresh.or global.dnsRefresh
  socketBufferSize := relay.socketBufferSize.or global.socketBufferSize
  bufferSize := some (relay.bufferSize.getD (global.bufferSize.getD DEFAULT_BUFFER_SIZE))
  forwardMode := some (relay.forwardMode.getD (global.forwardMode.getD "auto".toList))

/-- `[global]` without what the tables have now; its forward mode is still read. -/
def GlobalFileConfig.stripped (global : GlobalFileConfig) : GlobalFileConfig :=
  { global with
    connectTimeout := none, idleTimeout := none, tcpKeepalive := none, dnsRefresh := none,
    socketBufferSize := none, bufferSize := none }

def FileConfig.explicit (file : FileConfig) : FileConfig where
  global := file.global.stripped
  relay := file.relay.mapIdx fun index table => table.explicit file.global index

/-! ## One table -/

theorem explicitName_relayName (index : Nat) (name : Option Text) :
    explicitName (some (relayName index name)) = some (relayName index name) :=
  Option.filter_some_pos (decide_eq_true (relayName_nonblank index name))

/-- A name that is written down is kept, wherever the table is. -/
theorem relayName_relayName (position index : Nat) (name : Option Text) :
    relayName position (some (relayName index name)) = relayName index name := by
  rw [relayName, explicitName_relayName, Option.getD_some]

theorem readForwardMode_auto : readForwardMode "auto".toList = .ok .auto := by
  decide +kernel

/-- A forward mode that is written down is read like the one that it stands for. -/
theorem bind_forwardMode {α : Type} {globalMode : Option Text} {mode : Option ForwardMode}
    (read : globalMode.mapM readForwardMode = .ok mode) (own : Option Text)
    (next : ForwardMode → Except ConfigError α) :
    ((some (own.getD (globalMode.getD "auto".toList))).mapM readForwardMode >>= fun forwardMode =>
        next (forwardMode.getD (mode.getD .auto))) =
      own.mapM readForwardMode >>= fun forwardMode => next (forwardMode.getD (mode.getD .auto)) := by
  cases own with
  | some text => rfl
  | none =>
      have written : readForwardMode (globalMode.getD "auto".toList) = .ok (mode.getD .auto) := by
        cases globalMode with
        | none =>
            cases read
            exact readForwardMode_auto
        | some text =>
            obtain ⟨value, given, same⟩ := of_bind_ok read
            cases same
            exact given
      show (readForwardMode (globalMode.getD "auto".toList) >>= fun value => pure (some value)) >>= _ = _
      rw [written]
      rfl

theorem relayFromFile_explicit {global : GlobalFileConfig} {mode : Option ForwardMode}
    (read : global.forwardMode.mapM readForwardMode = .ok mode) (position index : Nat)
    (table : RelayFileConfig) :
    relayFromFile global.stripped (mode.getD .auto) position (table.explicit global index) =
      relayFromFile global (mode.getD .auto) index table := by
  have same := bind_forwardMode read table.forwardMode fun forwardMode => do
    let listen ← Endpoint.parse table.listen true true
    let target ← Endpoint.parse table.target false false
    return ({
      name := relayName index table.name, listen, target,
      connectTimeout := table.connectTimeout.getD (global.connectTimeout.getD DEFAULT_CONNECT_TIMEOUT),
      idleTimeout := table.idleTimeout.or global.idleTimeout,
      maxConnections := table.maxConnections, maxConnecting := table.maxConnecting,
      tcpKeepalive := table.tcpKeepalive.or global.tcpKeepalive,
      dnsRefresh := table.dnsRefresh.or global.dnsRefresh,
      socketBufferSize := table.socketBufferSize.or global.socketBufferSize,
      bufferSize := table.bufferSize.getD (global.bufferSize.getD DEFAULT_BUFFER_SIZE),
      forwardMode } : RelaySpec)
  unfold relayFromFile
  simp only [RelayFileConfig.explicit, GlobalFileConfig.stripped, relayName_relayName,
    Option.or_none, Option.getD_some]
  exact same

/-- The tables from the position `index`, which the explicit ones do not need to know. -/
theorem relaysFromFile_explicit {global : GlobalFileConfig} {mode : Option ForwardMode}
    (read : global.forwardMode.mapM readForwardMode = .ok mode) (position index : Nat)
    (tables : List RelayFileConfig) :
    relaysFromFile global.stripped (mode.getD .auto) position
        (tables.mapIdx fun k table => table.explicit global (index + k)) =
      relaysFromFile global (mode.getD .auto) index tables := by
  induction tables generalizing position index with
  | nil => rfl
  | cons table rest ih =>
      have shift : (fun k (table : RelayFileConfig) => table.explicit global (index + (k + 1))) =
          fun k table => table.explicit global (index + 1 + k) := by
        funext k table
        rw [Nat.add_comm k 1, ← Nat.add_assoc]
      rw [List.mapIdx_cons, shift, relaysFromFile, relaysFromFile, Nat.add_zero,
        relayFromFile_explicit read, ih (position + 1) (index + 1)]

/-! ## The file -/

theorem explicit_relay_nil (file : FileConfig) : file.explicit.relay = [] ↔ file.relay = [] :=
  List.mapIdx_eq_nil_iff

/-- Writing everything out changes no settings and no error. -/
theorem explicit_settings (file : FileConfig) (args : ServeArgs) :
    settingsFromFile file.explicit args = settingsFromFile file args := by
  unfold settingsFromFile
  simp only [explicit_relay_nil]
  refine congrArg _ (funext fun _ => congrArg _ (funext fun overriding =>
    congrArg _ (funext fun configured => ?_)))
  show (file.global.forwardMode.mapM readForwardMode >>= _) = _
  cases read : file.global.forwardMode.mapM readForwardMode with
  | error e => rfl
  | ok mode =>
      have relays := relaysFromFile_explicit read 0 0 file.relay
      simp only [Nat.zero_add] at relays
      show (relaysFromFile file.global.stripped (mode.getD .auto) 0 file.explicit.relay >>= _) =
        (relaysFromFile file.global (mode.getD .auto) 0 file.relay >>= _)
      rw [FileConfig.explicit, relays]
      rfl

/-! ## The order of the tables -/

theorem relayFromFile_named {table : RelayFileConfig} (named : (explicitName table.name).isSome)
    (global : GlobalFileConfig) (mode : ForwardMode) (index : Nat) :
    relayFromFile global mode index table = relayFromFile global mode 0 table := by
  have same : relayName index table.name = relayName 0 table.name := by
    obtain ⟨name, given⟩ := Option.isSome_iff_exists.mp named
    rw [relayName, relayName, given, Option.getD_some, Option.getD_some]
  unfold relayFromFile
  rw [same]

/-- Tables that are all named are read one by one, wherever they are. -/
theorem relaysFromFile_ok_iff {global : GlobalFileConfig} {mode : ForwardMode}
    {tables : List RelayFileConfig} {relays : List RelaySpec}
    (named : ∀ table ∈ tables, (explicitName table.name).isSome) (index : Nat) :
    relaysFromFile global mode index tables = .ok relays ↔
      List.Forall₂ (fun table relay => relayFromFile global mode 0 table = .ok relay)
        tables relays := by
  induction tables generalizing index relays with
  | nil =>
      rw [List.forall₂_nil_left_iff, relaysFromFile]
      exact ⟨fun same => (Except.ok.inj same).symm, fun same => congrArg _ same.symm⟩
  | cons table rest ih =>
      have others : ∀ relays, relaysFromFile global mode (index + 1) rest = .ok relays ↔
          List.Forall₂ (fun table relay => relayFromFile global mode 0 table = .ok relay)
            rest relays :=
        fun _ => ih (fun table member => named table (List.mem_cons_of_mem _ member)) (index + 1)
      have first := relayFromFile_named (named table List.mem_cons_self) global mode index
      rw [List.forall₂_cons_left_iff, relaysFromFile, first]
      constructor
      · intro built
        obtain ⟨spec, read, built⟩ := of_bind_ok built
        obtain ⟨specs, rest, built⟩ := of_bind_ok built
        cases built
        exact ⟨spec, specs, read, (others specs).mp rest, rfl⟩
      · rintro ⟨spec, specs, read, rest, rfl⟩
        rw [read, (others specs).mpr rest]
        rfl

theorem fixedListeners_perm {relays others : List RelaySpec} (perm : relays.Perm others) :
    (fixedListeners relays).Perm (fixedListeners others) :=
  (perm.filter _).map _

/-- What the check lets through does not depend on the order of the relays. -/
theorem Settings.Valid.reorder {settings : Settings} (valid : settings.Valid)
    {relays : List RelaySpec} (perm : settings.relays.Perm relays) :
    ({ settings with relays } : Settings).Valid where
  relay := fun empty => valid.relay (List.Perm.eq_nil (empty ▸ perm))
  shutdown := valid.shutdown
  connections := valid.connections
  connecting := valid.connecting
  pool := valid.pool
  sampling := valid.sampling
  together := valid.together
  tls := valid.tls
  token := valid.token
  named := fun relay member => valid.named relay (perm.mem_iff.mpr member)
  names := (perm.map RelaySpec.name).nodup_iff.mp valid.names
  listeners := (fixedListeners_perm perm).nodup_iff.mp valid.listeners
  relays := fun relay member => valid.relays relay (perm.mem_iff.mpr member)

theorem reordered_settings {global : GlobalFileConfig} {given : List RelayFileConfig}
    {args : ServeArgs} {settings : Settings}
    (named : ∀ table ∈ given, (explicitName table.name).isSome)
    {tables : List RelayFileConfig} (perm : tables.Perm given)
    (accepted : settingsFromFile ⟨global, given⟩ args = .ok settings) :
    ∃ relays, relays.Perm settings.relays ∧
      settingsFromFile ⟨global, tables⟩ args = .ok { settings with relays } := by
  obtain ⟨_, some_, accepted⟩ := of_bind_ok accepted
  obtain ⟨overriding, override, accepted⟩ := of_bind_ok accepted
  obtain ⟨configured, config, accepted⟩ := of_bind_ok accepted
  obtain ⟨mode, read, accepted⟩ := of_bind_ok accepted
  obtain ⟨relays, built, accepted⟩ := of_bind_ok accepted
  obtain ⟨_, checked, accepted⟩ := of_bind_ok accepted
  cases accepted
  have each := (relaysFromFile_ok_iff named 0).mp built
  obtain ⟨others, each, same⟩ := List.perm_comp_forall₂ perm each
  have any : reject (tables = []) [.words "configuration must contain at least one [[relay]] entry"] =
      .ok () := by
    refine (reject_ok_iff _).mpr fun empty => (reject_ok_iff _).mp some_ ?_
    exact List.Perm.eq_nil (empty ▸ perm.symm)
  have valid := ((Settings.validate_ok_iff _).mp checked).reorder same.symm
  refine ⟨others, same, ?_⟩
  unfold settingsFromFile
  rw [bind_of_ok _ any, bind_of_ok _ override, bind_of_ok _ config, bind_of_ok _ read,
    bind_of_ok _ ((relaysFromFile_ok_iff (fun table member => named table (perm.mem_iff.mp member))
      0).mpr each), bind_of_ok _ ((Settings.validate_ok_iff _).mpr valid)]
  rfl

theorem explicit_named (file : FileConfig) {table : RelayFileConfig}
    (member : table ∈ file.explicit.relay) : (explicitName table.name).isSome := by
  obtain ⟨index, inside, rfl⟩ := List.mem_mapIdx.mp member
  rw [RelayFileConfig.explicit, explicitName_relayName]
  rfl

/-- The settings of a file are those of its explicit form, errors included, and those of that
form in any order of its tables but for the order of the relays. -/
theorem layout_settings (file : FileConfig) (args : ServeArgs) :
    settingsFromFile file.explicit args = settingsFromFile file args ∧
    ∀ tables, tables.Perm file.explicit.relay → ∀ settings : Settings,
      (∃ relays, relays.Perm settings.relays ∧
        settingsFromFile file args = .ok { settings with relays }) ↔
      ∃ relays, relays.Perm settings.relays ∧
        settingsFromFile ⟨file.explicit.global, tables⟩ args = .ok { settings with relays } := by
  refine ⟨explicit_settings file args, fun tables perm settings => ⟨?_, ?_⟩⟩
  · rintro ⟨relays, same, accepted⟩
    rw [← explicit_settings file args] at accepted
    obtain ⟨others, again, accepted⟩ :=
      reordered_settings (fun table => explicit_named file) perm accepted
    exact ⟨others, again.trans same, accepted⟩
  · rintro ⟨relays, same, accepted⟩
    have named : ∀ table ∈ tables, (explicitName table.name).isSome :=
      fun table member => explicit_named file (perm.mem_iff.mp member)
    obtain ⟨others, again, accepted⟩ :=
      reordered_settings named perm.symm accepted
    exact ⟨others, again.trans same, (explicit_settings file args).symm.trans accepted⟩

/-- `relay-2` listed first leaves the other one to be named `relay-2`, unless it has its name. -/
theorem layout_settings_swapped :
    settingsFromFile ⟨(twoRelays none (some "relay-2".toList)).global,
        (twoRelays none (some "relay-2".toList)).relay.reverse⟩ ServeArgs.none =
      .error (duplicateName "relay-2".toList) ∧
    ∃ settings, settingsFromFile ⟨(twoRelays none (some "relay-2".toList)).explicit.global,
        (twoRelays none (some "relay-2".toList)).explicit.relay.reverse⟩ ServeArgs.none =
      .ok settings := by
  have accepted : ∃ settings,
      settingsFromFile (twoRelays none (some "relay-2".toList)) ServeArgs.none = .ok settings := by
    cases read : settingsFromFile (twoRelays none (some "relay-2".toList)) ServeArgs.none with
    | ok settings => exact ⟨settings, rfl⟩
    | error e =>
        have some_ : (settingsFromFile (twoRelays none (some "relay-2".toList))
            ServeArgs.none).toOption.isSome := by decide
        rw [read] at some_
        cases some_
  obtain ⟨settings, accepted⟩ := accepted
  obtain ⟨relays, -, accepted⟩ := ((layout_settings (twoRelays none (some "relay-2".toList))
    ServeArgs.none).2 _ (List.reverse_perm _) settings).mp ⟨settings.relays, .refl _, accepted⟩
  exact ⟨by decide, _, accepted⟩

end Portrelay.Config
