/-
# Server.Configured -- the limits that are written down hold while the server runs

From the option or the TOML table, through `load_settings` and `Server::bind`, to every state
that the listeners and connections of the server can reach.

* `gauges_le` -- the gauges of all relays together are within the limit that the relays share.
* `configured_limits` -- what is asked for is kept, relay by relay and in all.
-/
import Portrelay.Config.FrontEnds
import Portrelay.Config.LoadSettings
import Portrelay.Server.Accounting
import Portrelay.Server.BindIsolation

namespace Portrelay.Server

open Portrelay.Theory Portrelay.Relay Portrelay.Metrics

set_option autoImplicit false

namespace ServerState

variable {settings : Settings}

/-- A task that the gauge counts has its outer permits. -/
theorem owes_le_held {s : ServerState} (reached : (machine settings).Reachable s) {t : Task}
    (member : t ∈ s.tasks) {l : Limit} (outer : l ∈ outer t.relay)
    (limited : settings.limit l ≠ none) :
    t.owes MetricUpdate.lowers 1 ≤ t.held.count l := by
  by_cases live : t.phase = .returning
  · simp only [Task.owes, live]
    exact Nat.zero_le _
  · have held := ((reachable_ok reached).tasks t member).outer live l outer limited
    exact Nat.le_trans (lowers_le reached t member) (List.count_pos_iff.mpr held)

/-- The gauges of all relays together are within the global limit. -/
theorem gauges_le {s : ServerState} (reached : (machine settings).Reachable s) {permits : Nat}
    (limited : settings.globalMaxConnections = some permits) :
    (s.relays.map fun b => b.metrics.activeConnections).sum ≤ permits := by
  have configured : settings.limit .globalLimit ≠ none := by
    rw [Settings.limit, limited]
    simp
  have each : ∀ (relay : Nat) (b : BoundRelay), s.relays[relay]? = some b →
      b.metrics.activeConnections ≤ b.listener.held.count .globalLimit +
        tally (fun t => if t.relay = 0 + relay then t.held.count .globalLimit else 0) s.tasks := by
    intro relay b found
    have listener := ((reachable_ok reached).relays relay b found).activated
      (show Limit.globalLimit ∈ outer relay from List.mem_cons_self) configured
    have tasks : s.across relay (Task.owes MetricUpdate.lowers 1) ≤
        tally (fun t => if t.relay = 0 + relay then t.held.count .globalLimit else 0) s.tasks := by
      refine tally_mono fun t member => ?_
      rw [Nat.zero_add]
      split
      · exact owes_le_held reached member List.mem_cons_self configured
      · exact Nat.le_refl 0
    have active := (reachable_books reached relay b found).active
    omega
  have within := sum_le_owners 0 each
  have all : tally (fun t => if 0 ≤ t.relay then t.held.count .globalLimit else 0) s.tasks =
      s.inTasks .globalLimit := by
    simp only [Nat.zero_le, if_true]
    rfl
  have conserved := limit_conserved reached (l := .globalLimit) limited
  rw [all] at within
  simp only [inHands] at conserved
  omega

end ServerState

end Portrelay.Server

namespace Portrelay.Binding

open Portrelay.Theory Portrelay.Config

open Portrelay.Server (ServerState Task)

variable {ι τ : Type}

/-- In every state that a server reaches, the limits hold that were asked for in the file or
on the command line: over all relays for the gauges together and for the connects, and for
each relay that it serves, which is one of those asked for. -/
theorem configured_limits {disk : Disk ι τ} {args : ServeArgs} {settings : Config.Settings}
    (loaded : loadSettings disk args = .ok settings) {env : Environment} {server : Server}
    (bound : Server.bind env settings = .ok server) {s : ServerState}
    (reached : (ServerState.machine (server.admission settings)).Reachable s) :
    ∃ limits, asked disk args = some limits ∧
      (∀ permits, limits.maxConnections = some permits →
        (s.relays.map fun b => b.metrics.activeConnections).sum ≤ permits) ∧
      (∀ permits, limits.maxConnecting = some permits →
        s.tasks.countP Task.connecting ≤ permits) ∧
      ∀ (relay : Nat) (b : Portrelay.Server.BoundRelay), s.relays[relay]? = some b → ∃ own ∈ limits.relays,
        (env.kept settings)[relay]?.map RelaySpec.asked = some own ∧
        (∀ permits, own.maxConnections = some permits →
          b.metrics.activeConnections ≤ permits) ∧
        ∀ permits, own.maxConnecting = some permits →
          s.tasks.countP (fun t => t.relay == relay && t.connecting) ≤ permits := by
  obtain ⟨valid, limits⟩ := load_asked loaded
  obtain ⟨specs, -⟩ :=
    (bind_isolated env settings ((Settings.validate_ok_iff _).mpr valid)).2 server bound
  refine ⟨settings.asked, limits, ?_, ?_, ?_⟩
  · intro permits limited
    exact ServerState.gauges_le reached limited
  · intro permits limited
    exact ServerState.boundBy_le reached (l := .globalConnecting) limited
  · intro relay b found
    have inside : relay < s.relays.length := (List.getElem?_eq_some_iff.mp found).1
    have served : relay < server.relays.length := by
      rw [ServerState.relays_length reached, Server.admission, List.length_map] at inside
      exact inside
    have kept : (env.kept settings)[relay]? = some server.relays[relay].spec := by
      rw [← specs, List.getElem?_map, List.getElem?_eq_getElem served]
      rfl
    have own : ∀ configured : Portrelay.Server.RelaySpec → Option Nat,
        (server.admission settings).relays[relay]?.bind configured =
          configured (admissionSpec server.relays[relay].spec) := by
      intro configured
      rw [Server.admission, List.getElem?_map, List.getElem?_eq_getElem served]
      rfl
    refine ⟨server.relays[relay].spec.asked, ?_, ?_, ?_, ?_⟩
    · exact List.mem_map_of_mem ((kept_sublist env settings).subset (List.mem_of_getElem? kept))
    · rw [kept]
      rfl
    · intro permits limited
      exact ServerState.active_le reached found (List.mem_cons_of_mem _ List.mem_cons_self)
        ((own _).trans limited)
    · intro permits limited
      exact ServerState.boundBy_le reached (l := .perRelayConnecting relay)
        ((own _).trans limited)

/-- A relay of one connection, and two over all. -/
def limitedToml : Text :=
  "[global]\nmax_connections = 2\n[[relay]]\nlisten = \":8080\"\ntarget = \"db:5432\"\nmax_connections = 1\n".toList

def limitedFile : FileConfig :=
  ⟨{ ServeArgs.none.globalTable ⟨false, false, false⟩ with maxConnections := some 2 },
    [{ RelayFileConfig.plain none ":8080".toList "db:5432".toList with maxConnections := some 1 }]⟩

def limitedDisk : Disk Unit Unit :=
  ⟨fun path => if path = "portrelay.toml".toList then .ok limitedToml else .error (),
    fun contents => if contents = limitedToml then .ok limitedFile else .error ()⟩

def limitedArgs : ServeArgs := { ServeArgs.none with config := some "portrelay.toml".toList }

theorem configured_limits_file :
    ∃ settings server, loadSettings limitedDisk limitedArgs = .ok settings ∧
      Server.bind permissive settings = .ok server ∧
      ∃ s, (ServerState.machine (server.admission settings)).exec
          (ServerState.start (server.admission settings))
          (.listener 0 .accept :: List.replicate 10 (.listener 0 .next)) = some s ∧
        (s.relays.map fun b => b.metrics.activeConnections).sum = 1 ∧
        (s.relays.map fun b => b.metrics.activeConnections).sum ≤ 2 := by
  have ran : ∃ settings server, loadSettings limitedDisk limitedArgs = .ok settings ∧
      Server.bind permissive settings = .ok server ∧
      ∃ s, (ServerState.machine (server.admission settings)).exec
          (ServerState.start (server.admission settings))
          (.listener 0 .accept :: List.replicate 10 (.listener 0 .next)) = some s ∧
        (s.relays.map fun b => b.metrics.activeConnections).sum = 1 :=
    ⟨_, _, rfl, rfl, _, rfl, rfl⟩
  obtain ⟨settings, server, loaded, bound, s, ran, one⟩ := ran
  have reached := ((ServerState.machine (server.admission settings)).reachable_iff_exec s).mpr
    ⟨_, _, rfl, ran⟩
  obtain ⟨limits, read, total, -⟩ := configured_limits loaded bound reached
  have known : asked limitedDisk limitedArgs = some limitedFile.asked := by decide
  obtain rfl := Option.some.inj (known.symm.trans read)
  exact ⟨settings, server, loaded, bound, s, ran, one, total 2 rfl⟩

end Portrelay.Binding
