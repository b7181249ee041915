/-
# Server.BindIsolation -- a listener that is refused takes nothing with it

`Server::bind` goes on without a relay whose listener is refused.  What it then binds is what
it binds for a configuration that never had the relay, on an environment that answers the
other calls as before.

* `bindRelays_kept` -- the loop over the relays is the loop over those that are kept.
* `bind_isolated` -- so is the bind, and it binds these relays, in their order.
-/
import Portrelay.Server.Bind

namespace Portrelay.Binding

open Portrelay.Theory Portrelay.Config

set_option autoImplicit false

/-- The relays from the call `call` on whose listener is not refused, with their calls. -/
def Environment.keptFrom (env : Environment) (call : Nat) (specs : List Config.RelaySpec) :
    List (Config.RelaySpec × Nat) :=
  (specs.zipIdx call).filter fun relay => env.listen relay.2 ≠ .refused

def Environment.kept (env : Environment) (settings : Config.Settings) : List Config.RelaySpec :=
  (env.keptFrom 0 settings.relays).map Prod.fst

/-- The settings that never had the relays whose listener is refused. -/
def Environment.keeping (env : Environment) (settings : Config.Settings) : Config.Settings :=
  { settings with relays := env.kept settings }

/-- The environment without the calls that are refused. -/
def Environment.answering (env : Environment) (settings : Config.Settings) : Environment where
  metricsTls := env.metricsTls
  listen call :=
    match (env.keptFrom 0 settings.relays)[call]? with
    | some relay => env.listen relay.2
    | none => env.listen (settings.relays.length + (call - (env.kept settings).length))

variable {env : Environment} {settings : Config.Settings}

theorem keptFrom_cons (call : Nat) (spec : Config.RelaySpec) (rest : List Config.RelaySpec) :
    env.keptFrom call (spec :: rest) =
      if env.listen call = .refused then env.keptFrom (call + 1) rest
      else (spec, call) :: env.keptFrom (call + 1) rest := by
  unfold Environment.keptFrom
  rw [List.zipIdx_cons]
  by_cases refused : env.listen call = .refused
  · rw [if_pos refused, List.filter_cons_of_neg (by simpa using refused)]
  · rw [if_neg refused, List.filter_cons_of_pos (by simpa using refused)]

theorem kept_sublist (env : Environment) (settings : Config.Settings) :
    (env.kept settings).Sublist settings.relays := by
  have filtered : (env.keptFrom 0 settings.relays).Sublist (settings.relays.zipIdx 0) :=
    List.filter_sublist
  have firsts := filtered.map Prod.fst
  rw [List.zipIdx_map_fst] at firsts
  exact firsts

/-! ## The loop over the relays -/

/-- An environment that answers the calls for the kept relays one after the other, from the
call `call'`, with what they are answered here. -/
theorem bindRelays_kept {env' : Environment} (globalLimit globalConnecting : Option Semaphore)
    {call call' : Nat} {specs : List Config.RelaySpec}
    (answers : ∀ k relay, (env.keptFrom call specs)[k]? = some relay →
      env'.listen (call' + k) = env.listen relay.2) :
    bindRelays env settings globalLimit globalConnecting call specs =
      bindRelays env' settings globalLimit globalConnecting call'
        ((env.keptFrom call specs).map Prod.fst) := by
  induction specs generalizing call call' with
  | nil => rfl
  | cons spec rest ih =>
      rw [keptFrom_cons] at answers ⊢
      rw [bindRelays]
      cases listens : env.listen call with
      | refused =>
          rw [if_pos listens] at answers
          rw [if_pos rfl]
          exact ih answers
      | unnamed =>
          rw [if_neg (by rw [listens]; decide)] at answers
          rw [if_neg (by decide)]
          have first := answers 0 (spec, call) rfl
          rw [Nat.add_zero, listens] at first
          rw [List.map_cons, bindRelays, first]
      | bound =>
          rw [if_neg (by rw [listens]; decide)] at answers
          rw [if_neg (by decide)]
          have first := answers 0 (spec, call) rfl
          rw [Nat.add_zero, listens] at first
          have others : bindRelays env settings globalLimit globalConnecting (call + 1) rest =
              bindRelays env' settings globalLimit globalConnecting (call' + 1)
                ((env.keptFrom (call + 1) rest).map Prod.fst) := by
            refine ih fun k relay here => ?_
            rw [Nat.add_assoc, Nat.add_comm 1 k]
            exact answers (k + 1) relay here
          rw [List.map_cons, bindRelays, first]
          simp only [others]

/-- The loop reads the other relays of the settings nowhere else. -/
theorem bindRelays_relays (globalLimit globalConnecting : Option Semaphore) (call : Nat)
    (others specs : List Config.RelaySpec) :
    bindRelays env { settings with relays := others } globalLimit globalConnecting call specs =
      bindRelays env settings globalLimit globalConnecting call specs := by
  induction specs generalizing call with
  | nil => rfl
  | cons spec rest ih =>
      rw [bindRelays, bindRelays, ih]
      rfl

/-- The relays bound are those whose listener is not refused. -/
theorem bindRelays_specs {globalLimit globalConnecting : Option Semaphore} {call : Nat}
    {specs : List Config.RelaySpec} {relays : List BoundRelay}
    (run : bindRelays env settings globalLimit globalConnecting call specs = .ok relays) :
    relays.map BoundRelay.spec = (env.keptFrom call specs).map Prod.fst := by
  induction specs generalizing call relays with
  | nil =>
      obtain rfl := Except.ok.inj run
      rfl
  | cons spec rest ih =>
      rw [keptFrom_cons]
      rw [bindRelays] at run
      cases listens : env.listen call with
      | refused =>
          rw [listens] at run
          rw [if_pos rfl, ih run]
      | unnamed => rw [listens] at run; cases run
      | bound =>
          rw [listens] at run
          obtain ⟨relay, first, run⟩ := of_bind_ok run
          obtain ⟨others, later, run⟩ := of_bind_ok run
          obtain rfl := Except.ok.inj run
          obtain ⟨pool, -, first⟩ := of_bind_ok first
          obtain ⟨perRelayLimit, -, first⟩ := of_bind_ok first
          obtain ⟨perRelayConnecting, -, first⟩ := of_bind_ok first
          obtain rfl := Except.ok.inj first
          rw [if_neg (by decide), List.map_cons, List.map_cons, ih later]

/-! ## The bind -/

/-- Some of the relays that the check lets through are let through too. -/
theorem Valid.keep (valid : settings.Valid) {relays : List Config.RelaySpec}
    (some_ : relays ≠ []) (within : relays.Sublist settings.relays) :
    ({ settings with relays } : Config.Settings).Valid where
  relay := some_
  shutdown := valid.shutdown
  connections := valid.connections
  connecting := valid.connecting
  pool := valid.pool
  sampling := valid.sampling
  together := valid.together
  tls := valid.tls
  token := valid.token
  named := fun relay member => valid.named relay (within.subset member)
  names := (within.map _).nodup valid.names
  listeners := ((within.filter _).map _).nodup valid.listeners
  relays := fun relay member => valid.relays relay (within.subset member)

theorem kept_length (env : Environment) (settings : Config.Settings) :
    (env.keptFrom 0 settings.relays).length = (env.kept settings).length :=
  (List.length_map _).symm

theorem answering_kept {k : Nat} {relay : Config.RelaySpec × Nat}
    (here : (env.keptFrom 0 settings.relays)[k]? = some relay) :
    (env.answering settings).listen k = env.listen relay.2 := by
  simp only [Environment.answering, here]

/-- The call for the metrics listener comes after those for the relays. -/
theorem answering_metrics :
    (env.answering settings).listen (env.kept settings).length =
      env.listen settings.relays.length := by
  have behind : (env.keptFrom 0 settings.relays)[(env.kept settings).length]? = none := by
    rw [List.getElem?_eq_none_iff, kept_length]
  simp only [Environment.answering, behind, Nat.sub_self, Nat.add_zero]

/-- What is bound is what is bound without the relays whose listener is refused, to the error;
these are the relays of the server, and without any there is none. -/
theorem bind_isolated (env : Environment) (settings : Config.Settings)
    (valid : settings.validate = .ok ()) :
    (env.kept settings ≠ [] →
      Server.bind env settings = Server.bind (env.answering settings) (env.keeping settings)) ∧
    ∀ server, Server.bind env settings = .ok server →
      server.relays.map BoundRelay.spec = env.kept settings ∧ env.kept settings ≠ [] := by
  constructor
  · intro some_
    have kept := Valid.keep ((Settings.validate_ok_iff _).mp valid) some_ (kept_sublist env settings)
    have checked : settings.validate.mapError (fun error => Stop.failed (.invalid error)) =
        .ok () := by rw [valid]; rfl
    have still : (env.keeping settings).validate.mapError
        (fun error => Stop.failed (.invalid error)) = .ok () := by
      rw [(Settings.validate_ok_iff (env.keeping settings)).mpr kept]
      rfl
    unfold Server.bind
    rw [bind_of_ok _ checked, bind_of_ok _ still]
    have tls : buildMetricsTlsAcceptor (env.answering settings)
        (env.keeping settings).metricsTlsCert (env.keeping settings).metricsTlsKey =
        buildMetricsTlsAcceptor env settings.metricsTlsCert settings.metricsTlsKey := rfl
    rw [tls]
    refine bind_congr fun tls => bind_congr fun globalLimit => bind_congr fun globalConnecting => ?_
    have relays : bindRelays env settings globalLimit globalConnecting 0 settings.relays =
        bindRelays (env.answering settings) (env.keeping settings) globalLimit globalConnecting 0
          (env.kept settings) := by
      have kept : bindRelays env settings globalLimit globalConnecting 0 settings.relays =
          bindRelays (env.answering settings) settings globalLimit globalConnecting 0
            (env.kept settings) := by
        refine bindRelays_kept globalLimit globalConnecting fun k relay here => ?_
        rw [Nat.zero_add]
        exact answering_kept here
      exact kept.trans (bindRelays_relays _ _ _ (env.kept settings) _).symm
    have metrics : bindMetrics (env.answering settings) (env.keeping settings).relays.length
        (env.keeping settings).metricsListen =
        bindMetrics env settings.relays.length settings.metricsListen := by
      show bindMetrics (env.answering settings) (env.kept settings).length settings.metricsListen = _
      cases settings.metricsListen with
      | none => rfl
      | some endpoint => rw [bindMetrics, bindMetrics, answering_metrics]
    rw [relays, metrics]
    rfl
  · intro server run
    obtain ⟨_, -, run⟩ := of_bind_ok run
    obtain ⟨tls, -, run⟩ := of_bind_ok run
    obtain ⟨globalLimit, -, run⟩ := of_bind_ok run
    obtain ⟨globalConnecting, -, run⟩ := of_bind_ok run
    obtain ⟨relays, bound, run⟩ := of_bind_ok run
    have specs := bindRelays_specs bound
    split at run
    · cases run
    · rename_i some_
      obtain ⟨metrics, -, run⟩ := of_bind_ok run
      obtain rfl := Except.ok.inj run
      refine ⟨specs, fun empty => some_ ?_⟩
      rw [List.isEmpty_iff, ← List.map_eq_nil_iff (f := BoundRelay.spec), specs]
      exact empty

/-- Two relays and the metrics endpoint. -/
def twoServed : Config.Settings :=
  { serveSettings 8080 (some (loopback 9090)) with
    relays := [serveRelay 8080, { serveRelay 8081 with name := "other".toList }] }

def firstRefused : Environment :=
  ⟨fun _ _ => true, fun call => if call = 0 then .refused else .bound⟩

theorem bind_isolated_first :
    (firstRefused.kept twoServed).map Config.RelaySpec.name = ["other".toList] ∧
      Server.bind firstRefused twoServed =
        Server.bind (firstRefused.answering twoServed) (firstRefused.keeping twoServed) :=
  ⟨by decide, (bind_isolated firstRefused twoServed (by decide)).1 (by decide)⟩

end Portrelay.Binding
