/-
# Relay.Routing -- connects and refreshes, interleaved

`refresh_target_loop` stores what it resolves while connection tasks connect: a task reads
the cache once, tries the addresses it has read, one after the other, and then looks the name
up itself.  One step is one store, one load, one answer of the resolver, or the end of one
attempt; the resolver and the network may answer anything at any time.

* `Dial.Made` -- what a connect has loaded, looked up and tried, phase by phase.
* `routed` -- whatever is refreshed meanwhile, a relay's task tries only addresses that its
  own target was resolved to, those it has loaded and then those it has looked up.
* `connect_refined` -- alone on a network that does not change, the steps of a task are
  `TargetResolver.connect`.
-/
import Mathlib.Logic.Relation
import Portrelay.Theory.Drive
import Portrelay.Theory.Machine
import Portrelay.Relay.TargetResolver

namespace Portrelay.Relay

open Portrelay.Theory
open Portrelay.Config (Text)

set_option autoImplicit false

universe u

variable {α : Type u}

/-! ## One connect -/

/-- Where `TargetResolver::connect` is. -/
inductive DialPhase (α : Type u)
  /-- before `resolved.load()` -/
  | loading
  /-- in the attempt on `address`, with the rest of the cached addresses after it -/
  | cached (address : α) (rest : List α)
  /-- in `lookup_host`, after the cached addresses failed with the error, if there were any -/
  | resolving (cachedError : Option IoError)
  | fresh (cachedError : Option IoError) (address : α) (rest : List α)
  | ended (result : Except IoError α)

inductive DialEvent (α : Type u)
  | load
  | attempt (result : Except IoError Unit)
  | looked (answer : Except IoError (List α))

/-- A connection task in `connect`, and what it has seen: the addresses it loaded, the answer
of its lookup and the attempts it has made. -/
structure Dial (α : Type u) where
  relay : Nat
  phase : DialPhase α
  loaded : List α
  looked : Option (Except IoError (List α))
  tried : List (α × Except IoError Unit)

namespace Dial

def start (relay : Nat) : Dial α := ⟨relay, .loading, [], none, []⟩

def step (target : TargetResolver α) (d : Dial α) : DialEvent α → Option (Dial α)
  | .load =>
      match d.phase with
      | .loading =>
          match target.resolved with
          | some (address :: rest) =>
              some { d with phase := .cached address rest, loaded := address :: rest }
          | _ => some { d with phase := .resolving none }
      | _ => none
  | .attempt result =>
      match d.phase with
      | .cached address rest =>
          let phase := match result, rest with
            | .ok (), _ => .ended (.ok address)
            | .error _, next :: rest => .cached next rest
            | .error error, [] => .resolving (some error)
          some { d with phase, tried := d.tried ++ [(address, result)] }
      | .fresh cachedError address rest =>
          let phase := match result, rest with
            | .ok (), _ => .ended (.ok address)
            | .error _, next :: rest => .fresh cachedError next rest
            | .error error, [] => .ended (.error (cachedError.getD error))
          some { d with phase, tried := d.tried ++ [(address, result)] }
      | _ => none
  | .looked answer =>
      match d.phase with
      | .resolving cachedError =>
          let phase := match answer with
            | .error error => .ended (.error (cachedError.getD error))
            | .ok [] => .ended (.error (cachedError.getD Network.couldNotResolve))
            | .ok (address :: rest) => .fresh cachedError address rest
          some { d with phase, looked := some answer }
      | _ => none

end Dial

/-! ## All of them, and the refreshes -/

/-- What a refresh that was answered so leaves in the cache. -/
def TargetResolver.stored (target : TargetResolver α) :
    Except IoError (List α) → TargetResolver α
  | .error _ => target
  | .ok addresses => { target with resolved := target.resolved.map fun _ => addresses }

theorem TargetResolver.refresh_stored (target : TargetResolver α) (network : Network α) :
    (target.refresh network).1 = target.stored (network.lookup target.address).value := by
  unfold refresh stored
  cases (network.lookup target.address).value <;> rfl

/-- The resolvers of the relays, the connects, and what each name was ever resolved to. -/
structure Routing (α : Type u) where
  targets : List (TargetResolver α)
  dials : List (Dial α)
  found : List (Text × List α)

inductive RoutingLabel (α : Type u)
  /-- a refresh of the relay's target, at start or by its `refresh_target_loop`, is answered -/
  | refresh (relay : Nat) (answer : Except IoError (List α))
  /-- a connection task of the relay begins to connect -/
  | connect (relay : Nat)
  | dial (index : Nat) (event : DialEvent α)

namespace Routing

/-- What the resolver has answered about a name. -/
def answered (name : Text) : Except IoError (List α) → List (Text × List α)
  | .error _ => []
  | .ok addresses => [(name, addresses)]

def heard (name : Text) : DialEvent α → List (Text × List α)
  | .looked answer => answered name answer
  | _ => []

def step (s : Routing α) : RoutingLabel α → Option (Routing α)
  | .refresh relay answer =>
      match s.targets[relay]? with
      | none => none
      | some target =>
          some { s with
            targets := s.targets.set relay (target.stored answer)
            found := answered target.address answer ++ s.found }
  | .connect relay =>
      if relay < s.targets.length then some { s with dials := s.dials ++ [.start relay] } else none
  | .dial index event =>
      match s.dials[index]? with
      | none => none
      | some d =>
          match s.targets[d.relay]? with
          | none => none
          | some target =>
              (d.step target event).map fun after =>
                { s with
                  dials := s.dials.set index after
                  found := heard target.address event ++ s.found }

/-- The relays' targets, each with whether it has a `dns_refresh`. -/
def machine (α : Type u) (specs : List (Text × Bool)) : Machine (Routing α) (RoutingLabel α) :=
  ⟨fun s => s = ⟨specs.map fun spec => .new spec.1 spec.2, [], []⟩, step⟩

end Routing

/-! ## What a connect has made -/

namespace Dial

/-- None of the attempts succeeded. -/
def Refused (tried : List (α × Except IoError Unit)) : Prop :=
  ∀ attempt ∈ tried, ∃ error, attempt.2 = .error error

/-- The error of the last attempt, if there was any. -/
def lastError (tried : List (α × Except IoError Unit)) : Option IoError :=
  tried.getLast?.bind fun attempt =>
    match attempt.2 with
    | .ok () => none
    | .error error => some error

/-- The addresses that the task's own lookup gave. -/
def answer (d : Dial α) : List α :=
  match d.looked with
  | some (.ok addresses) => addresses
  | _ => []

/-- The error of a connect that has failed: of the last loaded address, if any was loaded, else
of the lookup or of the last address that it gave. -/
def failure (d : Dial α) : IoError :=
  (lastError (d.tried.take d.loaded.length)).getD
    (match d.looked with
      | some (.error error) => error
      | _ => (lastError d.tried).getD Network.couldNotResolve)

/-- What a connect has loaded, looked up and tried, in the phase it is in. -/
def Made (d : Dial α) : Prop :=
  match d.phase with
  | .loading => d.loaded = [] ∧ d.looked = none ∧ d.tried = []
  | .cached address rest =>
      d.looked = none ∧ Refused d.tried ∧ d.tried.map Prod.fst ++ address :: rest = d.loaded
  | .resolving cachedError =>
      d.looked = none ∧ Refused d.tried ∧ d.tried.map Prod.fst = d.loaded ∧
        cachedError = lastError d.tried
  | .fresh cachedError address rest =>
      (∃ found, d.looked = some (.ok found)) ∧ Refused d.tried ∧
        d.tried.map Prod.fst ++ address :: rest = d.loaded ++ d.answer ∧
        d.loaded.length ≤ d.tried.length ∧
        cachedError = lastError (d.tried.take d.loaded.length)
  | .ended (.ok address) =>
      ∃ front rest, d.tried = front ++ [(address, .ok ())] ∧ Refused front ∧
        front.map Prod.fst ++ address :: rest = d.loaded ++ d.answer
  | .ended (.error error) =>
      Refused d.tried ∧ d.looked ≠ none ∧ d.tried.map Prod.fst = d.loaded ++ d.answer ∧
        error = d.failure

theorem start_made (relay : Nat) : (start relay : Dial α).Made := ⟨rfl, rfl, rfl⟩

theorem refused_concat {tried : List (α × Except IoError Unit)} (refused : Refused tried)
    (address : α) (error : IoError) : Refused (tried ++ [(address, .error error)]) := by
  intro attempt member
  rcases List.mem_append.mp member with before | last
  · exact refused attempt before
  · rw [List.mem_singleton.mp last]
    exact ⟨error, rfl⟩

theorem lastError_concat (tried : List (α × Except IoError Unit)) (address : α) (error : IoError) :
    lastError (tried ++ [(address, .error error)]) = some error := by
  simp [lastError]

/-- What a connect has made, in the phase it is in. -/
theorem Made.at_ {d : Dial α} (made : d.Made) {phase : DialPhase α} (here : d.phase = phase) :
    ({ d with phase } : Dial α).Made := by
  subst here
  exact made

theorem load_made {target : TargetResolver α} {d after : Dial α} (made : d.Made)
    (stepped : d.step target .load = some after) : after.Made := by
  simp only [step] at stepped
  split at stepped <;> [skip; cases stepped]
  rename_i phase
  obtain ⟨unloaded, unlooked, untried⟩ := made.at_ phase
  simp only at unloaded unlooked untried
  split at stepped
  · obtain rfl := Option.some.inj stepped
    refine ⟨unlooked, ?_, ?_⟩
    · rw [untried]
      exact fun attempt member => absurd member List.not_mem_nil
    · simp only [untried, List.map_nil, List.nil_append]
  · obtain rfl := Option.some.inj stepped
    refine ⟨unlooked, ?_, ?_, ?_⟩
    · rw [untried]
      exact fun attempt member => absurd member List.not_mem_nil
    · simp only [untried, unloaded, List.map_nil]
    · rw [untried]
      rfl

theorem looked_made {target : TargetResolver α} {d after : Dial α}
    {found : Except IoError (List α)} (made : d.Made)
    (stepped : d.step target (.looked found) = some after) : after.Made := by
  simp only [step] at stepped
  split at stepped <;> [skip; cases stepped]
  rename_i cachedError phase
  obtain ⟨unlooked, refused, all, last⟩ := made.at_ phase
  simp only at unlooked refused all last
  have whole : d.tried.take d.loaded.length = d.tried := by
    rw [← all, List.length_map, List.take_length]
  obtain rfl := Option.some.inj stepped
  cases found with
  | error error =>
      refine ⟨refused, by simp, ?_, ?_⟩
      · simp only [answer, List.append_nil, all]
      · simp only [failure, whole, last]
  | ok addresses =>
      cases addresses with
      | nil =>
          refine ⟨refused, by simp, ?_, ?_⟩
          · simp only [answer, List.append_nil, all]
          · simp only [failure, whole, ← last]
            cases cachedError <;> rfl
      | cons address rest =>
          refine ⟨⟨_, rfl⟩, refused, ?_, ?_, ?_⟩
          · simp only [answer, all]
          · rw [← all, List.length_map]
          · simp only [whole, last]

theorem attempt_made {target : TargetResolver α} {d after : Dial α}
    {result : Except IoError Unit} (made : d.Made)
    (stepped : d.step target (.attempt result) = some after) : after.Made := by
  simp only [step] at stepped
  split at stepped <;> [skip; skip; cases stepped]
  · rename_i address rest phase
    obtain ⟨unlooked, refused, all⟩ := made.at_ phase
    simp only at unlooked refused all
    obtain rfl := Option.some.inj stepped
    cases result with
    | ok done =>
        refine ⟨d.tried, rest, rfl, refused, ?_⟩
        simp only [answer, unlooked, List.append_nil, all]
    | error error =>
        cases rest with
        | nil =>
            refine ⟨unlooked, refused_concat refused address error, ?_, ?_⟩
            · simp only [List.map_append, List.map_cons, List.map_nil, all]
            · rw [lastError_concat]
        | cons next rest =>
            refine ⟨unlooked, refused_concat refused address error, ?_⟩
            simp only [List.map_append, List.map_cons, List.map_nil, List.append_assoc,
              List.cons_append, List.nil_append, all]
  · rename_i cachedError address rest phase
    obtain ⟨⟨found, looked⟩, refused, all, beyond, last⟩ := made.at_ phase
    simp only at looked refused all beyond last
    obtain rfl := Option.some.inj stepped
    cases result with
    | ok done => exact ⟨d.tried, rest, rfl, refused, all⟩
    | error error =>
        have first : (d.tried ++ [(address, Except.error error)]).take d.loaded.length =
            d.tried.take d.loaded.length := List.take_append_of_le_length beyond
        cases rest with
        | nil =>
            refine ⟨refused_concat refused address error, ?_, ?_, ?_⟩
            · rw [looked]
              exact Option.some_ne_none _
            · simp only [List.map_append, List.map_cons, List.map_nil]
              exact all
            · simp only [failure, first, looked, lastError_concat, last]
              rfl
        | cons next rest =>
            refine ⟨⟨found, looked⟩, refused_concat refused address error, ?_, ?_, ?_⟩
            · simp only [List.map_append, List.map_cons, List.map_nil, List.append_assoc,
                List.cons_append, List.nil_append]
              exact all
            · rw [List.length_append]
              exact Nat.le_add_right_of_le beyond
            · rw [first]
              exact last

theorem step_made {target : TargetResolver α} {d after : Dial α} {event : DialEvent α}
    (made : d.Made) (stepped : d.step target event = some after) : after.Made := by
  cases event with
  | load => exact load_made made stepped
  | attempt result => exact attempt_made made stepped
  | looked found => exact looked_made made stepped

/-- The attempts were made in the order of the loaded addresses and then of those looked up. -/
theorem Made.tried_prefix {d : Dial α} (made : d.Made) :
    d.tried.map Prod.fst <+: d.loaded ++ d.answer := by
  cases phase : d.phase with
  | loading =>
      obtain ⟨-, -, untried⟩ := made.at_ phase
      simp only at untried
      rw [untried]
      exact List.nil_prefix
  | cached address rest =>
      obtain ⟨-, -, all⟩ := made.at_ phase
      simp only at all
      rw [← all, List.append_assoc]
      exact List.prefix_append _ _
  | resolving cachedError =>
      obtain ⟨-, -, all, -⟩ := made.at_ phase
      simp only at all
      rw [all]
      exact List.prefix_append _ _
  | fresh cachedError address rest =>
      obtain ⟨-, -, all, -⟩ := made.at_ phase
      exact ⟨address :: rest, all⟩
  | ended result =>
      cases result with
      | error error =>
          obtain ⟨-, -, all, -⟩ := made.at_ phase
          simp only at all
          rw [all]
          exact List.prefix_rfl
      | ok address =>
          obtain ⟨front, rest, tried, -, all⟩ := made.at_ phase
          simp only at tried all
          refine ⟨rest, ?_⟩
          rw [tried, List.map_append, List.map_cons, List.map_nil, List.append_assoc]
          exact all

/-- What a connect has loaded and looked up was found for the name. -/
structure From (name : Text) (found : List (Text × List α)) (d : Dial α) : Prop where
  loaded : d.loaded = [] ∨ (name, d.loaded) ∈ found
  looked : ∀ addresses, d.looked = some (.ok addresses) → (name, addresses) ∈ found

theorem From.more {name : Text} {found : List (Text × List α)} {d : Dial α}
    (sound : d.From name found) (heard : List (Text × List α)) : d.From name (heard ++ found) :=
  ⟨sound.loaded.imp_right (List.mem_append_right heard),
    fun addresses looked => List.mem_append_right heard (sound.looked addresses looked)⟩

theorem step_relay {target : TargetResolver α} {d after : Dial α} {event : DialEvent α}
    (stepped : d.step target event = some after) : after.relay = d.relay := by
  cases event with
  | load =>
      simp only [step] at stepped
      split at stepped <;> [skip; cases stepped]
      split at stepped <;> cases stepped <;> rfl
  | attempt result =>
      simp only [step] at stepped
      split at stepped <;> cases stepped <;> rfl
  | looked answer =>
      simp only [step] at stepped
      split at stepped <;> cases stepped
      rfl

/-- A connect loads the cache as it is, or nothing. -/
theorem step_loaded {target : TargetResolver α} {d after : Dial α} {event : DialEvent α}
    (stepped : d.step target event = some after) :
    after.loaded = d.loaded ∨ target.resolved = some after.loaded := by
  cases event with
  | load =>
      simp only [step] at stepped
      split at stepped <;> [skip; cases stepped]
      split at stepped
      · rename_i resolved
        cases stepped
        exact Or.inr resolved
      · cases stepped
        exact Or.inl rfl
  | attempt result =>
      simp only [step] at stepped
      split at stepped <;> cases stepped <;> exact Or.inl rfl
  | looked answer =>
      simp only [step] at stepped
      split at stepped <;> cases stepped
      exact Or.inl rfl

theorem step_looked {target : TargetResolver α} {d after : Dial α} {event : DialEvent α}
    (stepped : d.step target event = some after) :
    after.looked = d.looked ∨ ∃ answer, event = .looked answer ∧ after.looked = some answer := by
  cases event with
  | load =>
      simp only [step] at stepped
      split at stepped <;> [skip; cases stepped]
      split at stepped <;> cases stepped <;> exact Or.inl rfl
  | attempt result =>
      simp only [step] at stepped
      split at stepped <;> cases stepped <;> exact Or.inl rfl
  | looked answer =>
      simp only [step] at stepped
      split at stepped <;> cases stepped
      exact Or.inr ⟨answer, rfl, rfl⟩

theorem step_from {target : TargetResolver α} {d after : Dial α} {event : DialEvent α}
    {found : List (Text × List α)} (sound : d.From target.address found)
    (cache : ∀ addresses, target.resolved = some addresses →
      addresses = [] ∨ (target.address, addresses) ∈ found)
    (stepped : d.step target event = some after) :
    after.From target.address (Routing.heard target.address event ++ found) := by
  have before := sound.more (Routing.heard target.address event)
  constructor
  · rcases step_loaded stepped with same | loads
    · rw [same]
      exact before.loaded
    · exact (cache _ loads).imp_right (List.mem_append_right _)
  · intro addresses looked
    rcases step_looked stepped with same | ⟨answer, rfl, answered⟩
    · exact before.looked addresses (same ▸ looked)
    · rw [answered] at looked
      cases looked
      exact List.mem_append_left found List.mem_cons_self

end Dial

/-! ## Every interleaving -/

namespace Routing

variable {specs : List (Text × Bool)}

/-- What is cached and what connects have seen was found for the names of their relays. -/
structure Sound (specs : List (Text × Bool)) (s : Routing α) : Prop where
  targets : ∀ (relay : Nat) (target : TargetResolver α), s.targets[relay]? = some target →
    ∃ spec, specs[relay]? = some spec ∧ target.address = spec.1 ∧
      target.resolved.isSome = spec.2 ∧
      ∀ addresses, target.resolved = some addresses → addresses = [] ∨ (spec.1, addresses) ∈ s.found
  dials : ∀ d ∈ s.dials, d.Made ∧ ∃ spec, specs[d.relay]? = some spec ∧ d.From spec.1 s.found ∧
    (spec.2 = false → d.loaded = [])

theorem initial_sound : Sound specs
    (⟨specs.map fun spec => .new spec.1 spec.2, [], []⟩ : Routing α) := by
  constructor
  · intro relay target found
    rw [List.getElem?_map] at found
    obtain ⟨spec, given, rfl⟩ := Option.map_eq_some_iff.mp found
    refine ⟨spec, given, rfl, ?_, ?_⟩
    · unfold TargetResolver.new
      cases spec.2 <;> rfl
    · intro addresses resolved
      have fresh : (if spec.2 = true then some ([] : List α) else none) = some addresses := resolved
      obtain ⟨-, same⟩ := Option.ite_none_right_eq_some.mp fresh
      exact Or.inl (Option.some.inj same).symm
  · intro d member
    cases member

theorem refresh_sound {s : Routing α} {relay : Nat} {target : TargetResolver α}
    {answer : Except IoError (List α)} (sound : s.Sound specs)
    (found : s.targets[relay]? = some target) :
    Sound specs { s with
      targets := s.targets.set relay (target.stored answer)
      found := answered target.address answer ++ s.found } := by
  constructor
  · intro r after found'
    simp only [List.getElem?_set] at found'
    split at found'
    · rename_i here
      subst here
      split at found' <;> cases found'
      obtain ⟨spec, given, name, enabled, cache⟩ := sound.targets relay target found
      refine ⟨spec, given, ?_, ?_, ?_⟩
      · cases answer <;> exact name
      · cases answer with
        | error error => exact enabled
        | ok addresses =>
            simp only [TargetResolver.stored, Option.isSome_map]
            exact enabled
      · intro addresses resolved
        cases answer with
        | error error => exact (cache addresses resolved).imp_right (List.mem_append_right _)
        | ok stored =>
            obtain ⟨before, -, rfl⟩ := Option.map_eq_some_iff.mp resolved
            rw [name]
            exact Or.inr List.mem_cons_self
    · obtain ⟨spec, given, name, enabled, cache⟩ := sound.targets r after found'
      refine ⟨spec, given, name, enabled, ?_⟩
      intro addresses resolved
      exact (cache addresses resolved).imp_right (List.mem_append_right _)
  · intro d member
    obtain ⟨made, spec, given, seen, without⟩ := sound.dials d member
    exact ⟨made, spec, given, seen.more _, without⟩

theorem step_sound {s t : Routing α} {label : RoutingLabel α} (sound : s.Sound specs)
    (stepped : s.step label = some t) : t.Sound specs := by
  cases label with
  | refresh relay answer =>
      simp only [step] at stepped
      split at stepped <;> cases stepped
      exact refresh_sound sound ‹_›
  | connect relay =>
      obtain ⟨inside, same⟩ := Option.ite_none_right_eq_some.mp stepped
      cases same
      refine ⟨sound.targets, ?_⟩
      intro d member
      rcases List.mem_append.mp member with old | new
      · exact sound.dials d old
      · obtain rfl := List.mem_singleton.mp new
        obtain ⟨spec, given, -⟩ := sound.targets relay _ (List.getElem?_eq_getElem inside)
        exact ⟨Dial.start_made relay, spec, given, ⟨Or.inl rfl, nofun⟩, fun _ => rfl⟩
  | dial index event =>
      simp only [step] at stepped
      split at stepped <;> [cases stepped; skip]
      rename_i d here
      split at stepped <;> [cases stepped; skip]
      rename_i target found
      obtain ⟨after, moved, rfl⟩ := Option.map_eq_some_iff.mp stepped
      obtain ⟨spec', given', name, enabled, cache⟩ := sound.targets d.relay target found
      constructor
      · intro relay other found'
        obtain ⟨spec, given, same, on, stays⟩ := sound.targets relay other found'
        refine ⟨spec, given, same, on, ?_⟩
        intro addresses resolved
        exact (stays addresses resolved).imp_right (List.mem_append_right _)
      · intro u member
        rcases List.mem_or_eq_of_mem_set member with old | rfl
        · obtain ⟨made, spec, given, seen, without⟩ := sound.dials u old
          exact ⟨made, spec, given, seen.more _, without⟩
        · obtain ⟨made, spec, given, seen, without⟩ := sound.dials d (List.mem_of_getElem? here)
          rw [given'] at given
          cases given
          refine ⟨Dial.step_made made moved, spec', (Dial.step_relay moved).symm ▸ given', ?_, ?_⟩
          · rw [← name] at cache seen ⊢
            exact Dial.step_from seen cache moved
          · intro disabled
            rcases Dial.step_loaded moved with same | loads
            · exact same.trans (without disabled)
            · rw [loads, disabled] at enabled
              cases enabled

theorem reachable_sound {s : Routing α} (reached : (machine α specs).Reachable s) :
    s.Sound specs := by
  refine (machine α specs).invariant (P := Sound specs) ?_ ?_ reached
  · rintro s rfl
    exact initial_sound
  · intro s label t _ sound stepped
    exact step_sound sound stepped

/-- Whatever is refreshed and answered meanwhile, a connect of a relay tries only addresses that
the relay's own target was resolved to.  It loads nothing or one whole answer, tries that and
then what it looked up in their order, as far as it gets; it ends with the first address that
accepts, and fails only when all have failed, with the error of the last loaded one if any was
loaded. -/
theorem routed {s : Routing α} (reached : (machine α specs).Reachable s) {d : Dial α}
    (member : d ∈ s.dials) :
    ∃ name refreshEnabled, specs[d.relay]? = some (name, refreshEnabled) ∧
      (∀ attempt ∈ d.tried, ∃ addresses, (name, addresses) ∈ s.found ∧ attempt.1 ∈ addresses) ∧
      d.tried.map Prod.fst <+: d.loaded ++ d.answer ∧
      (d.loaded = [] ∨ refreshEnabled = true ∧ (name, d.loaded) ∈ s.found) ∧
      (∀ address, d.phase = .ended (.ok address) → ∃ front rest,
        d.tried = front ++ [(address, .ok ())] ∧ Dial.Refused front ∧
          front.map Prod.fst ++ address :: rest = d.loaded ++ d.answer) ∧
      ∀ error, d.phase = .ended (.error error) →
        Dial.Refused d.tried ∧ d.looked ≠ none ∧ d.tried.map Prod.fst = d.loaded ++ d.answer ∧
          error = d.failure := by
  obtain ⟨made, ⟨name, refreshEnabled⟩, given, seen, without⟩ := (reachable_sound reached).dials d member
  refine ⟨name, refreshEnabled, given, ?_, made.tried_prefix, ?_, ?_, ?_⟩
  · intro attempt tried
    have inside := made.tried_prefix.subset (List.mem_map_of_mem tried)
    rcases List.mem_append.mp inside with loaded | looked
    · rcases seen.loaded with none_ | found
      · rw [none_] at loaded
        cases loaded
      · exact ⟨d.loaded, found, loaded⟩
    · unfold Dial.answer at looked
      split at looked
      · exact ⟨_, seen.looked _ ‹_›, looked⟩
      · cases looked
  · rcases seen.loaded with none_ | found
    · exact Or.inl none_
    · cases refreshEnabled with
      | false => exact Or.inl (without rfl)
      | true => exact Or.inr ⟨rfl, found⟩
  · intro address phase
    exact made.at_ phase
  · intro error phase
    exact made.at_ phase

/-- While a task of the first relay tries the cached address 1, a refresh finds 2. -/
def movedMeanwhile : List (RoutingLabel Nat) :=
  [.refresh 0 (.ok [1]), .refresh 1 (.ok [7]), .connect 0, .dial 0 .load, .refresh 0 (.ok [2]),
    .dial 0 (.attempt (.error (.os .other))), .dial 0 (.looked (.ok [3, 2])),
    .dial 0 (.attempt (.ok ()))]

theorem routed_meanwhile :
    ∃ s d, (machine Nat [("db:5432".toList, true), ("web:80".toList, false)]).exec
        ⟨[.new "db:5432".toList true, .new "web:80".toList false], [], []⟩ movedMeanwhile = some s ∧
      s.dials = [d] ∧ d.tried.map Prod.fst = [1, 3] ∧ [1, 3] <+: d.loaded ++ d.answer ∧
      ∀ attempt ∈ d.tried, ∃ addresses, ("db:5432".toList, addresses) ∈ s.found ∧
        attempt.1 ∈ addresses := by
  have ran : ∃ s d, (machine Nat [("db:5432".toList, true), ("web:80".toList, false)]).exec
      ⟨[.new "db:5432".toList true, .new "web:80".toList false], [], []⟩ movedMeanwhile = some s ∧
      s.dials = [d] ∧ d.relay = 0 ∧ d.tried.map Prod.fst = [1, 3] := ⟨_, _, rfl, rfl, rfl, rfl⟩
  obtain ⟨s, d, ran, one, relay, tried⟩ := ran
  have reached := ((machine Nat _).reachable_iff_exec s).mpr ⟨_, _, rfl, ran⟩
  have member : d ∈ s.dials := by
    rw [one]
    exact List.mem_singleton_self d
  obtain ⟨name, refreshEnabled, given, own, order, -⟩ := routed reached member
  rw [relay] at given
  cases given
  rw [tried] at order
  exact ⟨s, d, ran, one, tried, order, own⟩

end Routing

/-! ## On a network that does not change -/

namespace Dial

/-- What comes next of a connect on a network that does not change. -/
def meets (network : Network α) (target : TargetResolver α) (d : Dial α) :
    Option (Elapsed (DialEvent α)) :=
  match d.phase with
  | .loading => some ⟨0, .load⟩
  | .cached address _ => some ⟨(network.attempt address).time, .attempt (network.attempt address).value⟩
  | .resolving _ =>
      some ⟨(network.lookup target.address).time, .looked (network.lookup target.address).value⟩
  | .fresh _ address _ =>
      some ⟨(network.attempt address).time, .attempt (network.attempt address).value⟩
  | .ended _ => none

def next (network : Network α) (target : TargetResolver α) (e : Elapsed (Dial α)) :
    Option (Elapsed (Dial α)) :=
  (e.value.meets network target).bind fun event =>
    (e.value.step target event.value).map fun after => ⟨e.time + event.time, after⟩

variable {network : Network α} {target : TargetResolver α}

/-- The connect goes on, for a time, to a phase. -/
def Runs (network : Network α) (target : TargetResolver α) (d : Dial α) (time : Nat)
    (phase : DialPhase α) : Prop :=
  ∀ before, ∃ after : Dial α, after.phase = phase ∧
    Relation.ReflTransGen (fun s t => next network target s = some t) ⟨before, d⟩
      ⟨before + time, after⟩

theorem Runs.first {d : Dial α} {time later : Nat} {event : DialEvent α} {m : Dial α}
    {phase : DialPhase α} (met : d.meets network target = some ⟨time, event⟩)
    (stepped : d.step target event = some m) (runs : Runs network target m later phase) :
    Runs network target d (time + later) phase := by
  intro before
  obtain ⟨after, here, path⟩ := runs (before + time)
  refine ⟨after, here, ?_⟩
  rw [← Nat.add_assoc]
  refine .head ?_ path
  simp only [next, met, Option.bind_some, stepped, Option.map_some]

theorem Runs.here {d : Dial α} {phase : DialPhase α} (there : d.phase = phase) :
    Runs network target d 0 phase :=
  fun _ => ⟨d, there, .refl⟩

theorem Runs.trans {d : Dial α} {time later : Nat} {phase last : DialPhase α}
    (runs : Runs network target d time phase)
    (then_ : ∀ m : Dial α, m.phase = phase → Runs network target m later last) :
    Runs network target d (time + later) last := by
  intro before
  obtain ⟨m, there, path⟩ := runs before
  obtain ⟨after, here, more⟩ := then_ m there (before + time)
  exact ⟨after, here, Nat.add_assoc before time later ▸ path.trans more⟩

/-- The cached and the fresh addresses are tried alike: `trying` is the phase at an address, and
`after` the one that the last result leads to. -/
theorem addresses_runs (trying : α → List α → DialPhase α) (after : Except IoError α → DialPhase α)
    (meet : ∀ (d : Dial α) address rest, d.phase = trying address rest → d.meets network target =
      some ⟨(network.attempt address).time, .attempt (network.attempt address).value⟩)
    (move : ∀ (d : Dial α) address rest result, d.phase = trying address rest →
      ∃ m, d.step target (.attempt result) = some m ∧ m.phase =
        match result, rest with
        | .ok (), _ => after (.ok address)
        | .error _, next :: rest => trying next rest
        | .error error, [] => after (.error error))
    (lastError : Option IoError) (address : α) (rest : List α) (d : Dial α)
    (phase : d.phase = trying address rest) :
    Runs network target d (network.connectAddresses lastError (address :: rest)).time
      (after (network.connectAddresses lastError (address :: rest)).value) := by
  induction rest generalizing address lastError d with
  | nil =>
      have met := meet d address [] phase
      rw [Network.connectAddresses]
      cases value : (network.attempt address).value with
      | ok done =>
          rw [value] at met
          obtain ⟨m, moved, ended⟩ := move d address [] (.ok done) phase
          exact Runs.first met moved (.here ended)
      | error error =>
          rw [value] at met
          obtain ⟨m, moved, ended⟩ := move d address [] (.error error) phase
          exact Runs.first met moved (.here ended)
  | cons next rest ih =>
      have met := meet d address (next :: rest) phase
      rw [Network.connectAddresses]
      cases value : (network.attempt address).value with
      | ok done =>
          rw [value] at met
          obtain ⟨m, moved, ended⟩ := move d address (next :: rest) (.ok done) phase
          exact Runs.first met moved (.here ended)
      | error error =>
          rw [value] at met
          obtain ⟨m, moved, there⟩ := move d address (next :: rest) (.error error) phase
          exact Runs.first met moved (ih (some error) next m there)

theorem fresh_runs (cachedError : Option IoError) (address : α) (rest : List α) (d : Dial α)
    (phase : d.phase = .fresh cachedError address rest) :
    Runs network target d (network.connectAddresses none (address :: rest)).time
      (.ended ((network.connectAddresses none (address :: rest)).value.mapError
        fun error => cachedError.getD error)) := by
  refine addresses_runs (fun address rest => .fresh cachedError address rest)
    (fun result => .ended (result.mapError fun error => cachedError.getD error)) ?_ ?_ none address
    rest d phase
  · intro d address rest phase
    simp only [meets, phase]
  · intro d address rest result phase
    refine ⟨_, by simp only [step, phase]; rfl, ?_⟩
    cases result with
    | ok done => rfl
    | error error => cases rest <;> rfl

/-- Where the cached addresses lead. -/
def afterCached : Except IoError α → DialPhase α
  | .ok address => .ended (.ok address)
  | .error error => .resolving (some error)

theorem cached_runs (address : α) (rest : List α) (d : Dial α)
    (phase : d.phase = .cached address rest) :
    Runs network target d (network.connectAddresses none (address :: rest)).time
      (afterCached (network.connectAddresses none (address :: rest)).value) := by
  refine addresses_runs (fun address rest => .cached address rest) afterCached ?_ ?_ none address
    rest d phase
  · intro d address rest phase
    simp only [meets, phase]
  · intro d address rest result phase
    refine ⟨_, by simp only [step, phase]; rfl, ?_⟩
    cases result with
    | ok done => rfl
    | error error => cases rest <;> rfl

theorem resolving_runs (cachedError : Option IoError) (d : Dial α)
    (phase : d.phase = .resolving cachedError) :
    Runs network target d (network.connectName target.address).time
      (.ended ((network.connectName target.address).value.mapError
        fun error => cachedError.getD error)) := by
  have met : d.meets network target =
      some ⟨(network.lookup target.address).time, .looked (network.lookup target.address).value⟩ := by
    simp only [meets, phase]
  unfold Network.connectName
  cases value : (network.lookup target.address).value with
  | error error =>
      rw [value] at met
      exact Runs.first met (by simp only [step, phase]; rfl) (.here rfl)
  | ok addresses =>
      rw [value] at met
      cases addresses with
      | nil => exact Runs.first met (by simp only [step, phase]; rfl) (.here rfl)
      | cons address rest =>
          exact Runs.first met (by simp only [step, phase]; rfl)
            (fresh_runs cachedError address rest _ rfl)

theorem mapError_none (result : Except IoError α) :
    (result.mapError fun error => (none : Option IoError).getD error) = result := by
  cases result <;> rfl

theorem start_runs (relay : Nat) :
    Runs network target (start relay) (target.connect network).time
      (.ended (target.connect network).value) := by
  have uncached : ∀ d : Dial α, d.phase = .resolving none →
      Runs network target d (network.connectName target.address).time
        (.ended (network.connectName target.address).value) := by
    intro d phase
    rw [← mapError_none (network.connectName target.address).value]
    exact resolving_runs none d phase
  have met : (start relay : Dial α).meets network target = some ⟨0, .load⟩ := rfl
  unfold TargetResolver.connect
  cases resolved : target.resolved with
  | none =>
      have runs := Runs.first met (by simp only [step, start, resolved]; rfl) (uncached _ rfl)
      rw [Nat.zero_add] at runs
      exact runs
  | some cache =>
      cases cache with
      | nil =>
          have runs := Runs.first met (by simp only [step, start, resolved]; rfl) (uncached _ rfl)
          rw [Nat.zero_add] at runs
          exact runs
      | cons address rest =>
          have runs := Runs.first met (by simp only [step, start, resolved]; rfl)
            (cached_runs address rest _ rfl)
          rw [Nat.zero_add] at runs
          simp only
          cases value : (network.connectAddresses none (address :: rest)).value with
          | ok stream =>
              rw [value] at runs
              exact runs
          | error cachedError =>
              rw [value] at runs
              exact runs.trans fun m phase => resolving_runs (some cachedError) m phase

/-- Alone on a network that does not change, the steps of a connect come to an end, after the
time and with the result of `TargetResolver.connect`. -/
theorem connect_refined (network : Network α) (target : TargetResolver α) (relay : Nat) :
    ∃ enough, ∀ fuel, enough ≤ fuel →
      let last := drive (next network target) fuel ⟨0, start relay⟩
      last.time = (target.connect network).time ∧
        last.value.phase = .ended (target.connect network).value := by
  have runs : Runs network target (start relay) _ _ := start_runs relay
  obtain ⟨after, ended, path⟩ := runs 0
  rw [Nat.zero_add] at path
  have stuck : next network target ⟨(target.connect network).time, after⟩ = none := by
    simp only [next, meets, ended, Option.bind_none]
  obtain ⟨enough, drives⟩ := drive_of_path path stuck
  refine ⟨enough, ?_⟩
  intro fuel le
  rw [drives fuel le]
  exact ⟨rfl, ended⟩

end Dial

end Portrelay.Relay
