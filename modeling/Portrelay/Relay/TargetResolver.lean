/-
# Relay.TargetResolver -- connecting to a target whose addresses are cached

`TargetResolver` of `src/relay.rs` on a network where each lookup and each connection
attempt takes its time.  `TcpStream::connect` tries the addresses in their order; with a
cache the fresh lookup comes after all cached addresses, under the one `connect_timeout` of
`handle_connection`.

* `connectAddresses_iff` -- addresses connect in time iff the first that answers does.
* `cached_connects_iff` -- the cache loses no target that is connectable without it, iff the
  cached addresses connect in time or fail early enough for the fresh ones.
-/
import Mathlib.Algebra.GroupWithZero.Nat
import Mathlib.Algebra.BigOperators.Group.List.Basic
import Portrelay.Config.Endpoint
import Portrelay.Relay.Socket

namespace Portrelay.Relay

open Portrelay.Config (Text)

set_option autoImplicit false

universe u

/-! ## The network -/

/-- What has come of something, after a time. -/
structure Elapsed (β : Type u) where
  time : Nat
  value : β
  deriving DecidableEq

def Elapsed.after {β : Type u} (before : Nat) (e : Elapsed β) : Elapsed β :=
  ⟨before + e.time, e.value⟩

/-- How lookups of a name and connection attempts to an address of type `α` go. -/
structure Network (α : Type u) where
  lookup : Text → Elapsed (Except IoError (List α))
  attempt : α → Elapsed (Except IoError Unit)

/-- `timeout(limit, ..)`: a result at the deadline is still taken. -/
def timeout {β : Type u} (limit : Nat) (e : Elapsed β) : Option β :=
  if e.time ≤ limit then some e.value else none

namespace Network

variable {α : Type u} (network : Network α)

def couldNotResolve : IoError := .custom .other "could not resolve to any address"

/-- `TcpStream::connect` on addresses, after those that failed with `lastError`. -/
def connectAddresses (lastError : Option IoError) : List α → Elapsed (Except IoError α)
  | [] => ⟨0, .error (lastError.getD couldNotResolve)⟩
  | address :: rest =>
      match (network.attempt address).value with
      | .ok () => ⟨(network.attempt address).time, .ok address⟩
      | .error error =>
          (connectAddresses (some error) rest).after (network.attempt address).time

/-- `TcpStream::connect` on a name. -/
def connectName (name : Text) : Elapsed (Except IoError α) :=
  match (network.lookup name).value with
  | .error error => ⟨(network.lookup name).time, .error error⟩
  | .ok addresses => (network.connectAddresses none addresses).after (network.lookup name).time

end Network

/-! ## The resolver -/

structure TargetResolver (α : Type u) where
  address : Text
  resolved : Option (List α)

namespace TargetResolver

variable {α : Type u}

def new (address : Text) (refreshEnabled : Bool) : TargetResolver α :=
  ⟨address, if refreshEnabled then some [] else none⟩

/-- The resolver after a `refresh` that met this network, and what that returned. -/
def refresh (target : TargetResolver α) (network : Network α) :
    TargetResolver α × Except IoError Nat :=
  match (network.lookup target.address).value with
  | .error error => (target, .error error)
  | .ok addresses =>
      ({ target with resolved := target.resolved.map fun _ => addresses }, .ok addresses.length)

def connect (target : TargetResolver α) (network : Network α) : Elapsed (Except IoError α) :=
  match target.resolved with
  | none => network.connectName target.address
  | some [] => network.connectName target.address
  | some addresses =>
      let cached := network.connectAddresses none addresses
      match cached.value with
      | .ok stream => ⟨cached.time, .ok stream⟩
      | .error cachedError =>
          let fresh := network.connectName target.address
          ⟨cached.time + fresh.time, fresh.value.mapError fun _ => cachedError⟩

/-- A connection task gets its upstream within `connect_timeout`. -/
def Connects (target : TargetResolver α) (network : Network α) (connectTimeout : Nat) : Prop :=
  ∃ stream, timeout connectTimeout (target.connect network) = some (.ok stream)

/-- The resolver of a relay with `dns_refresh` once these refreshes have been made. -/
def refreshed (address : Text) (history : List (Network α)) : TargetResolver α :=
  history.foldl (fun target network => (target.refresh network).1) (.new address true)

end TargetResolver

/-! ## Addresses in their order -/

namespace Network

variable {α : Type u} (network : Network α)

def Answers (address : α) : Prop := (network.attempt address).value = .ok ()

/-- The time all of them take. -/
def span (addresses : List α) : Nat := (addresses.map fun address => (network.attempt address).time).sum

/-- The first address that answers does so by `limit`, when the first is tried at `start`. -/
def ReachedBy (start limit : Nat) (addresses : List α) : Prop :=
  ∃ front address back, addresses = front ++ address :: back ∧
    (∀ other ∈ front, ¬ network.Answers other) ∧ network.Answers address ∧
    start + network.span front + (network.attempt address).time ≤ limit

/-- The lookup of a name that starts at `start` gives addresses that are reached by `limit`. -/
def FoundBy (start limit : Nat) (name : Text) : Prop :=
  ∃ addresses, (network.lookup name).value = .ok addresses ∧
    network.ReachedBy (start + (network.lookup name).time) limit addresses

variable {network}

theorem span_cons (address : α) (rest : List α) :
    network.span (address :: rest) = (network.attempt address).time + network.span rest := by
  rw [span, List.map_cons, List.sum_cons, span]

theorem not_reachedBy_nil (start limit : Nat) : ¬ network.ReachedBy start limit [] := by
  rintro ⟨front, address, back, none_, -⟩
  exact List.append_ne_nil_of_right_ne_nil front (List.cons_ne_nil address back) none_.symm

/-- The first address answers in time, or the others do after it. -/
theorem reachedBy_cons (start limit : Nat) (address : α) (rest : List α) :
    network.ReachedBy start limit (address :: rest) ↔
      network.Answers address ∧ start + (network.attempt address).time ≤ limit ∨
      ¬ network.Answers address ∧
        network.ReachedBy (start + (network.attempt address).time) limit rest := by
  constructor
  · rintro ⟨front, first, back, split, refused, answers, inTime⟩
    cases front with
    | nil =>
        cases split
        exact Or.inl ⟨answers, inTime⟩
    | cons other front =>
        cases split
        rw [span_cons] at inTime
        refine Or.inr ⟨refused address List.mem_cons_self, front, first, back, rfl, ?_, answers, ?_⟩
        · intro other member
          exact refused other (List.mem_cons_of_mem address member)
        · omega
  · rintro (⟨answers, inTime⟩ | ⟨refused, front, first, back, rfl, others, answers, inTime⟩)
    · exact ⟨[], address, rest, rfl, fun _ member => absurd member List.not_mem_nil, answers, inTime⟩
    · refine ⟨address :: front, first, back, rfl, ?_, answers, ?_⟩
      · intro other member
        rcases List.mem_cons.mp member with rfl | member
        · exact refused
        · exact others other member
      · rw [span_cons]
        omega

theorem connectAddresses_of_answers (lastError : Option IoError) {address : α} {rest : List α}
    (answers : network.Answers address) :
    network.connectAddresses lastError (address :: rest) =
      ⟨(network.attempt address).time, .ok address⟩ := by
  have value : (network.attempt address).value = .ok () := answers
  rw [connectAddresses, value]

theorem connectAddresses_of_refused (lastError : Option IoError) {address : α} (rest : List α)
    (refused : ¬ network.Answers address) : ∃ error,
      network.connectAddresses lastError (address :: rest) =
        (network.connectAddresses (some error) rest).after (network.attempt address).time := by
  cases value : (network.attempt address).value with
  | ok _ => exact absurd value refused
  | error error =>
      refine ⟨error, ?_⟩
      rw [connectAddresses, value]

/-- Addresses connect in time if and only if the first that answers is reached in time. -/
theorem connectAddresses_iff (lastError : Option IoError) (start limit : Nat) (addresses : List α) :
    (start + (network.connectAddresses lastError addresses).time ≤ limit ∧
      ∃ stream, (network.connectAddresses lastError addresses).value = .ok stream) ↔
      network.ReachedBy start limit addresses := by
  induction addresses generalizing lastError start with
  | nil =>
      refine iff_of_false ?_ (not_reachedBy_nil start limit)
      rintro ⟨-, stream, impossible⟩
      cases impossible
  | cons address rest ih =>
      rw [reachedBy_cons]
      by_cases answers : network.Answers address
      · rw [connectAddresses_of_answers lastError answers]
        simp [answers]
      · obtain ⟨error, later⟩ := connectAddresses_of_refused lastError rest answers
        rw [later, ← ih (some error)]
        simp only [Elapsed.after, answers, false_and, false_or, not_false_eq_true, true_and,
          Nat.add_assoc]

/-- Where one address answers, connecting succeeds, in whatever time. -/
theorem connectAddresses_ok (lastError : Option IoError) {addresses : List α}
    (some_ : ∃ address ∈ addresses, network.Answers address) :
    ∃ stream, (network.connectAddresses lastError addresses).value = .ok stream := by
  obtain ⟨answering, member, answers⟩ := some_
  induction addresses generalizing lastError with
  | nil => exact absurd member List.not_mem_nil
  | cons address rest ih =>
      by_cases first : network.Answers address
      · rw [connectAddresses_of_answers lastError first]
        exact ⟨address, rfl⟩
      · obtain ⟨error, later⟩ := connectAddresses_of_refused lastError rest first
        rw [later]
        rcases List.mem_cons.mp member with rfl | member
        · exact absurd answers first
        · exact ih (some error) member

/-- Where none does, it fails after all of them. -/
theorem connectAddresses_error (lastError : Option IoError) {addresses : List α}
    (refused : ∀ address ∈ addresses, ¬ network.Answers address) :
    ∃ error, network.connectAddresses lastError addresses =
      ⟨network.span addresses, .error error⟩ := by
  induction addresses generalizing lastError with
  | nil => exact ⟨_, rfl⟩
  | cons address rest ih =>
      obtain ⟨error, later⟩ := connectAddresses_of_refused lastError rest
        (refused address List.mem_cons_self)
      obtain ⟨last, others⟩ := ih (some error) fun other member =>
        refused other (List.mem_cons_of_mem address member)
      refine ⟨last, ?_⟩
      rw [later, others, span_cons]
      rfl

theorem connectName_iff (start limit : Nat) (name : Text) :
    (start + (network.connectName name).time ≤ limit ∧
      ∃ stream, (network.connectName name).value = .ok stream) ↔
      network.FoundBy start limit name := by
  unfold connectName FoundBy
  cases value : (network.lookup name).value with
  | error error => simp
  | ok addresses =>
      have reached : ∀ start, _ ↔ network.ReachedBy start limit addresses :=
        fun start => connectAddresses_iff none start limit addresses
      simp only [Except.ok.injEq, exists_eq_left', ← reached, Elapsed.after, Nat.add_assoc]

end Network

/-! ## With and without the cache -/

/-- The addresses of the last refresh that found any list, or none. -/
def lastResolved {α : Type u} (address : Text) (history : List (Network α)) : List α :=
  (history.filterMap fun network => (network.lookup address).value.toOption).getLast?.getD []

namespace TargetResolver

variable {α : Type u}

/-- A refresh that fails leaves the cache as it was. -/
theorem refreshed_eq (address : Text) (history : List (Network α)) :
    refreshed address history = ⟨address, some (lastResolved address history)⟩ := by
  induction history using List.reverseRecOn with
  | nil => rfl
  | append_singleton history network ih =>
      rw [refreshed] at ih ⊢
      rw [List.foldl_append, ih, lastResolved, lastResolved, List.filterMap_append]
      show (refresh _ network).1 = _
      unfold refresh
      cases found : (network.lookup address).value with
      | error error => simp [found, Except.toOption]
      | ok addresses => simp [found, Except.toOption]

theorem connects_iff (target : TargetResolver α) (network : Network α) (connectTimeout : Nat) :
    target.Connects network connectTimeout ↔
      (target.connect network).time ≤ connectTimeout ∧
        ∃ stream, (target.connect network).value = .ok stream := by
  constructor
  · rintro ⟨stream, inTime⟩
    obtain ⟨le, value⟩ := Option.ite_none_right_eq_some.mp inTime
    exact ⟨le, stream, Option.some.inj value⟩
  · rintro ⟨le, stream, value⟩
    refine ⟨stream, ?_⟩
    rw [timeout, if_pos le, value]

/-- Without addresses in a cache the name is looked up. -/
theorem connects_fresh_iff {target : TargetResolver α} (network : Network α) (connectTimeout : Nat)
    (fresh : target.connect network = network.connectName target.address) :
    target.Connects network connectTimeout ↔
      network.FoundBy 0 connectTimeout target.address := by
  rw [connects_iff, fresh, ← Network.connectName_iff, Nat.zero_add]

/-- One cached address answers: the name is not looked up. -/
theorem connect_of_answers (address : Text) {first : α} {rest : List α} {network : Network α}
    (answers : ∃ other ∈ first :: rest, network.Answers other) :
    connect ⟨address, some (first :: rest)⟩ network =
      network.connectAddresses none (first :: rest) := by
  obtain ⟨stream, value⟩ := Network.connectAddresses_ok none answers
  simp only [connect, value]
  rw [← value]

/-- None does: the name is looked up after all of them. -/
theorem connect_of_refused (address : Text) {first : α} {rest : List α} {network : Network α}
    (refused : ∀ other ∈ first :: rest, ¬ network.Answers other) : ∃ cachedError,
    connect ⟨address, some (first :: rest)⟩ network =
      ⟨network.span (first :: rest) + (network.connectName address).time,
        (network.connectName address).value.mapError fun _ => cachedError⟩ := by
  obtain ⟨cachedError, failed⟩ := Network.connectAddresses_error none refused
  refine ⟨cachedError, ?_⟩
  simp only [connect, failed]

theorem mapError_ok_iff {β : Type u} (f : IoError → IoError) (result : Except IoError β) :
    (∃ value, result.mapError f = .ok value) ↔ ∃ value, result = .ok value := by
  cases result with
  | ok value => exact iff_of_true ⟨value, rfl⟩ ⟨value, rfl⟩
  | error error =>
      refine iff_of_false ?_ ?_
      · rintro ⟨value, impossible⟩
        cases impossible
      · rintro ⟨value, impossible⟩
        cases impossible

/-- Cached addresses connect in time, or they all fail early enough for fresh ones. -/
theorem connects_cached_iff (address : Text) {stale : List α} (some_ : stale ≠ [])
    (network : Network α) (connectTimeout : Nat) :
    Connects ⟨address, some stale⟩ network connectTimeout ↔
      network.ReachedBy 0 connectTimeout stale ∨
        (∀ other ∈ stale, ¬ network.Answers other) ∧
          network.FoundBy (network.span stale) connectTimeout address := by
  obtain ⟨first, rest, rfl⟩ := List.exists_cons_of_ne_nil some_
  rw [connects_iff]
  by_cases refused : ∀ other ∈ first :: rest, ¬ network.Answers other
  · have unreached : ¬ network.ReachedBy 0 connectTimeout (first :: rest) := by
      rintro ⟨front, other, back, split, -, answers, -⟩
      apply refused other _ answers
      rw [split]
      exact List.mem_append_right front List.mem_cons_self
    obtain ⟨cachedError, connected⟩ := connect_of_refused address refused
    rw [connected, or_iff_right unreached, and_iff_right refused, ← Network.connectName_iff]
    exact and_congr_right fun _ => mapError_ok_iff _ _
  · have answers : ∃ other ∈ first :: rest, network.Answers other := by
      simpa only [not_forall, not_not, exists_prop] using refused
    have reached : _ ↔ network.ReachedBy 0 connectTimeout (first :: rest) :=
      Network.connectAddresses_iff none 0 connectTimeout (first :: rest)
    rw [connect_of_answers address answers, or_iff_left fun both => refused both.1, ← reached,
      Nat.zero_add]

end TargetResolver

/-- A target that is connectable without the cache is connectable with it, if and only if
the cache is empty, one of its addresses is reached in time, or all of them fail so early
that there is time for the lookup and the addresses it finds. -/
theorem cached_connects_iff {α : Type u} (address : Text) (history : List (Network α))
    (network : Network α) (connectTimeout : Nat) :
    ((TargetResolver.new address false).Connects network connectTimeout →
        (TargetResolver.refreshed address history).Connects network connectTimeout) ↔
      (network.FoundBy 0 connectTimeout address → lastResolved address history = [] ∨
        network.ReachedBy 0 connectTimeout (lastResolved address history) ∨
        (∀ other ∈ lastResolved address history, ¬ network.Answers other) ∧
          network.FoundBy (network.span (lastResolved address history)) connectTimeout address) := by
  rw [TargetResolver.connects_fresh_iff network connectTimeout rfl, TargetResolver.refreshed_eq]
  refine imp_congr_right fun found => ?_
  by_cases empty : lastResolved address history = []
  · refine iff_of_true ?_ (Or.inl empty)
    rw [empty]
    exact (TargetResolver.connects_fresh_iff network connectTimeout rfl).mpr found
  · rw [TargetResolver.connects_cached_iff address empty, or_iff_right empty]

/-- Two addresses: 1 takes 20 s to fail and 2 answers in 1 ms; the name is found at `address`. -/
def movedTo (address : Nat) : Network Nat where
  lookup _ := ⟨1_000_000, .ok [address]⟩
  attempt address :=
    if address = 1 then ⟨20_000_000_000, .error (.os .timedOut)⟩ else ⟨1_000_000, .ok ()⟩

/-- A stale address that hangs: without the cache the target is connected to in 2 ms. -/
theorem stale_address_hangs :
    timeout 10_000_000_000
        ((TargetResolver.new "db:5432".toList false).connect (movedTo 2)) = some (.ok 2) ∧
      timeout 10_000_000_000
        ((TargetResolver.refreshed "db:5432".toList [movedTo 1]).connect (movedTo 2)) = none := by
  decide

end Portrelay.Relay
