/-
# Relay.Transfer -- two directions, joined, raced against the idle watchdog

The common end of `forward_with_buffer_pool` and `forward_with_splice`: `try_join!`
over the two directions, inside a `select!` with `idle_watchdog` when an idle
timeout is configured.  The unit of execution is one poll of the task: every
future is driven until it is pending, in the order the poll picked (`select!` and
`try_join!` pick it anew each time).  A `Poll` carries that order, the clock and
the socket calls that complete in it; everything else is determined.

The activity channel holds one value: what matters is how many messages were sent
(`sent`), which of them the watchdog has seen, and whether a sender is left.  A
direction's sender lives until the direction returns.
-/
import Portrelay.Relay.Backend

namespace Portrelay.Relay

open Portrelay.Theory

set_option autoImplicit false

/-- `idle_timeout = Some(d)`; `Settings::validate` refuses a zero `d`. -/
structure IdleTimeout where
  nanos : Nat
  pos : 0 < nanos

/-- `idle_watchdog` between two polls: its timer and the last message it saw. -/
structure Watchdog where
  deadline : Nat
  seen : Nat
  deriving DecidableEq, Repr

/-- Its two ways to return: the timer fired, or `activity.changed()` failed. -/
inductive WatchdogExit
  | expired
  | closed
  deriving DecidableEq, Repr

inductive IdlePoll
  | returned (exit : WatchdogExit)
  | pending (watchdog : Watchdog)
  deriving DecidableEq, Repr

/-- What `forward_with_*` returned, and why. -/
inductive Outcome
  | finished (clientToUpstream upstreamToClient : Nat)
  | failed (error : IoError)
  | idle (exit : WatchdogExit)
  deriving DecidableEq

def connectionIdleTimeout : IoError := .custom .timedOut "connection idle timeout"

def Outcome.result : Outcome → Except IoError (Nat × Nat)
  | .finished clientToUpstream upstreamToClient => .ok (clientToUpstream, upstreamToClient)
  | .failed error => .error error
  | .idle _ => .error connectionIdleTimeout

/-- One poll of the task: the clock, the order each `select!` and `try_join!` takes
its branches in, and the calls that complete in each direction. -/
structure Poll where
  now : Nat
  idleFirst : Bool
  timerFirst : Bool
  timerFirstAgain : Bool
  upstreamFirst : Bool
  client : List Io
  upstream : List Io

namespace Watchdog

/-- One pass of the watchdog's `select!` with no unseen message: `changed()` is
ready only if every sender is gone. -/
def pollSeen (w : Watchdog) (now : Nat) (open_ timerFirst : Bool) : IdlePoll :=
  if timerFirst = true ∧ w.deadline ≤ now then .returned .expired
  else if open_ = false then .returned .closed
  else if w.deadline ≤ now then .returned .expired
  else .pending w

/-- A poll of the watchdog: an unseen message moves the timer and goes round the
loop once more. -/
def poll (w : Watchdog) (idle : IdleTimeout) (sent : Nat) (open_ : Bool) (p : Poll) : IdlePoll :=
  if w.seen = sent then w.pollSeen p.now open_ p.timerFirst
  else if p.timerFirst = true ∧ w.deadline ≤ p.now then .returned .expired
  else pollSeen ⟨p.now + idle.nanos, sent⟩ p.now open_ p.timerFirstAgain

theorem pollSeen_open {w : Watchdog} {now : Nat} {timerFirst : Bool} :
    w.pollSeen now true timerFirst =
      if w.deadline ≤ now then .returned .expired else .pending w := by
  unfold pollSeen
  by_cases due : w.deadline ≤ now <;> simp [due]

/-- With a sender left, the watchdog returns only when its timer has expired, and
otherwise goes on with a timer that has not, having seen every message. -/
theorem poll_open (w : Watchdog) (idle : IdleTimeout) (sent : Nat) (p : Poll) :
    (w.poll idle sent true p = .returned .expired ∧ w.deadline ≤ p.now) ∨
    (w.poll idle sent true p = .pending ⟨w.deadline, sent⟩ ∧ w.seen = sent ∧
      p.now < w.deadline) ∨
    (w.poll idle sent true p = .pending ⟨p.now + idle.nanos, sent⟩ ∧ w.seen ≠ sent) := by
  have pos := idle.pos
  unfold poll
  rw [pollSeen_open, pollSeen_open]
  by_cases seen : w.seen = sent
  · rw [if_pos seen]
    by_cases due : w.deadline ≤ p.now
    · rw [if_pos due]
      exact Or.inl ⟨rfl, due⟩
    · rw [if_neg due]
      refine Or.inr (Or.inl ⟨?_, seen, by omega⟩)
      rw [← seen]
  · rw [if_neg seen]
    by_cases first : p.timerFirst = true ∧ w.deadline ≤ p.now
    · rw [if_pos first]
      exact Or.inl ⟨rfl, first.2⟩
    · have fresh : ¬ p.now + idle.nanos ≤ p.now := by omega
      rw [if_neg first, if_neg fresh]
      exact Or.inr (Or.inr ⟨rfl, seen⟩)

end Watchdog

/-- A transfer: the two directions (`client` copies from the client to the
upstream), the watchdog once it has been polled, and the outcome once there is
one. -/
structure Transfer (B : Backend) where
  client : B.State
  upstream : B.State
  watchdog : Option Watchdog
  outcome : Option Outcome

namespace Transfer

variable {B : Backend}

def start (client upstream : B.Setup) : Transfer B :=
  ⟨B.start client, B.start upstream, none, none⟩

/-- Messages sent on the activity channel by either direction. -/
def sent (t : Transfer B) : Nat := B.activity t.client + B.activity t.upstream

/-- A direction that has not returned keeps its sender, and the channel open. -/
def channelOpen (t : Transfer B) : Bool :=
  (B.result t.client).isNone || (B.result t.upstream).isNone

/-- `try_join!` over two directions in polling order: the first error ends the poll
before the other direction runs. -/
def tryJoin (first second : B.State) (firstCalls secondCalls : List Io) :
    Option (B.State × B.State × Option IoError) :=
  (B.run first firstCalls).bind fun first =>
    match B.failure? first with
    | some error => some (first, second, some error)
    | none => (B.run second secondCalls).map fun second => (first, second, B.failure? second)

/-- The outcome `try_join!` has for its caller after a poll. -/
def joined (client upstream : B.State) : Option IoError → Option Outcome
  | some error => some (.failed error)
  | none =>
      match B.result client, B.result upstream with
      | some (.ok a), some (.ok b) => some (.finished a b)
      | _, _ => none

/-- A poll of the joined directions. -/
def pollTransfer (t : Transfer B) (p : Poll) : Option (Transfer B) :=
  if p.upstreamFirst then
    (tryJoin t.upstream t.client p.upstream p.client).map fun after =>
      { t with client := after.2.1, upstream := after.1,
               outcome := joined after.2.1 after.1 after.2.2 }
  else
    (tryJoin t.client t.upstream p.client p.upstream).map fun after =>
      { t with client := after.1, upstream := after.2.1,
               outcome := joined after.1 after.2.1 after.2.2 }

/-- The watchdog a poll meets: its timer starts with its first poll. -/
def armed (t : Transfer B) (idle : IdleTimeout) (p : Poll) : Watchdog :=
  t.watchdog.getD ⟨p.now + idle.nanos, 0⟩

/-- A poll of the watchdog. -/
def pollIdle (t : Transfer B) (idle : IdleTimeout) (p : Poll) : Transfer B :=
  match (t.armed idle p).poll idle t.sent t.channelOpen p with
  | .returned exit => { t with outcome := some (.idle exit) }
  | .pending watchdog => { t with watchdog := some watchdog }

/-- A poll of `forward_with_*`, which is over once it has an outcome. -/
def poll (idle : Option IdleTimeout) (t : Transfer B) (p : Poll) : Option (Transfer B) :=
  if t.outcome.isSome then none
  else
    match idle with
    | none => t.pollTransfer p
    | some idle =>
        if p.idleFirst then
          let t := t.pollIdle idle p
          if t.outcome.isSome then some t else t.pollTransfer p
        else
          (t.pollTransfer p).map fun t =>
            if t.outcome.isSome then t else t.pollIdle idle p

def machine (B : Backend) (idle : Option IdleTimeout) : Machine (Transfer B) Poll :=
  ⟨fun t => ∃ client upstream, t = start client upstream, poll idle⟩

/-! ## What a poll can do -/

/-- The possible results of a poll of the joined directions. -/
inductive PolledTransfer (t : Transfer B) (p : Poll) : Transfer B → Prop
  | failed {client upstream : B.State} {error : IoError}
      (clientRan : client = t.client ∨ B.run t.client p.client = some client)
      (upstreamRan : upstream = t.upstream ∨ B.run t.upstream p.upstream = some upstream)
      (one : (B.result client = some (.error error) ∧
          (upstream = t.upstream ∨ B.failure? upstream = none)) ∨
        (B.result upstream = some (.error error) ∧
          (client = t.client ∨ B.failure? client = none))) :
      PolledTransfer t p { t with client, upstream, outcome := some (.failed error) }
  | finished {client upstream : B.State} {a b : Nat}
      (clientRan : B.run t.client p.client = some client)
      (upstreamRan : B.run t.upstream p.upstream = some upstream)
      (clientOk : B.result client = some (.ok a)) (upstreamOk : B.result upstream = some (.ok b)) :
      PolledTransfer t p { t with client, upstream, outcome := some (.finished a b) }
  | pending {client upstream : B.State}
      (clientRan : B.run t.client p.client = some client)
      (upstreamRan : B.run t.upstream p.upstream = some upstream)
      (clientFine : B.failure? client = none) (upstreamFine : B.failure? upstream = none)
      (unfinished : B.result client = none ∨ B.result upstream = none) :
      PolledTransfer t p { t with client, upstream, outcome := none }

/-- `try_join!` without an error: both directions are done, or one is still running. -/
theorem polled_joined {t : Transfer B} {p : Poll} {client upstream : B.State}
    (clientRan : B.run t.client p.client = some client)
    (upstreamRan : B.run t.upstream p.upstream = some upstream)
    (clientFine : B.failure? client = none) (upstreamFine : B.failure? upstream = none) :
    PolledTransfer t p
      { t with client, upstream, outcome := joined client upstream none } := by
  have fine : ∀ (s : B.State), B.failure? s = none →
      B.result s = none ∨ ∃ count, B.result s = some (.ok count) := by
    intro s quiet
    cases returned : B.result s with
    | none => exact Or.inl rfl
    | some result =>
        cases result with
        | ok count => exact Or.inr ⟨count, rfl⟩
        | error error => rw [Backend.failure?_eq_some.mpr returned] at quiet; cases quiet
  rcases fine client clientFine with running | ⟨a, clientOk⟩
  · rw [show joined client upstream none = none by simp [joined, running]]
    exact .pending clientRan upstreamRan clientFine upstreamFine (Or.inl running)
  · rcases fine upstream upstreamFine with running | ⟨b, upstreamOk⟩
    · rw [show joined client upstream none = none by simp [joined, clientOk, running]]
      exact .pending clientRan upstreamRan clientFine upstreamFine (Or.inr running)
    · rw [show joined client upstream none = some (.finished a b) by
        simp [joined, clientOk, upstreamOk]]
      exact .finished clientRan upstreamRan clientOk upstreamOk

theorem tryJoin_cases {first second : B.State} {firstCalls secondCalls : List Io}
    {after : B.State × B.State × Option IoError}
    (polled : tryJoin first second firstCalls secondCalls = some after) :
    B.run first firstCalls = some after.1 ∧
      ((∃ error, B.result after.1 = some (.error error) ∧ after.2.1 = second ∧
          after.2.2 = some error) ∨
        (B.failure? after.1 = none ∧ B.run second secondCalls = some after.2.1 ∧
          after.2.2 = B.failure? after.2.1)) := by
  obtain ⟨state, ran, rest⟩ := Option.bind_eq_some_iff.mp polled
  split at rest
  · rename_i error failed
    obtain rfl := Option.some.inj rest
    exact ⟨ran, Or.inl ⟨error, Backend.failure?_eq_some.mp failed, rfl, rfl⟩⟩
  · rename_i fine
    obtain ⟨other, ran', rfl⟩ := Option.map_eq_some_iff.mp rest
    exact ⟨ran, Or.inr ⟨fine, ran', rfl⟩⟩

theorem pollTransfer_polled {t t' : Transfer B} {p : Poll}
    (polled : t.pollTransfer p = some t') : PolledTransfer t p t' := by
  unfold pollTransfer at polled
  split at polled
  · obtain ⟨⟨upstream, client, failure⟩, joint, rfl⟩ := Option.map_eq_some_iff.mp polled
    obtain ⟨ran, ended⟩ := tryJoin_cases joint
    simp only at ran ended ⊢
    rcases ended with ⟨error, failed, same, told⟩ | ⟨fine, ran', told⟩
    · rw [told]
      exact .failed (Or.inl same) (Or.inr ran) (Or.inr ⟨failed, Or.inl same⟩)
    · rw [told]
      cases late : B.failure? client with
      | none => exact polled_joined ran' ran late fine
      | some error =>
          exact .failed (Or.inr ran') (Or.inr ran)
            (Or.inl ⟨Backend.failure?_eq_some.mp late, Or.inr fine⟩)
  · obtain ⟨⟨client, upstream, failure⟩, joint, rfl⟩ := Option.map_eq_some_iff.mp polled
    obtain ⟨ran, ended⟩ := tryJoin_cases joint
    simp only at ran ended ⊢
    rcases ended with ⟨error, failed, same, told⟩ | ⟨fine, ran', told⟩
    · rw [told]
      exact .failed (Or.inr ran) (Or.inl same) (Or.inl ⟨failed, Or.inl same⟩)
    · rw [told]
      cases late : B.failure? upstream with
      | none => exact polled_joined ran ran' fine late
      | some error =>
          exact .failed (Or.inr ran) (Or.inr ran')
            (Or.inr ⟨Backend.failure?_eq_some.mp late, Or.inr fine⟩)

/-- The possible results of a poll, in the order the branches were taken. -/
inductive Polled (t : Transfer B) (p : Poll) : Option IdleTimeout → Transfer B → Prop
  | alone {t' : Transfer B} (transferred : PolledTransfer t p t') : Polled t p none t'
  | idled {idle : IdleTimeout} (done : (t.pollIdle idle p).outcome ≠ none) :
      Polled t p (some idle) (t.pollIdle idle p)
  | idleThenTransfer {idle : IdleTimeout} {t' : Transfer B}
      (waiting : (t.pollIdle idle p).outcome = none)
      (transferred : PolledTransfer (t.pollIdle idle p) p t') : Polled t p (some idle) t'
  | transferred {idle : IdleTimeout} {t' : Transfer B} (transferred : PolledTransfer t p t')
      (done : t'.outcome ≠ none) : Polled t p (some idle) t'
  | transferThenIdle {idle : IdleTimeout} {m : Transfer B} (transferred : PolledTransfer t p m)
      (waiting : m.outcome = none) : Polled t p (some idle) (m.pollIdle idle p)

theorem poll_polled {idle : Option IdleTimeout} {t t' : Transfer B} {p : Poll}
    (polled : poll idle t p = some t') : t.outcome = none ∧ Polled t p idle t' := by
  unfold poll at polled
  split at polled <;> [cases polled; skip]
  rename_i running
  refine ⟨by simpa using running, ?_⟩
  cases idle with
  | none => exact .alone (pollTransfer_polled polled)
  | some idle =>
      simp only at polled
      split at polled
      · split at polled
        · rename_i done
          obtain rfl := Option.some.inj polled
          exact .idled (Option.isSome_iff_ne_none.mp done)
        · rename_i waiting
          exact .idleThenTransfer (by simpa using waiting) (pollTransfer_polled polled)
      · obtain ⟨m, transferred, rfl⟩ := Option.map_eq_some_iff.mp polled
        split
        · rename_i done
          exact .transferred (pollTransfer_polled transferred) (Option.isSome_iff_ne_none.mp done)
        · rename_i waiting
          exact .transferThenIdle (pollTransfer_polled transferred) (by simpa using waiting)

@[simp] theorem pollIdle_client (t : Transfer B) (idle : IdleTimeout) (p : Poll) :
    (t.pollIdle idle p).client = t.client := by
  unfold pollIdle; split <;> rfl

@[simp] theorem pollIdle_upstream (t : Transfer B) (idle : IdleTimeout) (p : Poll) :
    (t.pollIdle idle p).upstream = t.upstream := by
  unfold pollIdle; split <;> rfl

/-- A poll of the watchdog while a sender is left: it ends the transfer only when
its timer has expired, and otherwise leaves a timer and no unseen message. -/
theorem pollIdle_cases {t : Transfer B} (idle : IdleTimeout) (p : Poll)
    (opened : t.channelOpen = true) :
    (t.pollIdle idle p = { t with outcome := some (.idle .expired) } ∧
      (t.armed idle p).deadline ≤ p.now) ∨
    (t.pollIdle idle p = { t with watchdog := some ⟨(t.armed idle p).deadline, t.sent⟩ } ∧
      (t.armed idle p).seen = t.sent ∧ p.now < (t.armed idle p).deadline) ∨
    (t.pollIdle idle p = { t with watchdog := some ⟨p.now + idle.nanos, t.sent⟩ } ∧
      (t.armed idle p).seen ≠ t.sent) := by
  unfold pollIdle
  rw [opened]
  rcases (t.armed idle p).poll_open idle t.sent p with
    ⟨returned, due⟩ | ⟨waiting, seen, early⟩ | ⟨waiting, unseen⟩
  · rw [returned]
    exact Or.inl ⟨rfl, due⟩
  · rw [waiting]
    exact Or.inr (Or.inl ⟨rfl, seen, early⟩)
  · rw [waiting]
    exact Or.inr (Or.inr ⟨rfl, unseen⟩)

end Transfer

end Portrelay.Relay
