/-
# Relay.Timed -- a transfer on a clock

A `Logged` transfer remembers at which times each destination accepted bytes.  Its
polls happen at the present instant, and time passes between polls only while no
timer is due and no message waits for the watchdog: a due timer is handled at the
instant it expires, and a sent message wakes the task.  A deadline `now + duration`
is taken as representable (`Relay.WatchdogClock` has those that are not).

`Covers` relates the armed timer to the log: every accepted byte is at least the
idle timeout older than the deadline, unless nothing has been said about it yet.
-/
import Portrelay.Relay.HalfClose

namespace Portrelay.Relay

open Portrelay.Theory

set_option autoImplicit false

/-- A transfer with the times at which bytes were accepted, latest first, and the time
it ended. -/
structure Logged (B : Backend) where
  transfer : Transfer B
  clientAccepted : List Nat
  upstreamAccepted : List Nat
  endedAt : Option Nat

namespace Logged

variable {B : Backend}

def start (client upstream : B.Setup) : Logged B :=
  ⟨.start client upstream, [], [], none⟩

/-- The log of a direction whose destination went from `before` to `after` bytes. -/
def note (now before after : Nat) (log : List Nat) : List Nat :=
  if before < after then now :: log else log

/-- The transfer moves on at the present instant. -/
def moved (now : Nat) (s : Logged B) (t : Transfer B) : Logged B where
  transfer := t
  clientAccepted :=
    note now (B.delivered s.transfer.client).length (B.delivered t.client).length s.clientAccepted
  upstreamAccepted :=
    note now (B.delivered s.transfer.upstream).length (B.delivered t.upstream).length
      s.upstreamAccepted
  endedAt := if t.outcome.isSome then some now else none

def poll (idle : Option IdleTimeout) (s : Logged B) (p : Poll) : Option (Logged B) :=
  (s.transfer.poll idle p).map (s.moved p.now)

/-- Time may pass: the transfer is over, or its timer is not due and every message has
been seen. -/
def mayWait (s : Logged B) (now : Nat) : Bool :=
  s.transfer.outcome.isSome ||
    match s.transfer.watchdog with
    | none => true
    | some w => decide (now < w.deadline ∧ w.seen = s.transfer.sent)

/-- The times at which either destination accepted bytes. -/
def accepted (s : Logged B) : List Nat := s.clientAccepted ++ s.upstreamAccepted

/-! ## What the timer knows about the log -/

/-- One direction's log against a deadline. -/
def Told (d : IdleTimeout) (now deadline : Nat) (unseen : Prop) (partway : Bool)
    (log : List Nat) : Prop :=
  ∀ a ∈ log, a ≤ now ∧ (a + d.nanos ≤ deadline ∨ partway = true ∨ unseen)

/-- The watchdog `w` covers the log: a byte less than the timeout older than its
deadline belongs to an unfinished chunk or to a message it has not seen, and an unseen
message was sent just now. -/
structure Covers (d : IdleTimeout) (now : Nat) (s : Logged B) (w : Watchdog) : Prop where
  seenLe : w.seen ≤ s.transfer.sent
  unseen : w.seen ≠ s.transfer.sent → now ∈ s.accepted
  client : Told d now w.deadline (w.seen ≠ s.transfer.sent) (B.partway s.transfer.client)
    s.clientAccepted
  upstream : Told d now w.deadline (w.seen ≠ s.transfer.sent) (B.partway s.transfer.upstream)
    s.upstreamAccepted

/-- What holds of a logged transfer between two polls. -/
structure Inv (d : IdleTimeout) (now : Nat) (s : Logged B) : Prop where
  client : B.Valid s.transfer.client
  upstream : B.Valid s.transfer.upstream
  agreed : s.transfer.Agreed
  unarmed : s.transfer.outcome = none → s.transfer.watchdog = none →
    s.accepted = [] ∧ s.transfer.sent = 0
  armed : ∀ w, s.transfer.outcome = none → s.transfer.watchdog = some w →
    s.Covers d now w ∧ now ≤ w.deadline ∧ (w.seen ≠ s.transfer.sent → now < w.deadline)

theorem mem_note {now before after a : Nat} {log : List Nat} (member : a ∈ note now before after log) :
    a ∈ log ∨ (a = now ∧ before < after) := by
  unfold note at member
  split at member
  · rename_i grew
    rcases List.mem_cons.mp member with rfl | old
    · exact Or.inr ⟨rfl, grew⟩
    · exact Or.inl old
  · exact Or.inl member

theorem now_mem_note {now before after : Nat} {log : List Nat} (grew : before < after) :
    now ∈ note now before after log := by
  unfold note
  rw [if_pos grew]
  exact List.mem_cons_self

theorem mem_note_of_mem {now before after a : Nat} {log : List Nat} (old : a ∈ log) :
    a ∈ note now before after log := by
  unfold note
  split
  · exact List.mem_cons_of_mem _ old
  · exact old

/-- A poll of one direction, without an error, keeps its log told. -/
theorem Told.polled {d : IdleTimeout} {now deadline : Nat} {unseen unseen' : Prop}
    {s t : B.State} {log : List Nat} (told : Told d now deadline unseen (B.partway s) log)
    (polled : Backend.Polled s t) (fine : B.failure? t = none) (still : unseen → unseen')
    (said : B.activity s < B.activity t → unseen') :
    Told d now deadline unseen' (B.partway t)
      (note now (B.delivered s).length (B.delivered t).length log) := by
  have quiet : ¬ ∃ error, B.result t = some (.error error) := by
    rintro ⟨error, failed⟩
    rw [Backend.failure?_eq_some.mpr failed] at fine
    cases fine
  intro a member
  rcases mem_note member with old | ⟨rfl, grew⟩
  · obtain ⟨le, covered | inside | unseen⟩ := told a old
    · exact ⟨le, Or.inl covered⟩
    · refine ⟨le, ?_⟩
      rcases polled.inside inside with announced | inside | failed
      · exact Or.inr (Or.inr (said announced))
      · exact Or.inr (Or.inl inside)
      · exact absurd failed quiet
    · exact ⟨le, Or.inr (Or.inr (still unseen))⟩
  · refine ⟨Nat.le_refl _, ?_⟩
    rcases polled.announced grew with announced | inside | failed
    · exact Or.inr (Or.inr (said announced))
    · exact Or.inr (Or.inl inside)
    · exact absurd failed quiet

/-- A poll of the joined directions keeps the log covered. -/
theorem Covers.transferred {d : IdleTimeout} {now : Nat} {s : Logged B} {w : Watchdog} {p : Poll}
    {t : Transfer B} (clientValid : B.Valid s.transfer.client)
    (upstreamValid : B.Valid s.transfer.upstream) (covers : s.Covers d now w)
    (transferred : Transfer.PolledTransfer s.transfer p t) (waiting : t.outcome = none) :
    (s.moved now t).Covers d now w := by
  cases transferred with
  | failed => cases waiting
  | finished => cases waiting
  | @pending client upstream clientRan upstreamRan clientFine upstreamFine unfinished =>
      have clientPolled := Backend.run_polled clientValid clientRan
      have upstreamPolled := Backend.run_polled upstreamValid upstreamRan
      have seenLe := covers.seenLe
      have clientLe := clientPolled.activity_le
      have upstreamLe := upstreamPolled.activity_le
      unfold Transfer.sent at seenLe
      have still : w.seen ≠ s.transfer.sent → w.seen ≠ B.activity client + B.activity upstream := by
        unfold Transfer.sent
        omega
      refine ⟨?_, ?_, ?_, ?_⟩
      · change w.seen ≤ B.activity client + B.activity upstream
        omega
      · intro unseen
        change w.seen ≠ B.activity client + B.activity upstream at unseen
        simp only [accepted, moved, List.mem_append]
        by_cases before : w.seen = s.transfer.sent
        · unfold Transfer.sent at before
          by_cases said : B.activity s.transfer.client < B.activity client
          · exact Or.inl (now_mem_note (clientPolled.moved said))
          · exact Or.inr (now_mem_note (upstreamPolled.moved (by omega)))
        · rcases List.mem_append.mp (covers.unseen before) with old | old
          · exact Or.inl (mem_note_of_mem old)
          · exact Or.inr (mem_note_of_mem old)
      · refine covers.client.polled clientPolled clientFine still
          fun (said : B.activity s.transfer.client < B.activity client) => ?_
        change w.seen ≠ B.activity client + B.activity upstream
        omega
      · refine covers.upstream.polled upstreamPolled upstreamFine still
          fun (said : B.activity s.transfer.upstream < B.activity upstream) => ?_
        change w.seen ≠ B.activity client + B.activity upstream
        omega

/-- Only the directions and the logs matter. -/
theorem Covers.congr {d : IdleTimeout} {now : Nat} {s s' : Logged B} {w : Watchdog}
    (covers : s.Covers d now w) (client : s'.transfer.client = s.transfer.client)
    (upstream : s'.transfer.upstream = s.transfer.upstream)
    (clientLog : s'.clientAccepted = s.clientAccepted)
    (upstreamLog : s'.upstreamAccepted = s.upstreamAccepted) : s'.Covers d now w := by
  have sent : s'.transfer.sent = s.transfer.sent := by
    unfold Transfer.sent
    rw [client, upstream]
  have accepted : s'.accepted = s.accepted := by
    unfold accepted
    rw [clientLog, upstreamLog]
  obtain ⟨seenLe, unseen, clientTold, upstreamTold⟩ := covers
  refine ⟨?_, ?_, ?_, ?_⟩
  · rw [sent]; exact seenLe
  · rw [sent, accepted]; exact unseen
  · rw [sent, client, clientLog]; exact clientTold
  · rw [sent, upstream, upstreamLog]; exact upstreamTold

/-- A poll of the watchdog that goes on leaves a timer that is not due and covers the
log with no message unseen. -/
theorem Covers.idled {d : IdleTimeout} {s : Logged B} {p : Poll}
    (opened : s.transfer.channelOpen = true)
    (covers : s.Covers d p.now (s.transfer.armed d p))
    (waiting : (s.transfer.pollIdle d p).outcome = none) :
    ∃ w, (s.transfer.pollIdle d p).watchdog = some w ∧ s.Covers d p.now w ∧ p.now < w.deadline ∧
      (w.deadline = (s.transfer.armed d p).deadline ∨
        (w.deadline = p.now + d.nanos ∧ (s.transfer.armed d p).seen ≠ s.transfer.sent)) := by
  have pos := d.pos
  rcases Transfer.pollIdle_cases d p opened with ⟨same, -⟩ | ⟨same, seen, early⟩ | ⟨same, unseen⟩
  · rw [same] at waiting
    cases waiting
  · refine ⟨⟨(s.transfer.armed d p).deadline, s.transfer.sent⟩, by rw [same],
      ⟨Nat.le_refl _, fun unseen => absurd rfl unseen, ?_, ?_⟩, early, Or.inl rfl⟩
    · simpa [Told, seen] using covers.client
    · simpa [Told, seen] using covers.upstream
  · have fresh : ∀ {unseen : Prop} {deadline : Nat} {partway : Bool} {log : List Nat},
        Told d p.now deadline unseen partway log →
        Told d p.now (p.now + d.nanos) (s.transfer.sent ≠ s.transfer.sent) partway log := by
      intro unseen deadline partway log told a member
      obtain ⟨le, -⟩ := told a member
      exact ⟨le, Or.inl (by omega)⟩
    refine ⟨⟨p.now + d.nanos, s.transfer.sent⟩, by rw [same], ⟨Nat.le_refl _,
      fun unseen => absurd rfl unseen, fresh covers.client, fresh covers.upstream⟩, ?_,
      Or.inr ⟨rfl, unseen⟩⟩
    simp only
    omega

/-- The watchdog a poll meets covers the log, whether it is armed or about to be. -/
theorem Inv.covers {d : IdleTimeout} {s : Logged B} {p : Poll} (inv : s.Inv d p.now)
    (waiting : s.transfer.outcome = none) : s.Covers d p.now (s.transfer.armed d p) := by
  unfold Transfer.armed
  cases armed : s.transfer.watchdog with
  | none =>
      obtain ⟨silent, none⟩ := inv.unarmed waiting armed
      obtain ⟨client, upstream⟩ := List.append_eq_nil_iff.mp silent
      refine ⟨Nat.zero_le _, fun unseen => absurd none.symm unseen, ?_, ?_⟩
      · rw [client]; exact fun a member => absurd member List.not_mem_nil
      · rw [upstream]; exact fun a member => absurd member List.not_mem_nil
  | some w => exact (inv.armed w waiting armed).1

/-- After a poll that did not end the transfer the timer covers the log and is not due;
it was moved only by a message sent at this instant. -/
theorem poll_covers {d : IdleTimeout} {s : Logged B} {p : Poll} {t : Transfer B}
    (inv : s.Inv d p.now) (polled : s.transfer.poll (some d) p = some t)
    (waiting : t.outcome = none) :
    ∃ w, t.watchdog = some w ∧ (s.moved p.now t).Covers d p.now w ∧ p.now < w.deadline ∧
      (w.deadline = (s.transfer.armed d p).deadline ∨
        (w.deadline = p.now + d.nanos ∧ p.now ∈ (s.moved p.now t).accepted)) := by
  obtain ⟨before, how⟩ := Transfer.poll_polled polled
  have opened := (inv.agreed.waiting before).2.2
  have covers := inv.covers (p := p) before
  cases how with
  | idled done => exact absurd waiting done
  | idleThenTransfer quiet transferred =>
      obtain ⟨w, armed, covered, early, reset⟩ := covers.idled opened quiet
      have after : (Logged.moved p.now { s with transfer := s.transfer.pollIdle d p } t).Covers
          d p.now w :=
        Covers.transferred (by simpa using inv.client) (by simpa using inv.upstream)
          (covered.congr (by simp) (by simp) rfl rfl) transferred waiting
      refine ⟨w, transferred.watchdog.trans armed, after.congr rfl rfl ?_ ?_, early, ?_⟩
      · simp [moved]
      · simp [moved]
      · rcases reset with same | ⟨fresh, unseen⟩
        · exact Or.inl same
        · refine Or.inr ⟨fresh, ?_⟩
          rcases List.mem_append.mp (covers.unseen unseen) with old | old
          · exact List.mem_append_left _ (mem_note_of_mem old)
          · exact List.mem_append_right _ (mem_note_of_mem old)
  | transferred transferred done => exact absurd waiting done
  | @transferThenIdle _ m transferred quiet =>
      have after := covers.transferred inv.client inv.upstream transferred quiet
      have same : m.armed d p = s.transfer.armed d p := by
        unfold Transfer.armed
        rw [transferred.watchdog]
      have agreed := transferred.agreed (inv.agreed.waiting before).1 (inv.agreed.waiting before).2.1
      rw [← same] at after
      obtain ⟨w, armed, covered, early, reset⟩ :=
        Covers.idled (s := s.moved p.now m) (agreed.waiting quiet).2.2 after waiting
      refine ⟨w, armed, covered.congr ?_ ?_ ?_ ?_, early, ?_⟩
      · simp [moved]
      · simp [moved]
      · simp [moved]
      · simp [moved]
      · rcases reset with kept | ⟨fresh, unseen⟩
        · exact Or.inl (by rw [kept, ← same]; rfl)
        · refine Or.inr ⟨fresh, ?_⟩
          have logged := after.unseen unseen
          simpa [accepted, moved] using logged

theorem start_inv {d : IdleTimeout} (now : Nat) (client upstream : B.Setup) :
    (start client upstream).Inv d now := by
  refine ⟨B.start_valid client, B.start_valid upstream, Transfer.start_agreed client upstream,
    fun _ _ => ⟨rfl, ?_⟩, fun w _ armed => by cases armed⟩
  simp [start, Transfer.start, Transfer.sent, B.start_silent]

theorem poll_inv {d : IdleTimeout} {s t : Logged B} {p : Poll} (inv : s.Inv d p.now)
    (polled : s.poll (some d) p = some t) : t.Inv d p.now := by
  obtain ⟨after, happened, rfl⟩ := Option.map_eq_some_iff.mp polled
  obtain ⟨clientCalls, upstreamCalls, ran⟩ := Transfer.poll_ran happened
  refine ⟨Backend.run_valid inv.client ran.client, Backend.run_valid inv.upstream ran.upstream,
    Transfer.poll_agreed inv.agreed happened, fun waiting unarmed => ?_, fun w waiting armed => ?_⟩
  · obtain ⟨w, armed, -⟩ := poll_covers inv happened waiting
    rw [show after.watchdog = none from unarmed] at armed
    cases armed
  · obtain ⟨w', armed', covers, early, -⟩ := poll_covers inv happened waiting
    rw [show after.watchdog = some w from armed] at armed'
    obtain rfl := Option.some.inj armed'
    exact ⟨covers, Nat.le_of_lt early, fun _ => early⟩

/-- Time that may pass keeps the timer ahead. -/
theorem wait_inv {d : IdleTimeout} {now : Nat} {s : Logged B} (inv : s.Inv d now)
    (allowed : s.mayWait now = true) : s.Inv d (now + 1) := by
  refine ⟨inv.client, inv.upstream, inv.agreed, inv.unarmed, fun w waiting armed => ?_⟩
  obtain ⟨covers, -, -⟩ := inv.armed w waiting armed
  have wait : now < w.deadline ∧ w.seen = s.transfer.sent := by
    simpa [mayWait, waiting, armed] using allowed
  have older : ∀ {unseen : Prop} {partway : Bool} {log : List Nat},
      Told d now w.deadline unseen partway log → Told d (now + 1) w.deadline unseen partway log :=
    fun told a member => ⟨Nat.le_succ_of_le (told a member).1, (told a member).2⟩
  exact ⟨⟨covers.seenLe, fun unseen => absurd wait.2 unseen, older covers.client,
    older covers.upstream⟩, wait.1, fun unseen => absurd wait.2 unseen⟩

end Logged

end Portrelay.Relay
