/-
# Relay.HalfClose -- how a bidirectional transfer ends

The two directions of a `Transfer` share nothing but the poll they run in.  Every
run of the transfer is one run of each loop on its own calls (`exec_split`), a poll
is enabled whenever both loops can do their calls (`poll_independent`), and the
outcome says what the loops returned (`Agreed`, kept by `poll_agreed`).  An idle
exit comes from the timer alone: while no outcome is there, one direction is still
running and holds a sender of the activity channel.
-/
import Portrelay.Relay.Transfer

namespace Portrelay.Relay

open Portrelay.Theory

set_option autoImplicit false

namespace Transfer

variable {B : Backend}

/-- What the outcome says about the two directions. -/
def Agreed (t : Transfer B) : Prop :=
  match t.outcome with
  | none => B.failure? t.client = none ∧ B.failure? t.upstream = none ∧ t.channelOpen = true
  | some (.finished a b) => B.result t.client = some (.ok a) ∧ B.result t.upstream = some (.ok b)
  | some (.failed error) =>
      (B.failure? t.client = some error ∧ B.failure? t.upstream = none) ∨
        (B.failure? t.client = none ∧ B.failure? t.upstream = some error)
  | some (.idle exit) =>
      exit = .expired ∧ B.failure? t.client = none ∧ B.failure? t.upstream = none ∧
        t.channelOpen = true

theorem Agreed.waiting {t : Transfer B} (agreed : t.Agreed) (waiting : t.outcome = none) :
    B.failure? t.client = none ∧ B.failure? t.upstream = none ∧ t.channelOpen = true := by
  unfold Agreed at agreed
  rwa [waiting] at agreed

theorem channelOpen_iff {t : Transfer B} :
    t.channelOpen = true ↔ B.result t.client = none ∨ B.result t.upstream = none := by
  simp [channelOpen]

theorem start_agreed (client upstream : B.Setup) : (start client upstream).Agreed := by
  have quiet : ∀ setup, B.failure? (B.start setup) = none := by
    intro setup
    unfold Backend.failure?
    rw [B.start_running]
  exact ⟨quiet client, quiet upstream, channelOpen_iff.mpr (Or.inl (B.start_running client))⟩

theorem PolledTransfer.agreed {t t' : Transfer B} {p : Poll}
    (clientFine : B.failure? t.client = none) (upstreamFine : B.failure? t.upstream = none)
    (polled : PolledTransfer t p t') : t'.Agreed := by
  cases polled with
  | failed clientRan upstreamRan one =>
      rcases one with ⟨failed, same | fine⟩ | ⟨failed, same | fine⟩
      · exact Or.inl ⟨Backend.failure?_eq_some.mpr failed, same ▸ upstreamFine⟩
      · exact Or.inl ⟨Backend.failure?_eq_some.mpr failed, fine⟩
      · exact Or.inr ⟨same ▸ clientFine, Backend.failure?_eq_some.mpr failed⟩
      · exact Or.inr ⟨fine, Backend.failure?_eq_some.mpr failed⟩
  | finished clientRan upstreamRan clientOk upstreamOk => exact ⟨clientOk, upstreamOk⟩
  | pending clientRan upstreamRan clientFine upstreamFine unfinished =>
      exact ⟨clientFine, upstreamFine, channelOpen_iff.mpr unfinished⟩

theorem pollIdle_agreed {t : Transfer B} {idle : IdleTimeout} {p : Poll} (agreed : t.Agreed)
    (waiting : t.outcome = none) : (t.pollIdle idle p).Agreed := by
  obtain ⟨clientFine, upstreamFine, opened⟩ := agreed.waiting waiting
  rcases pollIdle_cases idle p opened with ⟨same, -⟩ | ⟨same, -⟩ | ⟨same, -⟩
  · rw [same]
    exact ⟨rfl, clientFine, upstreamFine, opened⟩
  · rw [same]
    unfold Agreed
    rw [show ({ t with watchdog := _ } : Transfer B).outcome = none from waiting]
    exact ⟨clientFine, upstreamFine, opened⟩
  · rw [same]
    unfold Agreed
    rw [show ({ t with watchdog := _ } : Transfer B).outcome = none from waiting]
    exact ⟨clientFine, upstreamFine, opened⟩

/-- A poll keeps the outcome in step with the directions. -/
theorem poll_agreed {idle : Option IdleTimeout} {t t' : Transfer B} {p : Poll} (agreed : t.Agreed)
    (polled : poll idle t p = some t') : t'.Agreed := by
  obtain ⟨waiting, how⟩ := poll_polled polled
  obtain ⟨clientFine, upstreamFine, -⟩ := agreed.waiting waiting
  cases how with
  | alone transferred => exact transferred.agreed clientFine upstreamFine
  | idled done => exact pollIdle_agreed agreed waiting
  | idleThenTransfer quiet transferred =>
      exact transferred.agreed (by simpa using clientFine) (by simpa using upstreamFine)
  | transferred transferred done => exact transferred.agreed clientFine upstreamFine
  | transferThenIdle transferred quiet =>
      exact pollIdle_agreed (transferred.agreed clientFine upstreamFine) quiet

/-- The calls a poll really made in each direction: all of them, unless the poll ended
the transfer. -/
structure Ran (t : Transfer B) (p : Poll) (t' : Transfer B) (clientCalls upstreamCalls : List Io) :
    Prop where
  client : B.run t.client clientCalls = some t'.client
  upstream : B.run t.upstream upstreamCalls = some t'.upstream
  clientSome : clientCalls = [] ∨ clientCalls = p.client
  upstreamSome : upstreamCalls = [] ∨ upstreamCalls = p.upstream
  whole : t'.outcome = none → clientCalls = p.client ∧ upstreamCalls = p.upstream

theorem PolledTransfer.ran {t t' : Transfer B} {p : Poll} (polled : PolledTransfer t p t') :
    ∃ clientCalls upstreamCalls, Ran t p t' clientCalls upstreamCalls := by
  have calls : ∀ {s s' : B.State} {own : List Io}, (s' = s ∨ B.run s own = some s') →
      ∃ made, B.run s made = some s' ∧ (made = [] ∨ made = own) := by
    rintro s s' own (rfl | ran)
    · exact ⟨[], rfl, Or.inl rfl⟩
    · exact ⟨own, ran, Or.inr rfl⟩
  cases polled with
  | failed clientRan upstreamRan one =>
      obtain ⟨clientCalls, clientRan, clientSome⟩ := calls clientRan
      obtain ⟨upstreamCalls, upstreamRan, upstreamSome⟩ := calls upstreamRan
      exact ⟨clientCalls, upstreamCalls, clientRan, upstreamRan, clientSome, upstreamSome,
        fun waiting => by cases waiting⟩
  | finished clientRan upstreamRan clientOk upstreamOk =>
      exact ⟨p.client, p.upstream, clientRan, upstreamRan, Or.inr rfl, Or.inr rfl,
        fun _ => ⟨rfl, rfl⟩⟩
  | pending clientRan upstreamRan clientFine upstreamFine unfinished =>
      exact ⟨p.client, p.upstream, clientRan, upstreamRan, Or.inr rfl, Or.inr rfl,
        fun _ => ⟨rfl, rfl⟩⟩

theorem poll_ran {idle : Option IdleTimeout} {t t' : Transfer B} {p : Poll}
    (polled : poll idle t p = some t') :
    ∃ clientCalls upstreamCalls, Ran t p t' clientCalls upstreamCalls := by
  obtain ⟨-, how⟩ := poll_polled polled
  cases how with
  | alone transferred => exact transferred.ran
  | @idled idle done =>
      refine ⟨[], [], ?_, ?_, Or.inl rfl, Or.inl rfl, fun waiting => absurd waiting done⟩
      · rw [pollIdle_client]; rfl
      · rw [pollIdle_upstream]; rfl
  | idleThenTransfer quiet transferred =>
      obtain ⟨clientCalls, upstreamCalls, clientRan, upstreamRan, clientSome, upstreamSome, whole⟩ :=
        transferred.ran
      rw [pollIdle_client] at clientRan
      rw [pollIdle_upstream] at upstreamRan
      exact ⟨clientCalls, upstreamCalls, clientRan, upstreamRan, clientSome, upstreamSome, whole⟩
  | transferred transferred done => exact transferred.ran
  | @transferThenIdle idle m transferred quiet =>
      obtain ⟨clientCalls, upstreamCalls, clientRan, upstreamRan, clientSome, upstreamSome, whole⟩ :=
        transferred.ran
      refine ⟨clientCalls, upstreamCalls, ?_, ?_, clientSome, upstreamSome, fun _ => whole quiet⟩
      · rw [pollIdle_client]; exact clientRan
      · rw [pollIdle_upstream]; exact upstreamRan

/-- A transfer that has its outcome is not polled again. -/
theorem exec_over {idle : Option IdleTimeout} {t t' : Transfer B} {polls : List Poll}
    (done : t.outcome ≠ none) (ran : (machine B idle).exec t polls = some t') :
    polls = [] ∧ t' = t := by
  cases polls with
  | nil => exact ⟨rfl, (Option.some.inj ran).symm⟩
  | cons p polls =>
      obtain ⟨m, polled, -⟩ := (Machine.exec_cons_eq_some _).mp ran
      exact absurd (poll_polled polled).1 done

/-- A run of the transfer is one run of each direction's loop on its own calls. -/
theorem exec_split {idle : Option IdleTimeout} {t t' : Transfer B} {polls : List Poll}
    (ran : (machine B idle).exec t polls = some t') :
    ∃ clientCalls upstreamCalls,
      B.run t.client clientCalls = some t'.client ∧
      B.run t.upstream upstreamCalls = some t'.upstream ∧
      clientCalls <+: polls.flatMap Poll.client ∧
      upstreamCalls <+: polls.flatMap Poll.upstream ∧
      (t'.outcome = none →
        clientCalls = polls.flatMap Poll.client ∧ upstreamCalls = polls.flatMap Poll.upstream) := by
  induction polls generalizing t with
  | nil =>
      obtain rfl := Option.some.inj ran
      exact ⟨[], [], rfl, rfl, List.prefix_refl _, List.prefix_refl _, fun _ => ⟨rfl, rfl⟩⟩
  | cons p polls ih =>
      obtain ⟨m, polled, later⟩ := (Machine.exec_cons_eq_some _).mp ran
      obtain ⟨clientCalls, upstreamCalls, here⟩ := poll_ran polled
      simp only [List.flatMap_cons]
      by_cases waiting : m.outcome = none
      · obtain ⟨rfl, rfl⟩ := here.whole waiting
        obtain ⟨clientLater, upstreamLater, clientRan, upstreamRan, clientMade, upstreamMade, whole⟩ :=
          ih later
        refine ⟨p.client ++ clientLater, p.upstream ++ upstreamLater, ?_, ?_,
          (List.prefix_append_right_inj _).mpr clientMade,
          (List.prefix_append_right_inj _).mpr upstreamMade, fun quiet => ?_⟩
        · rw [Backend.run_append, here.client]
          exact clientRan
        · rw [Backend.run_append, here.upstream]
          exact upstreamRan
        · rw [(whole quiet).1, (whole quiet).2]
          exact ⟨rfl, rfl⟩
      · obtain ⟨rfl, rfl⟩ := exec_over waiting later
        have made : ∀ {calls own : List Io}, (calls = [] ∨ calls = own) → calls <+: own := by
          rintro calls own (rfl | rfl)
          · exact List.nil_prefix
          · exact List.prefix_refl _
        refine ⟨clientCalls, upstreamCalls, here.client, here.upstream, ?_, ?_,
          fun quiet => absurd quiet waiting⟩
        · simpa using made here.clientSome
        · simpa using made here.upstreamSome

theorem exec_agreed {idle : Option IdleTimeout} {t t' : Transfer B} {polls : List Poll}
    (agreed : t.Agreed) (ran : (machine B idle).exec t polls = some t') : t'.Agreed := by
  induction polls generalizing t with
  | nil =>
      obtain rfl := Option.some.inj ran
      exact agreed
  | cons p polls ih =>
      obtain ⟨m, polled, later⟩ := (Machine.exec_cons_eq_some _).mp ran
      exact ih (poll_agreed agreed polled) later

/-! ## Neither direction waits for the other -/

theorem joined_none (client upstream : B.State) :
    joined client upstream none = none ∨
      ∃ a b, joined client upstream none = some (.finished a b) := by
  simp only [joined]
  split
  · exact Or.inr ⟨_, _, rfl⟩
  · exact Or.inl rfl

theorem pollTransfer_both {t : Transfer B} {p : Poll} {client upstream : B.State}
    (clientRan : B.run t.client p.client = some client)
    (upstreamRan : B.run t.upstream p.upstream = some upstream)
    (clientFine : B.failure? client = none) (upstreamFine : B.failure? upstream = none) :
    t.pollTransfer p = some { t with client, upstream, outcome := joined client upstream none } := by
  unfold pollTransfer tryJoin
  rw [clientRan, upstreamRan]
  simp [clientFine, upstreamFine]

theorem pollIdle_early {t : Transfer B} {idle : IdleTimeout} {p : Poll}
    (opened : t.channelOpen = true) (early : p.now < (t.armed idle p).deadline) :
    (t.pollIdle idle p).outcome = t.outcome := by
  rcases pollIdle_cases idle p opened with ⟨-, due⟩ | ⟨same, -⟩ | ⟨same, -⟩
  · omega
  · rw [same]
  · rw [same]

/-- While the timer is not due, whatever calls both directions can do are done by a
poll, each direction going where its own calls take it. -/
def Independent (idle : Option IdleTimeout) (t : Transfer B) : Prop :=
  ∀ (p : Poll) (client upstream : B.State),
    B.run t.client p.client = some client → B.run t.upstream p.upstream = some upstream →
    B.failure? client = none → B.failure? upstream = none →
    (∀ d, idle = some d → p.now < (t.armed d p).deadline) →
    ∃ t', poll idle t p = some t' ∧ t'.client = client ∧ t'.upstream = upstream ∧
      (t'.outcome = none ∨ ∃ a b, t'.outcome = some (.finished a b))

theorem poll_independent {idle : Option IdleTimeout} {t : Transfer B} (agreed : t.Agreed)
    (waiting : t.outcome = none) : t.Independent idle := by
  intro p client upstream clientRan upstreamRan clientFine upstreamFine early
  obtain ⟨-, -, opened⟩ := agreed.waiting waiting
  have both := pollTransfer_both clientRan upstreamRan clientFine upstreamFine
  have ended := joined_none client upstream
  unfold poll
  rw [waiting]
  cases idle with
  | none => exact ⟨_, both, rfl, rfl, ended⟩
  | some idle =>
      have due := early idle rfl
      by_cases first : p.idleFirst = true
      · have quiet : (t.pollIdle idle p).outcome = none := by rw [pollIdle_early opened due, waiting]
        have both' : (t.pollIdle idle p).pollTransfer p = some { t.pollIdle idle p with
            client, upstream, outcome := joined client upstream none } :=
          pollTransfer_both (by simpa using clientRan) (by simpa using upstreamRan) clientFine
            upstreamFine
        refine ⟨{ t.pollIdle idle p with client, upstream, outcome := joined client upstream none },
          ?_, rfl, rfl, ended⟩
        simpa [first, quiet] using both'
      · simp only [first, both, Option.map_some]
        rcases ended with waiting | ⟨a, b, finished⟩
        · have agreed' : Agreed { t with client, upstream, outcome := joined client upstream none } :=
            (pollTransfer_polled both).agreed (agreed.waiting ‹_›).1 (agreed.waiting ‹_›).2.1
          have kept := pollIdle_early (agreed'.waiting waiting).2.2 due
          rw [waiting] at kept
          refine ⟨_, rfl, ?_, ?_, Or.inl ?_⟩
          · simp [waiting]
          · simp [waiting]
          · simpa [waiting] using kept
        · exact ⟨_, rfl, by simp [finished], by simp [finished], Or.inr ⟨a, b, by simp [finished]⟩⟩

/-! ## The idle exit -/

theorem pollIdle_expired {d : IdleTimeout} {t : Transfer B} {p : Poll} (opened : t.channelOpen = true)
    (waiting : t.outcome = none) (done : (t.pollIdle d p).outcome ≠ none) :
    ∃ w, t.watchdog = some w ∧ (t.pollIdle d p).watchdog = some w ∧ w.deadline ≤ p.now := by
  rcases pollIdle_cases d p opened with ⟨same, due⟩ | ⟨same, -⟩ | ⟨same, -⟩
  · rw [same]
    unfold armed at due
    have pos := d.pos
    cases armed : t.watchdog with
    | none =>
        rw [armed] at due
        simp only [Option.getD_none] at due
        omega
    | some w => exact ⟨w, rfl, rfl, by rwa [armed] at due⟩
  · exact absurd (by rw [same]; exact waiting) done
  · exact absurd (by rw [same]; exact waiting) done

theorem PolledTransfer.watchdog {t t' : Transfer B} {p : Poll} (polled : PolledTransfer t p t') :
    t'.watchdog = t.watchdog := by
  cases polled <;> rfl

/-- A poll that ends in an idle exit met a timer that was due. -/
theorem poll_idle {idle : Option IdleTimeout} {t t' : Transfer B} {p : Poll} {exit : WatchdogExit}
    (agreed : t.Agreed) (polled : poll idle t p = some t') (ended : t'.outcome = some (.idle exit)) :
    ∃ d w, idle = some d ∧ t.watchdog = some w ∧ t'.watchdog = some w ∧ w.deadline ≤ p.now := by
  obtain ⟨waiting, how⟩ := poll_polled polled
  obtain ⟨clientFine, upstreamFine, opened⟩ := agreed.waiting waiting
  have notIdle : ∀ {m m' : Transfer B}, PolledTransfer m p m' → m'.outcome ≠ some (.idle exit) := by
    intro m m' transferred
    cases transferred with
    | failed => simp
    | finished => simp
    | pending => simp
  cases how with
  | alone transferred => exact absurd ended (notIdle transferred)
  | idled done =>
      obtain ⟨w, before, armed, due⟩ := pollIdle_expired opened waiting done
      exact ⟨_, w, rfl, before, armed, due⟩
  | idleThenTransfer quiet transferred => exact absurd ended (notIdle transferred)
  | transferred transferred done => exact absurd ended (notIdle transferred)
  | transferThenIdle transferred quiet =>
      have agreed' := transferred.agreed clientFine upstreamFine
      obtain ⟨w, before, armed, due⟩ :=
        pollIdle_expired (agreed'.waiting quiet).2.2 quiet (by rw [ended]; simp)
      exact ⟨_, w, rfl, transferred.watchdog ▸ before, armed, due⟩

theorem exec_idle {idle : Option IdleTimeout} {t t' : Transfer B} {polls : List Poll}
    {exit : WatchdogExit} (agreed : t.Agreed) (waiting : t.outcome = none)
    (ran : (machine B idle).exec t polls = some t') (ended : t'.outcome = some (.idle exit)) :
    exit = .expired ∧ ∃ d w p, idle = some d ∧ t'.watchdog = some w ∧
      polls.getLast? = some p ∧ w.deadline ≤ p.now := by
  have timer : exit = .expired := by
    have agreed' := exec_agreed agreed ran
    unfold Agreed at agreed'
    rw [ended] at agreed'
    exact agreed'.1
  refine ⟨timer, ?_⟩
  induction polls generalizing t with
  | nil =>
      obtain rfl := Option.some.inj ran
      rw [waiting] at ended
      cases ended
  | cons p polls ih =>
      obtain ⟨m, polled, later⟩ := (Machine.exec_cons_eq_some _).mp ran
      by_cases quiet : m.outcome = none
      · obtain ⟨d, w, last, configured, armed, final, due⟩ :=
          ih (poll_agreed agreed polled) quiet later
        refine ⟨d, w, last, configured, armed, ?_, due⟩
        cases polls with
        | nil => cases final
        | cons q polls => rwa [List.getLast?_cons_cons]
      · obtain ⟨rfl, rfl⟩ := exec_over quiet later
        obtain ⟨d, w, configured, -, armed, due⟩ := poll_idle agreed polled ended
        exact ⟨d, w, p, configured, armed, rfl, due⟩

/-! ## The outcome -/

/-- A direction has reached end of file and shut its destination down successfully,
having delivered `count` bytes. -/
structure Closed (B : Backend) (s : B.State) (calls : List Io) (count : Nat) : Prop where
  ended : (B.source s).eof = true
  shutDown : B.ShutDown calls
  counted : count = (B.delivered s).length

theorem closed_iff {setup : B.Setup} {s : B.State} {calls : List Io} {count : Nat}
    (ran : B.run (B.start setup) calls = some s) :
    B.result s = some (.ok count) ↔ Closed B s calls count := by
  have valid := Backend.run_valid (B.start_valid setup) ran
  have returned := Backend.run_ok_iff (B.start_running setup) ran
  constructor
  · intro ok
    obtain ⟨ended, all, counted, -⟩ := B.complete valid ok
    exact ⟨ended, returned.mp ⟨count, ok⟩, by rw [counted, Backend.delivered, all]⟩
  · rintro ⟨-, shutDown, counted⟩
    obtain ⟨other, ok⟩ := returned.mpr shutDown
    obtain ⟨-, all, counted', -⟩ := B.complete valid ok
    rw [ok, counted, counted', Backend.delivered, all]

theorem finished_iff {t : Transfer B} (agreed : t.Agreed) {a b : Nat} :
    t.outcome.map Outcome.result = some (.ok (a, b)) ↔
      B.result t.client = some (.ok a) ∧ B.result t.upstream = some (.ok b) := by
  unfold Agreed at agreed
  have failed : ∀ {s : B.State} {count : Nat} {error : IoError},
      B.failure? s = some error → B.result s ≠ some (.ok count) := by
    intro s count error failure ok
    rw [Backend.failure?_eq_some.mp failure] at ok
    cases ok
  have opened : t.channelOpen = true →
      ¬ (B.result t.client = some (.ok a) ∧ B.result t.upstream = some (.ok b)) := by
    rintro opened ⟨client, upstream⟩
    rw [channelOpen_iff, client, upstream] at opened
    simp at opened
  cases outcome : t.outcome with
  | none =>
      rw [outcome] at agreed
      simpa using not_and.mp (opened agreed.2.2)
  | some outcome' =>
      rw [outcome] at agreed
      cases outcome' with
      | finished a' b' =>
          obtain ⟨client, upstream⟩ := agreed
          simp [Outcome.result, client, upstream]
      | failed error =>
          rcases agreed with ⟨failure, -⟩ | ⟨-, failure⟩
          · simp [Outcome.result, failed failure]
          · simp [Outcome.result, failed failure]
      | idle exit => simpa [Outcome.result] using not_and.mp (opened agreed.2.2.2)

theorem failed_iff {t : Transfer B} (agreed : t.Agreed) {error : IoError} :
    t.outcome = some (.failed error) ↔
      B.failure? t.client = some error ∨ B.failure? t.upstream = some error := by
  unfold Agreed at agreed
  have fine : ∀ {s : B.State} {count : Nat}, B.result s = some (.ok count) →
      B.failure? s = none := by
    intro s count ok
    unfold Backend.failure?
    rw [ok]
  cases outcome : t.outcome with
  | none =>
      rw [outcome] at agreed
      simp [agreed.1, agreed.2.1]
  | some outcome' =>
      rw [outcome] at agreed
      cases outcome' with
      | finished a b => simp [fine agreed.1, fine agreed.2]
      | failed other =>
          rcases agreed with ⟨client, upstream⟩ | ⟨client, upstream⟩
          · simp [client, upstream]
          · simp [client, upstream]
      | idle exit => simp [agreed.2.1, agreed.2.2.1]

/-- The write half a direction copies into is shut down only at the end of its own
source, behind the last byte. -/
def HalfClosed (s : B.State) : Prop :=
  (B.destination s).shutdowns ≠ [] →
    (B.source s).eof = true ∧ (B.destination s).delivered = (B.source s).produced ∧
      (B.destination s).shutdowns = [(B.delivered s).length]

/-- How a bidirectional transfer runs and ends, in either mode: each direction is its
own loop on its own calls and goes on until its own end of file; the transfer returns
the two counts, client to upstream first, iff both directions have ended and shut down
successfully; it returns an error as soon as a direction has it; and the watchdog ends
it only through a timer that is due, since an unfinished transfer keeps the activity
channel open. -/
theorem transfer_outcome (mode : ForwardMode) (idle : Option IdleTimeout)
    (client upstream : mode.backend.Setup) {polls : List Poll} {t : Transfer mode.backend}
    (ran : (machine mode.backend idle).exec (start client upstream) polls = some t) :
    ∃ clientCalls upstreamCalls,
      mode.backend.run (mode.backend.start client) clientCalls = some t.client ∧
      mode.backend.run (mode.backend.start upstream) upstreamCalls = some t.upstream ∧
      clientCalls <+: polls.flatMap Poll.client ∧
      upstreamCalls <+: polls.flatMap Poll.upstream ∧
      HalfClosed t.client ∧ HalfClosed t.upstream ∧
      (t.outcome = none →
        clientCalls = polls.flatMap Poll.client ∧ upstreamCalls = polls.flatMap Poll.upstream ∧
          t.Independent idle ∧ t.channelOpen = true) ∧
      (∀ a b, t.outcome.map Outcome.result = some (.ok (a, b)) ↔
        Closed mode.backend t.client clientCalls a ∧
          Closed mode.backend t.upstream upstreamCalls b) ∧
      (∀ error, t.outcome = some (.failed error) ↔
        mode.backend.failure? t.client = some error ∨
          mode.backend.failure? t.upstream = some error) ∧
      (∀ exit, t.outcome = some (.idle exit) →
        t.outcome.map Outcome.result = some (.error connectionIdleTimeout) ∧
          exit = .expired ∧ ∃ d w p, idle = some d ∧ t.watchdog = some w ∧
            polls.getLast? = some p ∧ w.deadline ≤ p.now) := by
  have agreed := exec_agreed (start_agreed client upstream) ran
  have sealed : ∀ {s : mode.backend.State}, mode.backend.Valid s → HalfClosed s := by
    intro s valid shut
    exact (mode.backend.faithful valid).sealed shut
  obtain ⟨clientCalls, upstreamCalls, clientRan, upstreamRan, clientMade, upstreamMade, whole⟩ :=
    exec_split ran
  refine ⟨clientCalls, upstreamCalls, clientRan, upstreamRan, clientMade, upstreamMade,
    ?_, ?_, ?_, ?_, ?_, ?_⟩
  · exact sealed (Backend.run_valid (mode.backend.start_valid client) clientRan)
  · exact sealed (Backend.run_valid (mode.backend.start_valid upstream) upstreamRan)
  · intro waiting
    exact ⟨(whole waiting).1, (whole waiting).2, poll_independent agreed waiting,
      (agreed.waiting waiting).2.2⟩
  · intro a b
    rw [finished_iff agreed]
    exact and_congr (closed_iff clientRan) (closed_iff upstreamRan)
  · exact fun error => failed_iff agreed
  · intro exit ended
    refine ⟨?_, exec_idle (start_agreed client upstream) rfl ran ended⟩
    rw [ended]
    rfl

/-- The client sends a byte and closes; the upstream closes two polls later, with the
timer polled first each time. -/
def halfClosePolls : List Poll :=
  [⟨1, true, true, true, false, [.taken [7], .given 1, .taken [], .shutdown (.ok ())], []⟩,
    ⟨2, true, true, true, true, [], []⟩,
    ⟨3, true, true, true, true, [], [.taken [], .shutdown (.ok ())]⟩]

theorem transfer_outcome_half_close :
    ∃ t : Transfer (ForwardMode.backend .tokio),
      (machine (ForwardMode.backend .tokio) (some ⟨10, by decide⟩)).exec
        (@start copyBackend ⟨[0, 0], by decide⟩ ⟨[0], by decide⟩) halfClosePolls = some t ∧
      t.outcome.map Outcome.result = some (.ok (1, 0)) := by
  have reaches : ∃ t : Transfer copyBackend,
      (machine copyBackend (some ⟨10, by decide⟩)).exec
        (start ⟨[0, 0], by decide⟩ ⟨[0], by decide⟩) halfClosePolls = some t ∧
      copyBackend.result t.client = some (.ok 1) ∧ copyBackend.result t.upstream = some (.ok 0) :=
    ⟨_, rfl, rfl, rfl⟩
  obtain ⟨t, ran, client, upstream⟩ := reaches
  obtain ⟨clientCalls, upstreamCalls, clientRan, upstreamRan, -, -, -, -, -, returned, -, -⟩ :=
    transfer_outcome .tokio (some ⟨10, by decide⟩) _ _ ran
  exact ⟨t, ran, (returned 1 0).mpr
    ⟨(closed_iff clientRan).mp client, (closed_iff upstreamRan).mp upstream⟩⟩

end Transfer

end Portrelay.Relay
