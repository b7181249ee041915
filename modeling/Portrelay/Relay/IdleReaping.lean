/-
# Relay.IdleReaping -- an idle transfer is closed in time

The other side of fairness: the timer of a transfer that was polled once is due no later than
one idle timeout after that poll, or after a byte that a destination accepted, and time does
not pass a due timer.

* `Recent` -- what the timer says of the run so far, kept by `step_recent`.
* `idle_reaped` -- a transfer that goes on had a byte accepted within the timeout, one that the
  watchdog ends was ended no later, and time goes on.
* `idle_exact` -- so the splice loop's transfers are ended at the instant they become idle.
-/
import Portrelay.Relay.IdleFairness

namespace Portrelay.Relay

open Portrelay.Theory

set_option autoImplicit false

namespace Timed

variable {B : Backend} {d : IdleTimeout}

/-- `time` is within the idle timeout from `began` or from an accepted byte. -/
def Within (d : IdleTimeout) (began : Nat) (s : Timed B) (time : Nat) : Prop :=
  time ≤ began + d.nanos ∨ ∃ a ∈ s.logged.accepted, time = a + d.nanos

/-- The timer was set at `began` or earlier, or when a byte was accepted; and so was the timer
that ended the transfer. -/
structure Recent (d : IdleTimeout) (began : Nat) (s : Timed B) : Prop where
  armed : s.logged.transfer.outcome = none → ∃ w, s.logged.transfer.watchdog = some w ∧
    s.now ≤ w.deadline ∧ s.Within d began w.deadline
  ended : ∀ exit time, s.logged.transfer.outcome = some (.idle exit) →
    s.logged.endedAt = some time → s.Within d began time

/-- Bytes once accepted stay in the log. -/
theorem Within.moved {began time now : Nat} {s : Timed B} (within : s.Within d began time)
    (t : Transfer B) : Within d began ⟨s.now, s.logged.moved now t⟩ time := by
  rcases within with early | ⟨a, member, same⟩
  · exact Or.inl early
  · refine Or.inr ⟨a, ?_, same⟩
    rcases List.mem_append.mp member with old | old
    · exact List.mem_append_left _ (Logged.mem_note_of_mem old)
    · exact List.mem_append_right _ (Logged.mem_note_of_mem old)

/-- An ending by the watchdog is at the deadline of its timer. -/
theorem poll_ended {s : Logged B} {p : Poll} {t : Transfer B} {exit : WatchdogExit}
    (inv : s.Inv d p.now) (polled : s.transfer.poll (some d) p = some t)
    (ended : t.outcome = some (.idle exit)) :
    ∃ w, s.transfer.watchdog = some w ∧ p.now = w.deadline := by
  obtain ⟨-, w, -, armed, -, due⟩ := Transfer.poll_idle inv.agreed polled ended
  obtain ⟨-, early, -⟩ := inv.armed w (Transfer.poll_polled polled).1 armed
  exact ⟨w, armed, Nat.le_antisymm early due⟩

theorem poll_recent {began : Nat} {s : Timed B} {p : Poll} {t : Logged B} (inv : s.Inv d)
    (recent : s.Recent d began) (present : p.now = s.now)
    (polled : s.logged.poll (some d) p = some t) : Recent d began { s with logged := t } := by
  obtain ⟨after, happened, rfl⟩ := Option.map_eq_some_iff.mp polled
  have before : s.logged.Inv d p.now := by rw [present]; exact inv
  obtain ⟨w, armed, -, within⟩ := recent.armed (Transfer.poll_polled happened).1
  constructor
  · intro waiting
    obtain ⟨w', armed', -, early, reset⟩ := Logged.poll_covers before happened waiting
    refine ⟨w', armed', present ▸ Nat.le_of_lt early, ?_⟩
    rcases reset with same | ⟨fresh, logged⟩
    · have kept : w'.deadline = w.deadline := by
        rw [same, Transfer.armed, armed]
        rfl
      rw [kept]
      exact within.moved after
    · exact Or.inr ⟨p.now, logged, fresh⟩
  · intro exit time ended at_
    obtain ⟨w', armed', same⟩ := poll_ended before happened ended
    obtain rfl := Option.some.inj (armed.symm.trans armed')
    have now : p.now = time := by
      have noted : (if after.outcome.isSome then some p.now else none) = some time := at_
      rw [show after.outcome = some (.idle exit) from ended] at noted
      exact Option.some.inj noted
    rw [← now, same]
    exact within.moved after

theorem tick_recent {began : Nat} {s : Timed B} (recent : s.Recent d began)
    (allowed : s.logged.mayWait s.now = true) : Recent d began { s with now := s.now + 1 } := by
  refine ⟨fun waiting => ?_, recent.ended⟩
  obtain ⟨w, armed, -, within⟩ := recent.armed waiting
  refine ⟨w, armed, ?_, within⟩
  have waits : s.now < w.deadline ∧ w.seen = s.logged.transfer.sent := by
    simpa [Logged.mayWait, show s.logged.transfer.outcome = none from waiting, armed] using allowed
  exact waits.1

theorem step_recent {began : Nat} {s t : Timed B} {label : TimedLabel} (inv : s.Inv d)
    (recent : s.Recent d began) (stepped : step d s label = some t) : t.Recent d began := by
  cases label with
  | tick =>
      simp only [step] at stepped
      obtain ⟨allowed, same⟩ := Option.ite_none_right_eq_some.mp stepped
      obtain rfl := Option.some.inj same
      exact tick_recent recent allowed
  | poll p =>
      simp only [step] at stepped
      obtain ⟨present, polled⟩ := Option.ite_none_right_eq_some.mp stepped
      obtain ⟨logged, happened, rfl⟩ := Option.map_eq_some_iff.mp polled
      exact poll_recent inv recent present happened

theorem reachable_inv {s : Timed B} (reached : (machine B d).Reachable s) : s.Inv d :=
  (machine B d).invariant (P := fun s => s.Inv d) (fun _ initial => init_inv initial)
    (fun _ _ _ _ inv stepped => step_inv inv stepped) reached

/-- A timer is due within the idle timeout. -/
theorem reachable_deadline {s : Timed B} (reached : (machine B d).Reachable s)
    (waiting : s.logged.transfer.outcome = none) {w : Watchdog}
    (armed : s.logged.transfer.watchdog = some w) : w.deadline ≤ s.now + d.nanos := by
  refine (machine B d).invariant (P := fun s => s.logged.transfer.outcome = none →
    ∀ w, s.logged.transfer.watchdog = some w → w.deadline ≤ s.now + d.nanos) ?_ ?_ reached waiting
    w armed
  · rintro s ⟨now, client, upstream, rfl⟩ - w armed
    cases armed
  · intro s label t before soon stepped waiting w armed
    cases label with
    | tick =>
        simp only [machine, step] at stepped
        obtain ⟨allowed, same⟩ := Option.ite_none_right_eq_some.mp stepped
        obtain rfl := Option.some.inj same
        have still := soon waiting w armed
        show w.deadline ≤ s.now + 1 + d.nanos
        omega
    | poll p =>
        simp only [machine, step] at stepped
        obtain ⟨present, polled⟩ := Option.ite_none_right_eq_some.mp stepped
        obtain ⟨logged, ran, rfl⟩ := Option.map_eq_some_iff.mp polled
        obtain ⟨after, happened, rfl⟩ := Option.map_eq_some_iff.mp ran
        have inv : s.logged.Inv d p.now := by rw [present]; exact reachable_inv before
        obtain ⟨w', armed', -, early, reset⟩ := Logged.poll_covers inv happened waiting
        obtain rfl := Option.some.inj (armed'.symm.trans armed)
        show w'.deadline ≤ s.now + d.nanos
        rcases reset with same | ⟨fresh, -⟩
        · rw [same, Transfer.armed]
          cases found : s.logged.transfer.watchdog with
          | none => exact Nat.le_of_eq (congrArg (· + d.nanos) present)
          | some w => exact soon (Transfer.poll_polled happened).1 w found
        · exact Nat.le_of_eq (by rw [fresh, present])

/-! ## Time goes on -/

/-- A poll in which no call completes, the timer last. -/
def quietPoll (now : Nat) : Poll := ⟨now, false, true, true, false, [], []⟩

theorem quiet_transfer {t : Transfer B} (agreed : t.Agreed) (waiting : t.outcome = none) (now : Nat) :
    t.pollTransfer (quietPoll now) = some t := by
  obtain ⟨clientFine, upstreamFine, opened⟩ := agreed.waiting waiting
  have unfinished : Transfer.joined t.client t.upstream none = t.outcome := by
    rw [waiting]
    unfold Transfer.channelOpen at opened
    simp only [Transfer.joined]
    cases client : B.result t.client with
    | none => rfl
    | some result =>
        rw [client] at opened
        have running : B.result t.upstream = none := by simpa using opened
        rw [running]
        cases result <;> rfl
  have joins : Transfer.tryJoin t.client t.upstream [] [] = some (t.client, t.upstream, none) := by
    have rests : ∀ s : B.State, B.run s [] = some s := fun s => rfl
    simp only [Transfer.tryJoin, rests, Option.bind_some, clientFine, Option.map_some, upstreamFine]
  show (Transfer.tryJoin t.client t.upstream [] []).map _ = some t
  rw [joins, Option.map_some, unfinished]

/-- After such a poll nothing is due. -/
theorem quiet_poll {s : Timed B} (inv : s.Inv d) (waiting : s.logged.transfer.outcome = none) :
    ∃ t, step d s (.poll (quietPoll s.now)) = some t ∧ t.now = s.now ∧
      t.logged.mayWait t.now = true := by
  obtain ⟨-, -, opened⟩ := inv.agreed.waiting waiting
  have pos := d.pos
  have polled : s.logged.transfer.poll (some d) (quietPoll s.now) =
      some (s.logged.transfer.pollIdle d (quietPoll s.now)) := by
    unfold Transfer.poll
    rw [waiting]
    show (s.logged.transfer.pollTransfer (quietPoll s.now)).map _ = _
    rw [quiet_transfer inv.agreed waiting, Option.map_some, waiting]
    rfl
  refine ⟨⟨s.now, s.logged.moved s.now (s.logged.transfer.pollIdle d (quietPoll s.now))⟩, ?_, rfl, ?_⟩
  · show (if s.now = s.now then _ else none) = _
    rw [if_pos rfl, Logged.poll, polled]
    rfl
  · show Logged.mayWait (s.logged.moved s.now (s.logged.transfer.pollIdle d (quietPoll s.now)))
      s.now = true
    rcases Transfer.pollIdle_cases d (quietPoll s.now) opened with
      ⟨same, -⟩ | ⟨same, -, early⟩ | ⟨same, -⟩
    · rw [same]
      rfl
    · rw [same]
      simp only [Logged.mayWait, Logged.moved, waiting, Option.isSome_none, Bool.false_or]
      exact decide_eq_true ⟨early, rfl⟩
    · rw [same]
      simp only [Logged.mayWait, Logged.moved, waiting, Option.isSome_none, Bool.false_or]
      exact decide_eq_true ⟨Nat.lt_add_of_pos_right pos, rfl⟩

theorem pass_exec (d : IdleTimeout) {s : Timed B} (allowed : s.logged.mayWait s.now = true) :
    (machine B d).exec s [.tick] = some { s with now := s.now + 1 } := by
  have passed : (machine B d).step s .tick = some { s with now := s.now + 1 } := if_pos allowed
  rw [Machine.exec_cons, passed]
  rfl

theorem time_goes_on {s : Timed B} (reached : (machine B d).Reachable s) (n : Nat) :
    ∃ labels t, (machine B d).exec s labels = some t ∧ t.now = s.now + n := by
  induction n with
  | zero => exact ⟨[], s, rfl, rfl⟩
  | succ n ih =>
      obtain ⟨labels, m, ran, here⟩ := ih
      have next : ∃ more t, (machine B d).exec m more = some t ∧ t.now = m.now + 1 := by
        cases allowed : m.logged.mayWait m.now with
        | true => exact ⟨[.tick], { m with now := m.now + 1 }, pass_exec d allowed, rfl⟩
        | false =>
            have waiting : m.logged.transfer.outcome = none := by
              cases outcome : m.logged.transfer.outcome with
              | none => rfl
              | some ended => simp [Logged.mayWait, outcome] at allowed
            obtain ⟨t, polled, same, idle⟩ := quiet_poll (reachable_inv (reached.exec ran)) waiting
            have stepped : (machine B d).step m (.poll (quietPoll m.now)) = some t := polled
            refine ⟨[.poll (quietPoll m.now), .tick], { t with now := t.now + 1 }, ?_, ?_⟩
            · rw [Machine.exec_cons, stepped]
              exact pass_exec d idle
            · rw [same]
      obtain ⟨more, t, later, there⟩ := next
      refine ⟨labels ++ more, t, ?_, ?_⟩
      · rw [Machine.exec_append, ran]
        exact later
      · rw [there, here]
        rfl

/-- A transfer that has been polled and goes on, and that then runs for longer, had a byte
accepted within the idle timeout; one that the watchdog ends was ended at the latest when the
timeout had passed since the first of these instants or since a byte; and time goes on. -/
theorem idle_reaped (mode : ForwardMode) (d : IdleTimeout) {m s : Timed mode.backend}
    {labels : List TimedLabel} (reached : (machine mode.backend d).Reachable m)
    (running : m.logged.transfer.outcome = none) (polled : m.logged.transfer.watchdog ≠ none)
    (ran : (machine mode.backend d).exec m labels = some s) :
    (s.logged.transfer.outcome = none →
      s.now ≤ m.now + d.nanos ∨ ∃ a ∈ s.logged.accepted, s.now ≤ a + d.nanos) ∧
    (∀ exit time, s.logged.transfer.outcome = some (.idle exit) →
      s.logged.endedAt = some time →
        time ≤ m.now + d.nanos ∨ ∃ a ∈ s.logged.accepted, time = a + d.nanos) ∧
    ∀ n, ∃ more t, (machine mode.backend d).exec s more = some t ∧ t.now = s.now + n := by
  obtain ⟨w, armed⟩ := Option.ne_none_iff_exists'.mp polled
  have start : m.Recent d m.now := by
    refine ⟨fun _ => ⟨w, armed, ?_, Or.inl (reachable_deadline reached running armed)⟩, ?_⟩
    · exact ((reachable_inv reached).armed w running armed).2.1
    · intro exit time ended
      cases running.symm.trans ended
  have along := (machine mode.backend d).along_of_kept
    (P := fun s => s.Inv d ∧ s.Recent d m.now)
    (fun s label t ⟨inv, recent⟩ stepped => ⟨step_inv inv stepped, step_recent inv recent stepped⟩)
    ⟨reachable_inv reached, start⟩ labels
  obtain ⟨-, recent⟩ := along.last ran
  refine ⟨?_, recent.ended, time_goes_on (reached.exec ran)⟩
  intro waiting
  obtain ⟨w, -, early, within⟩ := recent.armed waiting
  rcases within with first | ⟨a, member, same⟩
  · exact Or.inl (Nat.le_trans early first)
  · exact Or.inr ⟨a, member, same ▸ early⟩

/-- The slow receiver after its first poll, and to its end. -/
theorem idle_reaped_slow_receiver :
    ∃ m s, (machine copyBackend ⟨3, by decide⟩).exec slowStart (slowReceiver.take 1) = some m ∧
      (machine copyBackend ⟨3, by decide⟩).exec m (slowReceiver.drop 1) = some s ∧
      s.logged.transfer.outcome = some (.idle .expired) ∧
      (3 ≤ m.now + 3 ∨ ∃ a ∈ s.logged.accepted, 3 = a + 3) := by
  have ran : ∃ m s, (machine copyBackend ⟨3, by decide⟩).exec slowStart (slowReceiver.take 1) = some m ∧
      (machine copyBackend ⟨3, by decide⟩).exec m (slowReceiver.drop 1) = some s ∧
      m.logged.transfer.outcome = none ∧ m.logged.transfer.watchdog = some ⟨3, 0⟩ ∧
      s.logged.transfer.outcome = some (.idle .expired) ∧ s.logged.endedAt = some 3 :=
    ⟨_, _, rfl, rfl, rfl, rfl, rfl, rfl⟩
  obtain ⟨m, s, first, rest, running, armed, ended, at_⟩ := ran
  have reached := ((machine copyBackend ⟨3, by decide⟩).reachable_iff_exec m).mpr
    ⟨slowStart, _, ⟨0, _, _, rfl⟩, first⟩
  have polled : m.logged.transfer.watchdog ≠ none := by
    rw [armed]
    exact Option.some_ne_none _
  exact ⟨m, s, first, rest, ended,
    (idle_reaped .tokio ⟨3, by decide⟩ reached running polled rest).2.1 .expired 3 ended at_⟩

/-- The splice loop's transfers: ended when the idle timeout has passed since the last byte
before the end, to the instant. -/
theorem idle_exact (d : IdleTimeout) {start m s : Timed spliceBackend}
    {before labels : List TimedLabel} (initial : (machine spliceBackend d).init start)
    (began : (machine spliceBackend d).exec start before = some m)
    (running : m.logged.transfer.outcome = none) (polled : m.logged.transfer.watchdog ≠ none)
    (ran : (machine spliceBackend d).exec m labels = some s) {exit : WatchdogExit} {time : Nat}
    (ended : s.logged.transfer.outcome = some (.idle exit))
    (at_ : s.logged.endedAt = some time) (late : m.now + d.nanos < time) :
    ∃ a ∈ s.logged.accepted, time = a + d.nanos ∧
      ∀ b ∈ s.logged.accepted, b ≤ a ∨ time ≤ b := by
  have reached := ((machine spliceBackend d).reachable_iff_exec m).mpr ⟨start, before, initial, began⟩
  have whole : (machine spliceBackend d).exec start (before ++ labels) = some s := by
    rw [Machine.exec_append, began]
    exact ran
  have fair := (splice_always_fair d initial (before ++ labels)).last whole
  rcases (idle_reaped .splice d reached running polled ran).2.1 exit time ended at_ with
    early | ⟨a, member, same⟩
  · omega
  · refine ⟨a, member, same, fun b other => ?_⟩
    have quiet := fair exit time ended at_ b other
    omega

end Timed

end Portrelay.Relay
