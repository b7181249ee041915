/-
# Relay.IdleFairness -- which transfers the watchdog may close

One transfer on its clock (`Timed`).  An ending is fair when nothing was accepted by
either destination in the open interval of one idle timeout before it.
`splice_direction` speaks after every partial write, `copy_direction` only after a
whole `write_all`, so an ending is unfair exactly when a copy loop is inside a chunk
whose last pieces were accepted too recently (`idle_exit_fair_iff`).
-/
import Portrelay.Relay.Timed

namespace Portrelay.Relay

open Portrelay.Theory

set_option autoImplicit false

/-- A transfer and the clock it runs on. -/
structure Timed (B : Backend) where
  now : Nat
  logged : Logged B

inductive TimedLabel
  | tick
  | poll (p : Poll)

namespace Timed

variable {B : Backend}

def step (d : IdleTimeout) (s : Timed B) : TimedLabel → Option (Timed B)
  | .tick => if s.logged.mayWait s.now then some { s with now := s.now + 1 } else none
  | .poll p =>
      if p.now = s.now then (s.logged.poll (some d) p).map fun logged => { s with logged }
      else none

def machine (B : Backend) (d : IdleTimeout) : Machine (Timed B) TimedLabel :=
  ⟨fun s => ∃ now client upstream, s = ⟨now, .start client upstream⟩, step d⟩

/-- If the watchdog ended the transfer at `T`, no byte was accepted between `T - d`
and `T`. -/
def Fair (d : IdleTimeout) (s : Timed B) : Prop :=
  ∀ exit T, s.logged.transfer.outcome = some (.idle exit) → s.logged.endedAt = some T →
    ∀ a ∈ s.logged.accepted, ¬ (T < a + d.nanos ∧ a < T)

/-- The watchdog ends the transfer in this step. -/
def TimesOut (d : IdleTimeout) (s : Timed B) (label : TimedLabel) : Prop :=
  s.logged.transfer.outcome = none ∧
    ∃ t exit, step d s label = some t ∧ t.logged.transfer.outcome = some (.idle exit)

/-- No direction is inside a chunk of which it got a part accepted less than the idle
timeout ago. -/
structure ChunksQuiet (d : IdleTimeout) (s : Timed B) : Prop where
  client : B.partway s.logged.transfer.client = true →
    ∀ a ∈ s.logged.clientAccepted, ¬ (s.now < a + d.nanos ∧ a < s.now)
  upstream : B.partway s.logged.transfer.upstream = true →
    ∀ a ∈ s.logged.upstreamAccepted, ¬ (s.now < a + d.nanos ∧ a < s.now)

def Inv (d : IdleTimeout) (s : Timed B) : Prop := s.logged.Inv d s.now

theorem step_inv {d : IdleTimeout} {s t : Timed B} {label : TimedLabel} (inv : s.Inv d)
    (stepped : step d s label = some t) : t.Inv d := by
  cases label with
  | tick =>
      simp only [step] at stepped
      split at stepped <;> [skip; cases stepped]
      rename_i allowed
      obtain rfl := Option.some.inj stepped
      exact Logged.wait_inv inv allowed
  | poll p =>
      simp only [step] at stepped
      split at stepped <;> [skip; cases stepped]
      rename_i present
      obtain ⟨logged, polled, rfl⟩ := Option.map_eq_some_iff.mp stepped
      have before : s.logged.Inv d p.now := by rw [present]; exact inv
      have after := Logged.poll_inv before polled
      rwa [present] at after

/-- What an ending by the watchdog leaves in the log: nothing new but at this instant,
and nothing recent but pieces of an unfinished chunk. -/
theorem timeout_log {d : IdleTimeout} {s : Logged B} {p : Poll} {t : Transfer B}
    {exit : WatchdogExit} (inv : s.Inv d p.now) (polled : s.transfer.poll (some d) p = some t)
    (ended : t.outcome = some (.idle exit)) :
    (∀ a ∈ s.clientAccepted, a + d.nanos ≤ p.now ∨ B.partway s.transfer.client = true) ∧
      ∀ a ∈ s.upstreamAccepted, a + d.nanos ≤ p.now ∨ B.partway s.transfer.upstream = true := by
  obtain ⟨d', w, same, armed, -, due⟩ := Transfer.poll_idle inv.agreed polled ended
  have waiting := (Transfer.poll_polled polled).1
  obtain ⟨covers, -, early⟩ := inv.armed w waiting armed
  have seen : w.seen = s.transfer.sent := by
    by_contra unseen
    have := early unseen
    omega
  constructor
  · intro a member
    rcases (covers.client a member).2 with told | inside | unseen
    · exact Or.inl (by omega)
    · exact Or.inr inside
    · exact absurd seen unseen
  · intro a member
    rcases (covers.upstream a member).2 with told | inside | unseen
    · exact Or.inl (by omega)
    · exact Or.inr inside
    · exact absurd seen unseen

/-- An ending by the watchdog is fair exactly when no chunk was moving. -/
theorem timeout_fair_iff {d : IdleTimeout} {s : Timed B} {p : Poll} {t : Logged B}
    {exit : WatchdogExit} (inv : s.Inv d) (present : p.now = s.now)
    (polled : s.logged.poll (some d) p = some t)
    (ended : t.transfer.outcome = some (.idle exit)) :
    Fair d { s with logged := t } ↔ s.ChunksQuiet d := by
  obtain ⟨after, happened, rfl⟩ := Option.map_eq_some_iff.mp polled
  have before : s.logged.Inv d p.now := by rw [present]; exact inv
  obtain ⟨client, upstream⟩ := timeout_log before happened ended
  have endedAt : (s.logged.moved p.now after).endedAt = some s.now := by
    change (if after.outcome.isSome then some p.now else none) = some s.now
    rw [show after.outcome = some (.idle exit) from ended, present]
    rfl
  constructor
  · intro fair
    constructor
    · exact fun _ a old => fair exit s.now ended endedAt a
        (List.mem_append_left _ (Logged.mem_note_of_mem old))
    · exact fun _ a old => fair exit s.now ended endedAt a
        (List.mem_append_right _ (Logged.mem_note_of_mem old))
  · rintro quiet exit' T - at_ a member ⟨recent, past⟩
    obtain rfl : s.now = T := by
      rw [endedAt] at at_
      exact Option.some.inj at_
    rcases List.mem_append.mp member with member | member
    · rcases Logged.mem_note member with old | ⟨rfl, -⟩
      · rcases client a old with told | inside
        · omega
        · exact quiet.client inside a old ⟨recent, past⟩
      · omega
    · rcases Logged.mem_note member with old | ⟨rfl, -⟩
      · rcases upstream a old with told | inside
        · omega
        · exact quiet.upstream inside a old ⟨recent, past⟩
      · omega

theorem step_fair_iff {d : IdleTimeout} {s t : Timed B} {label : TimedLabel} (inv : s.Inv d)
    (fair : s.Fair d) (stepped : step d s label = some t) :
    t.Fair d ↔ (s.TimesOut d label → s.ChunksQuiet d) := by
  cases label with
  | tick =>
      simp only [step] at stepped
      split at stepped <;> [skip; cases stepped]
      rename_i allowed
      obtain rfl := Option.some.inj stepped
      refine ⟨?_, fun _ => fair⟩
      rintro - ⟨waiting, t, exit, ticked, ended⟩
      rw [step, if_pos allowed] at ticked
      obtain rfl := Option.some.inj ticked
      rw [show s.logged.transfer.outcome = some (.idle exit) from ended] at waiting
      cases waiting
  | poll p =>
      have stepped' := stepped
      simp only [step] at stepped
      split at stepped <;> [skip; cases stepped]
      rename_i present
      obtain ⟨logged, polled, rfl⟩ := Option.map_eq_some_iff.mp stepped
      have waiting : s.logged.transfer.outcome = none := by
        obtain ⟨after, happened, -⟩ := Option.map_eq_some_iff.mp polled
        exact (Transfer.poll_polled happened).1
      constructor
      · rintro fair' ⟨-, t, exit, polled', ended⟩
        rw [stepped'] at polled'
        obtain rfl := Option.some.inj polled'
        exact (timeout_fair_iff inv present polled ended).mp fair'
      · intro quiet exit T ended
        have timesOut : s.TimesOut d (.poll p) := ⟨waiting, _, exit, stepped', ended⟩
        exact (timeout_fair_iff inv present polled ended).mpr (quiet timesOut) exit T ended

theorem init_inv {d : IdleTimeout} {s : Timed B} (initial : (machine B d).init s) : s.Inv d := by
  obtain ⟨now, client, upstream, rfl⟩ := initial
  exact Logged.start_inv now client upstream

theorem init_fair {d : IdleTimeout} {s : Timed B} (initial : (machine B d).init s) :
    s.Fair d := by
  obtain ⟨now, client, upstream, rfl⟩ := initial
  intro exit T ended
  cases ended

/-- Along every timed run in either mode, the watchdog never ends a transfer whose bytes
were moving, exactly when at every step where it ends the transfer no direction is
inside a chunk of which a part was accepted within the last idle timeout. -/
theorem idle_exit_fair_iff (mode : ForwardMode) (d : IdleTimeout) {s : Timed mode.backend}
    (initial : (machine mode.backend d).init s) (labels : List TimedLabel) :
    (machine mode.backend d).Along (Fair d) s labels ↔
      (machine mode.backend d).Guarded (fun s label => s.TimesOut d label → s.ChunksQuiet d)
        s labels := by
  apply Machine.along_iff_guarded
  · exact fun s label t inv stepped => step_inv inv stepped
  · exact fun s label t inv fair stepped => step_fair_iff inv fair stepped
  · exact init_inv initial
  · exact init_fair initial

/-- A receiver that takes one byte of a two-byte chunk at time 2, with an idle timeout
of 3: nothing is said about that byte, and the timer fires at time 3. -/
def slowReceiver : List TimedLabel :=
  [.poll ⟨0, true, true, true, false, [.taken [1, 2]], []⟩, .tick, .tick,
    .poll ⟨2, true, true, true, false, [.given 1], []⟩, .tick,
    .poll ⟨3, true, true, true, false, [], []⟩]

def slowStart : Timed copyBackend :=
  ⟨0, .start ⟨[0, 0], by decide⟩ ⟨[0], by decide⟩⟩

theorem idle_exit_fair_iff_slow_receiver :
    (machine copyBackend ⟨3, by decide⟩).Along (Fair ⟨3, by decide⟩) slowStart slowReceiver ↔
      (machine copyBackend ⟨3, by decide⟩).Guarded
        (fun s label => s.TimesOut ⟨3, by decide⟩ label → s.ChunksQuiet ⟨3, by decide⟩)
        slowStart slowReceiver :=
  idle_exit_fair_iff .tokio ⟨3, by decide⟩ ⟨0, _, _, rfl⟩ slowReceiver

theorem slow_receiver_closed_as_idle :
    (machine copyBackend ⟨3, by decide⟩).init slowStart ∧
      ¬ (machine copyBackend ⟨3, by decide⟩).Along (Fair ⟨3, by decide⟩) slowStart slowReceiver := by
  refine ⟨⟨0, _, _, rfl⟩, fun fair => ?_⟩
  have reaches :
      ∃ t, (machine copyBackend ⟨3, by decide⟩).exec slowStart slowReceiver = some t ∧
        t.logged.transfer.outcome = some (.idle .expired) ∧ t.logged.endedAt = some 3 ∧
        t.logged.accepted = [2] := ⟨_, rfl, rfl, rfl, rfl⟩
  obtain ⟨t, ran, outcome, endedAt, accepted⟩ := reaches
  refine fair.last ran .expired 3 outcome endedAt 2 ?_ ⟨by decide, by decide⟩
  rw [accepted]
  exact List.mem_cons_self

/-- The splice loop is never inside a chunk it has not spoken about, so its transfers are
always ended fairly. -/
theorem splice_always_fair (d : IdleTimeout) {s : Timed spliceBackend}
    (initial : (machine spliceBackend d).init s) (labels : List TimedLabel) :
    (machine spliceBackend d).Along (Fair d) s labels := by
  have quiet : ∀ s : Timed spliceBackend, s.ChunksQuiet d := by
    intro s
    constructor
    · intro inside
      cases inside
    · intro inside
      cases inside
  apply Machine.along_of_guarded
  · exact fun s label t inv stepped => step_inv inv stepped
  · exact fun s label t inv fair stepped => (step_fair_iff inv fair stepped).mpr
  · exact init_inv initial
  · exact init_fair initial
  · exact Machine.guarded_of_forall _ (fun s _ _ => quiet s) s labels

end Timed

end Portrelay.Relay
