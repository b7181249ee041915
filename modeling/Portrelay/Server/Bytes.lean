/-
# Server.Bytes -- the byte counters against the bytes delivered

`handle_connection` reports the counts of a transfer that returned `Ok`, and `(0, 0)` on
every other way out.  The counts of an `Ok` are the bytes delivered (`Forward.counts_eq`),
so the two byte counters are right exactly as long as every transfer that ends
otherwise has delivered nothing (`bytes_accounted_iff`).
-/
import Portrelay.Server.Accounting

namespace Portrelay.Server

open Portrelay.Theory Portrelay.Relay Portrelay.Metrics

set_option autoImplicit false

namespace Task

/-- What the task reported is what its transfer had delivered. -/
def Accounted (t : Task) : Prop :=
  ∀ ending, t.ending = some ending → ending.reported = ending.delivered

/-- The event ends the transfer `forward`, and not with an `Ok` of it. -/
def Aborts (t : Task) (event : TaskEvent) (forward : Forward) : Prop :=
  t.phase = .transferring forward ∧
    ((∃ elapsed, event = .forced elapsed) ∨
      ∃ elapsed error, event = .settled elapsed ∧ forward.result = some (.error error))

theorem accounted_close {t : Task} {before : List MetricUpdate} {elapsed : Nat} {ending : Ending} :
    (t.close before elapsed ending).1.Accounted ↔ ending.reported = ending.delivered := by
  constructor
  · intro accounted
    exact accounted ending rfl
  · rintro same ending' found
    obtain rfl := Option.some.inj found
    exact same

/-- An accounted task stays accounted exactly if an event that aborts its transfer finds
nothing delivered. -/
theorem Stepped.accounted {settings : Settings} {force : Bool} {t after : Task} {event : TaskEvent}
    {effect : Effect} (ok : t.Ok settings) (accounted : t.Accounted)
    (moved : Stepped settings force t event after effect) :
    after.Accounted ↔ ∀ forward, t.Aborts event forward → forward.delivered = (0, 0) := by
  have aborted : ∀ {forward : Forward} {before : List MetricUpdate} {elapsed : Nat},
      t.Aborts event forward →
      ((t.close before elapsed ⟨(0, 0), forward.delivered⟩).1.Accounted ↔
        ∀ forward, t.Aborts event forward → forward.delivered = (0, 0)) := by
    intro forward before elapsed aborts
    rw [accounted_close]
    constructor
    · intro same other aborts'
      obtain rfl : forward = other := by
        have phases := aborts.1.symm.trans aborts'.1
        cases phases
        rfl
      exact same.symm
    · intro empty
      exact (empty forward aborts).symm
  cases moved with
  | connectEnded phase why =>
      refine iff_of_true (accounted_close.mpr rfl) fun forward aborts => ?_
      have phases := phase.symm.trans aborts.1
      cases phases
  | cutOff phase forced running => exact aborted ⟨phase, Or.inl ⟨_, rfl⟩⟩
  | failed phase failure why => exact aborted ⟨phase, Or.inr ⟨_, _, rfl, failure⟩⟩
  | @finished elapsed forward counts phase returned =>
      have valid : forward.Valid := (ok.at_ phase).2.2
      refine iff_of_true (accounted_close.mpr (Forward.counts_eq valid returned))
        fun other aborts => ?_
      obtain ⟨phase', ⟨elapsed', same⟩ | ⟨elapsed', error, same, failure⟩⟩ := aborts
      · cases same
      · rw [phase] at phase'
        cases phase'
        rw [returned] at failure
        cases failure
  | _ =>
      refine iff_of_true accounted fun forward aborts => ?_
      obtain ⟨-, ⟨elapsed, same⟩ | ⟨elapsed, error, same, failure⟩⟩ := aborts <;> cases same

end Task

namespace ServerState

variable {settings : Settings}

/-- Every connection of relay `relay` that has ended has made its last updates. -/
def NoneClosing (s : ServerState) (relay : Nat) : Prop :=
  ∀ t ∈ s.tasks, t.relay = relay → ∀ updates, t.phase ≠ .closing updates

/-- Each connection that ended reported what it had delivered, and the byte counters are
the bytes that the closed connections delivered. -/
structure BytesAccounted (s : ServerState) : Prop where
  each : ∀ t ∈ s.tasks, t.Accounted
  totals : ∀ relay b, s.relays[relay]? = some b → s.NoneClosing relay →
    b.metrics.bytesClientToUpstream = s.across relay (Task.recorded (fun e => e.delivered.1) 0) ∧
      b.metrics.bytesUpstreamToClient = s.across relay (Task.recorded (fun e => e.delivered.2) 0)

/-- A transfer that is aborted in this step has delivered nothing. -/
def AbortsEmpty (s : ServerState) (label : ServerLabel) : Prop :=
  ∀ index event t forward, label = .task index event → s.tasks[index]? = some t →
    t.Aborts event forward → forward.delivered = (0, 0)

theorem NoneClosing.owed {s : ServerState} {relay : Nat} (none : s.NoneClosing relay)
    (w : MetricUpdate → Nat) : s.across relay (Task.owes w 0) = 0 := by
  refine (tally_eq_zero_iff _ _).mpr fun t member => ?_
  split
  · have settled := none t member ‹_›
    unfold Task.owes
    cases phase : t.phase with
    | closing updates => exact absurd phase (settled updates)
    | _ => rfl
  · rfl

/-- The counters add up what was reported, and that is what was delivered. -/
theorem totals_of_each {s : ServerState} (reached : (machine settings).Reachable s)
    (each : ∀ t ∈ s.tasks, t.Accounted) : s.BytesAccounted := by
  refine ⟨each, fun relay b found none => ?_⟩
  have books := reachable_books reached relay b found
  have same : ∀ value : Nat × Nat → Nat,
      s.across relay (Task.recorded (fun e => value e.reported) 0) =
        s.across relay (Task.recorded (fun e => value e.delivered) 0) := by
    intro value
    refine congrArg List.sum (List.map_congr_left fun t member => ?_)
    have accounted := each t member
    cases ending : t.ending with
    | none => simp only [Task.recorded, ending, Option.getD_none]
    | some e => simp only [Task.recorded, ending, Option.getD_some, accounted e ending]
  have upstream := books.settled Meter.clientToUpstream _ 0 clientToUpstream_settles
  have client := books.settled Meter.upstreamToClient _ 0 upstreamToClient_settles
  rw [none.owed, Nat.add_zero, same] at upstream client
  exact ⟨upstream, client⟩

theorem step_accounted_iff {s t : ServerState} {label : ServerLabel} (ok : s.Ok settings)
    (each : ∀ u ∈ s.tasks, u.Accounted) (stepped : step settings s label = some t) :
    (∀ u ∈ t.tasks, u.Accounted) ↔ AbortsEmpty s label := by
  have exactly : ∀ {index : Nat} {event u after effect}, s.tasks[index]? = some u →
      Task.Stepped settings s.force u event after effect →
      (after.Accounted ↔ ∀ forward, u.Aborts event forward → forward.delivered = (0, 0)) := by
    intro index event u after effect found moved
    have member := List.mem_of_getElem? found
    exact moved.accounted (ok.tasks u member) (each u member)
  constructor
  · intro all index event u forward same found aborts
    subst same
    cases step_stepped stepped with
    | @task _ _ u' after effect found' moved =>
        obtain rfl := Option.some.inj (found.symm.trans found')
        have inside := (List.getElem?_eq_some_iff.mp found).1
        refine (exactly found moved).mp (all after ?_) forward aborts
        rcases perform_tasks { s with tasks := s.tasks.set index after } u.relay effect with
          same | ⟨held, spawns, -⟩
        · rw [same]
          exact List.mem_set inside after
        · exact absurd spawns (moved.no_spawn held)
  · intro empty
    refine step_tasks stepped each ?_ ?_
    · intro relay held b found spawning ending ended
      cases ended
    · intro index event u after effect same found moved
      exact (exactly found moved).mpr fun forward aborts =>
        empty index event u forward same found aborts

/-- In every run, the byte counters account for every byte iff every transfer that is
aborted, by an error, the idle timeout or forced shutdown, has delivered nothing. -/
theorem bytes_accounted_iff (settings : Settings) (labels : List ServerLabel) :
    (machine settings).Along BytesAccounted (start settings) labels ↔
      (machine settings).Guarded AbortsEmpty (start settings) labels := by
  have kept : ∀ s a t, (machine settings).Reachable s → (machine settings).step s a = some t →
      (machine settings).Reachable t := fun _ _ _ reached stepped => reached.step stepped
  refine (machine settings).along_iff_guarded kept ?_ (.start rfl) ?_
  · intro s label t reached accounted stepped
    have exactly := step_accounted_iff (reachable_ok reached) accounted.each stepped
    exact ⟨fun after => exactly.mp after.each,
      fun empty => totals_of_each (reached.step stepped) (exactly.mpr empty)⟩
  · exact totals_of_each (.start rfl) fun t member => by cases member

/-- A connection of the first relay: its client sends a byte, which the upstream
accepts; then the connection to the upstream is reset. -/
def resetAfterByte : List ServerLabel :=
  .listener 0 .accept :: List.replicate 10 (.listener 0 .next) ++
    [.task 0 .connected, .task 0 .next, .task 0 .next, .task 0 .next,
      .task 0 (.forward (.prepared ⟨[0], Nat.zero_lt_one⟩ ⟨[0], Nat.zero_lt_one⟩)),
      .task 0 (.forward (.poll ⟨1, true, true, true, false, [.taken [7], .given 1], []⟩)),
      .task 0 (.forward (.poll ⟨2, true, true, true, false, [],
        [.takeFailed (.os .other)]⟩)),
      .task 0 (.settled 3)] ++
    List.replicate 8 (.task 0 .next)

theorem reset_loses_bytes :
    ¬ (machine twoRelays).Along BytesAccounted (start twoRelays) resetAfterByte ∧
      ∃ (s : ServerState) (t : Task) (b : BoundRelay),
        (machine twoRelays).exec (start twoRelays) resetAfterByte = some s ∧
        s.tasks[0]? = some t ∧ t.ending = some ⟨(0, 0), (1, 0)⟩ ∧ s.relays[0]? = some b ∧
        b.metrics.connectionsClosed = 1 ∧ b.metrics.bytesClientToUpstream = 0 := by
  have reaches :
      ∃ (s : ServerState) (t : Task) (b : BoundRelay),
        (machine twoRelays).exec (start twoRelays) resetAfterByte = some s ∧
        s.tasks[0]? = some t ∧ t.ending = some ⟨(0, 0), (1, 0)⟩ ∧ s.relays[0]? = some b ∧
        b.metrics.connectionsClosed = 1 ∧ b.metrics.bytesClientToUpstream = 0 :=
    ⟨_, _, _, rfl, rfl, rfl, rfl, rfl, rfl⟩
  obtain ⟨s, t, b, ran, found, ending, bound, closed, bytes⟩ := reaches
  refine ⟨fun along => ?_, s, t, b, ran, found, ending, bound, closed, bytes⟩
  have same := (along.last ran).each t (List.mem_of_getElem? found) _ ending
  cases same

end ServerState

end Portrelay.Server
