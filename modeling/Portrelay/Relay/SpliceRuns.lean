/-
# Relay.SpliceRuns -- the splice loop on one stream

`splice_direction` against a source that holds a given stream: how many bytes each call
moves, and which calls fail, is up to the run.

* `splice_exact` -- along every run the pipe holds the pending bytes, what is delivered is
  counted, no byte is lost or reordered, and `Ok(n)` is the whole stream.
-/
import Portrelay.Relay.SpliceDirection
import Portrelay.Theory.Machine

namespace Portrelay.Relay

open Portrelay.Theory

set_option autoImplicit false

/-- The loop, and what the source still holds. -/
structure SpliceRun where
  remaining : List UInt8
  direction : SpliceDirection
  deriving DecidableEq

/-- What a call of the loop comes to: the bytes a splice moves or its error, or the
outcome of the shutdown. -/
inductive SpliceCall
  | fill (count : Nat)
  | fillFails (error : IoError)
  | drain (count : Nat)
  | drainFails (error : IoError)
  | shutdown (outcome : Except IoError Unit)
  deriving DecidableEq

namespace SpliceRun

def start (stream : List UInt8) : SpliceRun := ⟨stream, .start⟩

/-- The pipe is filled with the next bytes of the stream, and with none of them only at
its end. -/
def step (s : SpliceRun) : SpliceCall → Option SpliceRun
  | .fill count =>
      if count ≤ s.remaining.length ∧ (count = 0 → s.remaining = []) then
        (s.direction.step (.taken (s.remaining.take count))).map
          fun direction => ⟨s.remaining.drop count, direction⟩
      else none
  | .fillFails error =>
      (s.direction.step (.takeFailed error)).map fun direction => { s with direction }
  | .drain count => (s.direction.step (.given count)).map fun direction => { s with direction }
  | .drainFails error =>
      (s.direction.step (.giveFailed error)).map fun direction => { s with direction }
  | .shutdown outcome =>
      (s.direction.step (.shutdown outcome)).map fun direction => { s with direction }

def machine (stream : List UInt8) : Machine SpliceRun SpliceCall :=
  ⟨fun s => s = start stream, step⟩

/-- What the loop maintains of a stream. -/
structure Exact (stream : List UInt8) (s : SpliceRun) : Prop where
  /-- The pipe is empty where an outer iteration starts. -/
  outer : s.direction.phase = .filling → s.direction.pipe = []
  inner : ∀ pending, s.direction.phase = .draining pending → s.direction.pipe.length = pending
  /-- `pending -= written` does not underflow. -/
  written : ∀ pending count t, s.direction.phase = .draining pending →
    s.step (.drain count) = some t → count ≤ pending
  counted : s.direction.copied = s.direction.destination.delivered.length
  split : s.direction.destination.delivered ++ s.direction.pipe ++ s.remaining = stream
  returned : ∀ count, s.direction.result = some (.ok count) →
    s.direction.destination.delivered = stream ∧ count = stream.length ∧
      s.direction.destination.shutdowns = [count]
  shut : s.direction.destination.shutdowns ≠ [] → s.direction.pipe = []

/-- The loop is valid, and the source has produced what it no longer holds. -/
structure Inv (stream : List UInt8) (s : SpliceRun) : Prop where
  valid : s.direction.Valid
  produced : s.direction.source.produced ++ s.remaining = stream
  ended : s.direction.source.eof = true → s.remaining = []

theorem start_inv (stream : List UInt8) : (start stream).Inv stream :=
  ⟨SpliceDirection.start_valid, rfl, fun ended => by cases ended⟩

/-- Calls other than those that take leave the source as it is. -/
theorem source_of_step {d e : SpliceDirection} {io : Io} (stepped : d.step io = some e)
    (other : ∀ bytes, io ≠ .taken bytes) : e.source = d.source := by
  cases SpliceDirection.step_stepped stepped with
  | ended | filled => exact absurd rfl (other _)
  | fillFailed | drainedZero | drained | drainFailed | shut | shutFailed => rfl

/-- Taking no bytes ends the source, and taking some produces them. -/
theorem source_of_taken {d e : SpliceDirection} {bytes : List UInt8}
    (stepped : d.step (.taken bytes) = some e) :
    e.source.produced = d.source.produced ++ bytes ∧
      (e.source.eof = true → d.source.eof = true ∨ bytes = []) := by
  cases SpliceDirection.step_stepped stepped with
  | ended phase read =>
      obtain rfl := Source.read_empty_eq_some SPLICE_CHUNK_SIZE_pos read
      exact ⟨(List.append_nil _).symm, fun _ => Or.inr rfl⟩
  | filled phase nonempty read =>
      obtain ⟨-, -, rfl⟩ := Source.read_eq_some nonempty read
      exact ⟨rfl, Or.inl⟩

/-- A call that takes nothing keeps the invariant with the loop. -/
theorem Inv.of_step {stream : List UInt8} {s : SpliceRun} {d : SpliceDirection} {io : Io}
    (inv : s.Inv stream) (stepped : s.direction.step io = some d)
    (other : ∀ bytes, io ≠ .taken bytes) : Inv stream { s with direction := d } := by
  have same := source_of_step stepped other
  refine ⟨SpliceDirection.step_valid inv.valid stepped, ?_, ?_⟩
  · show d.source.produced ++ s.remaining = stream
    rw [same]
    exact inv.produced
  · intro ended
    apply inv.ended
    rw [← same]
    exact ended

theorem step_inv {stream : List UInt8} {s t : SpliceRun} {call : SpliceCall} (inv : s.Inv stream)
    (stepped : s.step call = some t) : t.Inv stream := by
  cases call with
  | fill count =>
      obtain ⟨fits, stepped⟩ := Option.ite_none_right_eq_some.mp stepped
      obtain ⟨d, moved, rfl⟩ := Option.map_eq_some_iff.mp stepped
      obtain ⟨produced, ended⟩ := source_of_taken moved
      refine ⟨SpliceDirection.step_valid inv.valid moved, ?_, ?_⟩
      · show d.source.produced ++ s.remaining.drop count = stream
        rw [produced, List.append_assoc, List.take_append_drop]
        exact inv.produced
      · intro now
        show s.remaining.drop count = []
        rcases ended now with before | none_
        · rw [inv.ended before, List.drop_nil]
        · -- none of the bytes that are left is no byte at all
          rcases List.take_eq_nil_iff.mp none_ with zero | none_left
          · rw [fits.2 zero, List.drop_nil]
          · rw [none_left, List.drop_nil]
  | fillFails error =>
      obtain ⟨d, moved, rfl⟩ := Option.map_eq_some_iff.mp stepped
      exact inv.of_step moved fun _ same => by cases same
  | drain count =>
      obtain ⟨d, moved, rfl⟩ := Option.map_eq_some_iff.mp stepped
      exact inv.of_step moved fun _ same => by cases same
  | drainFails error =>
      obtain ⟨d, moved, rfl⟩ := Option.map_eq_some_iff.mp stepped
      exact inv.of_step moved fun _ same => by cases same
  | shutdown outcome =>
      obtain ⟨d, moved, rfl⟩ := Option.map_eq_some_iff.mp stepped
      exact inv.of_step moved fun _ same => by cases same

/-- A splice gives no more than it was asked for. -/
theorem drain_le {s t : SpliceRun} {pending count : Nat}
    (phase : s.direction.phase = .draining pending) (stepped : s.step (.drain count) = some t) :
    count ≤ pending := by
  obtain ⟨d, stepped, -⟩ := Option.map_eq_some_iff.mp stepped
  cases SpliceDirection.step_stepped stepped with
  | drainedZero _ => exact Nat.zero_le pending
  | drained here pos asked held =>
      cases here.symm.trans phase
      exact asked

/-- A valid loop has shut the destination down only with an empty pipe. -/
theorem pipe_of_shut {d : SpliceDirection} (valid : d.Valid) (shut : d.destination.shutdowns ≠ []) :
    d.pipe = [] := by
  obtain ⟨-, held⟩ := valid
  cases phase : d.phase with
  | filling =>
      rw [phase] at held
      exact held.1
  | draining pending =>
      rw [phase] at held
      exact absurd held.2.2.2 shut
  | shuttingDown =>
      rw [phase] at held
      exact held.1
  | done result =>
      rw [phase] at held
      cases result with
      | ok count => exact held.1
      | error error => exact (held shut).1

theorem Inv.exact {stream : List UInt8} {s : SpliceRun} (inv : s.Inv stream) : s.Exact stream := by
  have conserved := inv.valid.1
  have held := inv.valid.2
  refine ⟨?_, ?_, fun _ _ _ => drain_le, conserved.counted, ?_, ?_, pipe_of_shut inv.valid⟩
  · intro phase
    rw [phase] at held
    exact held.1
  · intro pending phase
    rw [phase] at held
    exact held.2.1
  · rw [conserved.split]
    exact inv.produced
  · intro count returned
    obtain ⟨ended, delivered, length, once⟩ := SpliceDirection.valid_ok inv.valid returned
    have whole := inv.produced
    rw [inv.ended ended, List.append_nil] at whole
    rw [whole] at delivered length
    exact ⟨delivered, length, once⟩

end SpliceRun

/-- Whatever the splices move and whichever of them fails. -/
theorem splice_exact (stream : List UInt8) (calls : List SpliceCall) :
    (SpliceRun.machine stream).Along (SpliceRun.Exact stream) (SpliceRun.start stream) calls :=
  ((SpliceRun.machine stream).along_of_kept (fun _ _ _ inv stepped => SpliceRun.step_inv inv stepped)
    (SpliceRun.start_inv stream) calls).imp fun _ inv => inv.exact

/-- A stream in two fills; the pipe is drained in three. -/
def wholeStream : List SpliceCall :=
  [.fill 2, .drain 1, .drain 1, .fill 1, .drain 1, .fill 0, .shutdown (.ok ())]

theorem splice_exact_whole :
    ∃ s, (SpliceRun.machine [1, 2, 3]).exec (SpliceRun.start [1, 2, 3]) wholeStream = some s ∧
      s.direction.result = some (.ok 3) ∧ s.direction.destination.delivered = [1, 2, 3] ∧
      s.direction.destination.shutdowns = [3] := by
  have ran : ∃ s, (SpliceRun.machine [1, 2, 3]).exec (SpliceRun.start [1, 2, 3]) wholeStream =
      some s ∧ s.direction.result = some (.ok 3) := ⟨_, rfl, rfl⟩
  obtain ⟨s, ran, returned⟩ := ran
  have kept := (splice_exact [1, 2, 3] wholeStream).last ran
  obtain ⟨delivered, -, once⟩ := kept.returned 3 returned
  exact ⟨s, ran, returned, delivered, once⟩

end Portrelay.Relay
