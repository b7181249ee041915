/-
# Relay.SpliceDirection -- the kernel-pipe loop

`splice_direction` of `src/relay.rs`: move up to `SPLICE_CHUNK_SIZE` bytes from
the source socket into a pipe, then move the `pending` bytes of the pipe into the
destination, counting and signalling after every partial move; a move of 0 bytes
from the source is the end of the stream and shuts the write side down with
`shutdown(2)` itself, whose error is returned as it is.

`splice_ready` waits for readiness and retries; one `Io` stands for the call that
got through.  A splice moves a front part of what is there, never more than it
was asked for.
-/
import Portrelay.Relay.Socket

namespace Portrelay.Relay

set_option autoImplicit false

def SPLICE_CHUNK_SIZE : Nat := 64 * 1024

theorem SPLICE_CHUNK_SIZE_pos : 0 < SPLICE_CHUNK_SIZE := by decide

/-- Where `splice_direction` waits: for the source, for the destination with
`pending` bytes in the pipe, at the shutdown call, or returned. -/
inductive SplicePhase
  | filling
  | draining (pending : Nat)
  | shuttingDown
  | done (result : Except IoError Nat)
  deriving DecidableEq

structure SpliceDirection where
  pipe : List UInt8
  copied : Nat
  activity : Nat
  phase : SplicePhase
  source : Source
  destination : Destination
  deriving DecidableEq

namespace SpliceDirection

def start : SpliceDirection :=
  ⟨[], 0, 0, .filling, .fresh, .fresh⟩

def result (d : SpliceDirection) : Option (Except IoError Nat) :=
  match d.phase with
  | .done result => some result
  | _ => none

def destinationClosed : IoError := .custom .brokenPipe "splice destination closed"

def step (d : SpliceDirection) : Io → Option SpliceDirection
  | .taken bytes =>
      match d.phase with
      | .filling =>
          (d.source.read SPLICE_CHUNK_SIZE bytes).map fun source =>
            if bytes = [] then { d with source, phase := .shuttingDown }
            else { d with source, pipe := d.pipe ++ bytes, phase := .draining bytes.length }
      | _ => none
  | .takeFailed error =>
      match d.phase with
      | .filling => some { d with phase := .done (.error error) }
      | _ => none
  | .given count =>
      match d.phase with
      | .draining pending =>
          if pending < count ∨ d.pipe.length < count then none
          else if count = 0 then some { d with phase := .done (.error destinationClosed) }
          else
            some { d with destination := d.destination.accept (d.pipe.take count),
                          pipe := d.pipe.drop count, copied := d.copied + count,
                          activity := d.activity + 1,
                          phase := if pending - count = 0 then .filling
                            else .draining (pending - count) }
      | _ => none
  | .giveFailed error =>
      match d.phase with
      | .draining _ => some { d with phase := .done (.error error) }
      | _ => none
  | .shutdown outcome =>
      match d.phase with
      | .shuttingDown =>
          let destination := d.destination.shutdown
          match outcome with
          | .ok () => some { d with destination, phase := .done (.ok d.copied) }
          | .error error => some { d with destination, phase := .done (.error error) }
      | _ => none

/-- Everything a completed call can do to the loop, one constructor for each way
out of `step`. -/
inductive Stepped (d : SpliceDirection) : Io → SpliceDirection → Prop
  | ended {source : Source} (phase : d.phase = .filling)
      (read : d.source.read SPLICE_CHUNK_SIZE [] = some source) :
      Stepped d (.taken []) { d with source, phase := .shuttingDown }
  | filled {bytes : List UInt8} {source : Source} (phase : d.phase = .filling)
      (nonempty : bytes ≠ []) (read : d.source.read SPLICE_CHUNK_SIZE bytes = some source) :
      Stepped d (.taken bytes)
        { d with source, pipe := d.pipe ++ bytes, phase := .draining bytes.length }
  | fillFailed {error : IoError} (phase : d.phase = .filling) :
      Stepped d (.takeFailed error) { d with phase := .done (.error error) }
  | drainedZero {pending : Nat} (phase : d.phase = .draining pending) :
      Stepped d (.given 0) { d with phase := .done (.error destinationClosed) }
  | drained {pending count : Nat} (phase : d.phase = .draining pending) (pos : 0 < count)
      (asked : count ≤ pending) (held : count ≤ d.pipe.length) :
      Stepped d (.given count)
        { d with destination := d.destination.accept (d.pipe.take count),
                 pipe := d.pipe.drop count, copied := d.copied + count,
                 activity := d.activity + 1,
                 phase := if pending - count = 0 then .filling else .draining (pending - count) }
  | drainFailed {pending : Nat} {error : IoError} (phase : d.phase = .draining pending) :
      Stepped d (.giveFailed error) { d with phase := .done (.error error) }
  | shut (phase : d.phase = .shuttingDown) :
      Stepped d (.shutdown (.ok ()))
        { d with destination := d.destination.shutdown, phase := .done (.ok d.copied) }
  | shutFailed {error : IoError} (phase : d.phase = .shuttingDown) :
      Stepped d (.shutdown (.error error))
        { d with destination := d.destination.shutdown, phase := .done (.error error) }

theorem step_stepped {d e : SpliceDirection} {io : Io} (stepped : d.step io = some e) :
    d.Stepped io e := by
  cases io with
  | taken bytes =>
      simp only [step] at stepped
      split at stepped <;> [skip; cases stepped]
      rename_i phase
      obtain ⟨source, read, rfl⟩ := Option.map_eq_some_iff.mp stepped
      by_cases empty : bytes = []
      · subst empty
        exact .ended phase read
      · simp only [empty, if_false]
        exact .filled phase empty read
  | takeFailed error =>
      simp only [step] at stepped
      split at stepped <;> [skip; cases stepped]
      obtain rfl := Option.some.inj stepped
      exact .fillFailed ‹_›
  | given count =>
      simp only [step] at stepped
      split at stepped <;> [skip; cases stepped]
      rename_i pending phase
      split at stepped <;> [cases stepped; skip]
      split at stepped <;> obtain rfl := Option.some.inj stepped
      · rename_i zero
        exact zero ▸ .drainedZero phase
      · exact .drained phase (by omega) (by omega) (by omega)
  | giveFailed error =>
      simp only [step] at stepped
      split at stepped <;> [skip; cases stepped]
      obtain rfl := Option.some.inj stepped
      exact .drainFailed ‹_›
  | shutdown outcome =>
      simp only [step] at stepped
      split at stepped <;> [skip; cases stepped]
      cases outcome with
      | ok _ => obtain rfl := Option.some.inj stepped; exact .shut ‹_›
      | error error => obtain rfl := Option.some.inj stepped; exact .shutFailed ‹_›

/-- What has left the source is in the destination or in the pipe, in order, and
what is in the destination is counted. -/
structure Conserved (d : SpliceDirection) : Prop where
  split : d.destination.delivered ++ d.pipe = d.source.produced
  counted : d.copied = d.destination.delivered.length

/-- What holds between two calls of the loop. -/
def Valid (d : SpliceDirection) : Prop :=
  d.Conserved ∧
    match d.phase with
    | .filling => d.pipe = [] ∧ d.source.eof = false ∧ d.destination.shutdowns = []
    | .draining pending =>
        0 < pending ∧ d.pipe.length = pending ∧ d.source.eof = false ∧
        d.destination.shutdowns = []
    | .shuttingDown => d.pipe = [] ∧ d.source.eof = true ∧ d.destination.shutdowns = []
    | .done (.ok count) =>
        d.pipe = [] ∧ count = d.copied ∧ d.source.eof = true ∧ d.destination.shutdowns = [count]
    | .done (.error _) => d.destination.shutdowns ≠ [] →
        d.pipe = [] ∧ d.source.eof = true ∧ d.destination.shutdowns = [d.copied]

theorem start_valid : start.Valid := ⟨⟨rfl, rfl⟩, rfl, rfl, rfl⟩

/-- Every completed call keeps the loop valid. -/
theorem step_valid {d e : SpliceDirection} {io : Io} (valid : d.Valid)
    (stepped : d.step io = some e) : e.Valid := by
  obtain ⟨conserved, held⟩ := valid
  cases step_stepped stepped with
  | ended phase read =>
      simp only [phase] at held
      obtain rfl := Source.read_empty_eq_some SPLICE_CHUNK_SIZE_pos read
      exact ⟨⟨conserved.split, conserved.counted⟩, held.1, rfl, held.2.2⟩
  | filled phase nonempty read =>
      simp only [phase] at held
      obtain ⟨empty, opened, unshut⟩ := held
      obtain ⟨-, -, rfl⟩ := Source.read_eq_some nonempty read
      refine ⟨⟨?_, conserved.counted⟩, List.length_pos_of_ne_nil nonempty, ?_, opened, unshut⟩
      · have before := conserved.split
        rw [empty, List.append_nil] at before
        simp [empty, before]
      · simp [empty]
  | fillFailed phase =>
      simp only [phase] at held
      exact ⟨⟨conserved.split, conserved.counted⟩, fun shut => absurd held.2.2 shut⟩
  | drainedZero phase =>
      simp only [phase] at held
      exact ⟨⟨conserved.split, conserved.counted⟩, fun shut => absurd held.2.2.2 shut⟩
  | @drained pending count phase pos asked enough =>
      simp only [phase] at held
      obtain ⟨-, size, opened, unshut⟩ := held
      refine ⟨⟨?_, ?_⟩, ?_⟩
      · simp [List.append_assoc, conserved.split]
      · simp [conserved.counted]; omega
      · by_cases last : pending - count = 0
        · simp only [last, if_true]
          exact ⟨List.drop_eq_nil_of_le (by omega), opened, unshut⟩
        · simp only [last, if_false]
          exact ⟨by omega, by simp [size], opened, unshut⟩
  | drainFailed phase =>
      simp only [phase] at held
      exact ⟨⟨conserved.split, conserved.counted⟩, fun shut => absurd held.2.2.2 shut⟩
  | shut phase =>
      simp only [phase] at held
      obtain ⟨empty, ended, unshut⟩ := held
      exact ⟨⟨conserved.split, conserved.counted⟩, empty, rfl, ended,
        by simp [unshut, conserved.counted]⟩
  | shutFailed phase =>
      simp only [phase] at held
      obtain ⟨empty, ended, unshut⟩ := held
      exact ⟨⟨conserved.split, conserved.counted⟩, fun _ =>
        ⟨empty, ended, by simp [unshut, conserved.counted]⟩⟩

theorem Valid.faithful {d : SpliceDirection} (valid : d.Valid) :
    Faithful d.source d.destination := by
  obtain ⟨conserved, held⟩ := valid
  have whole : d.pipe = [] → d.destination.delivered = d.source.produced := by
    intro empty
    have split := conserved.split
    rwa [empty, List.append_nil] at split
  refine ⟨⟨_, conserved.split⟩, fun shut => ?_⟩
  cases phase : d.phase with
  | filling => simp only [phase] at held; exact absurd held.2.2 shut
  | draining pending => simp only [phase] at held; exact absurd held.2.2.2 shut
  | shuttingDown => simp only [phase] at held; exact absurd held.2.2 shut
  | done result =>
      cases result with
      | ok count =>
          simp only [phase] at held
          obtain ⟨empty, counted, ended, once⟩ := held
          exact ⟨ended, whole empty, by rw [once, counted, conserved.counted]⟩
      | error _ =>
          simp only [phase] at held
          obtain ⟨empty, ended, once⟩ := held shut
          exact ⟨ended, whole empty, by rw [once, conserved.counted]⟩

/-- `Ok(n)` is returned only with the whole stream delivered and the write side
shut down once, behind the last byte. -/
theorem valid_ok {d : SpliceDirection} {count : Nat} (valid : d.Valid)
    (returned : d.result = some (.ok count)) :
    d.source.eof = true ∧ d.destination.delivered = d.source.produced ∧
      count = d.source.produced.length ∧ d.destination.shutdowns = [count] := by
  have phase : d.phase = .done (.ok count) := by
    unfold result at returned
    split at returned
    · rename_i phase; rw [phase, Option.some.inj returned]
    · cases returned
  obtain ⟨conserved, held⟩ := valid
  simp only [phase] at held
  obtain ⟨empty, counted, ended, once⟩ := held
  have whole := conserved.split
  rw [empty, List.append_nil] at whole
  exact ⟨ended, whole, by rw [counted, conserved.counted, whole], once⟩

end SpliceDirection

end Portrelay.Relay
