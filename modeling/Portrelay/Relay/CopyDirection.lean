/-
# Relay.CopyDirection -- the user-space copy loop

`copy_direction` of `src/relay.rs`: read into a pooled buffer, write what was
read with `write_all`, count it, signal activity; at end of stream shut the
writer down and return the count.  The loop is a machine over completed calls,
so that any chunking, any split into partial writes and any failure is a run of
it.  `Valid` is what holds between two calls; `step_valid` keeps it whatever the
buffer held before, and `valid_ok` reads the whole-stream law off it.
-/
import Portrelay.Relay.Socket

namespace Portrelay.Relay

set_option autoImplicit false

/-- Where `copy_direction` waits: in `reader.read`, in `write_all` with `written`
of `read` bytes accepted, in `writer.shutdown`, or returned. -/
inductive CopyPhase
  | reading
  | writing (read written : Nat)
  | shuttingDown
  | done (result : Except IoError Nat)
  deriving DecidableEq

structure CopyDirection where
  buffer : List UInt8
  copied : Nat
  /-- messages sent on the activity channel -/
  activity : Nat
  phase : CopyPhase
  source : Source
  destination : Destination
  deriving DecidableEq

namespace CopyDirection

/-- The loop at its first await, with a buffer that may hold anything. -/
def start (buffer : List UInt8) : CopyDirection :=
  ⟨buffer, 0, 0, .reading, .fresh, .fresh⟩

def result (d : CopyDirection) : Option (Except IoError Nat) :=
  match d.phase with
  | .done result => some result
  | _ => none

/-- A read overwrites the front of the buffer and leaves the rest as it was. -/
def overwrite (buffer bytes : List UInt8) : List UInt8 :=
  bytes ++ buffer.drop bytes.length

/-- Tokio's `poll_shutdown` of a TCP write half: a socket that is no longer
connected counts as shut down. -/
def pollShutdown : Except IoError Unit → Except IoError Unit
  | .error error => if error.kind = .notConnected then .ok () else .error error
  | .ok () => .ok ()

/-- The part of the buffer `write_all` has still to write. -/
def unwritten (d : CopyDirection) (read written : Nat) : List UInt8 :=
  (d.buffer.take read).drop written

def step (d : CopyDirection) : Io → Option CopyDirection
  | .taken bytes =>
      match d.phase with
      | .reading =>
          (d.source.read d.buffer.length bytes).map fun source =>
            if bytes = [] then { d with source, phase := .shuttingDown }
            else { d with source, buffer := overwrite d.buffer bytes,
                          phase := .writing bytes.length 0 }
      | _ => none
  | .takeFailed error =>
      match d.phase with
      | .reading => some { d with phase := .done (.error error) }
      | _ => none
  | .given count =>
      match d.phase with
      | .writing read written =>
          if read - written < count then none
          else if count = 0 then some { d with phase := .done (.error (.os .writeZero)) }
          else
            let destination := d.destination.accept ((d.unwritten read written).take count)
            if written + count = read then
              some { d with destination, copied := d.copied + read, activity := d.activity + 1,
                            phase := .reading }
            else some { d with destination, phase := .writing read (written + count) }
      | _ => none
  | .giveFailed error =>
      match d.phase with
      | .writing _ _ => some { d with phase := .done (.error error) }
      | _ => none
  | .shutdown outcome =>
      match d.phase with
      | .shuttingDown =>
          let destination := d.destination.shutdown
          match pollShutdown outcome with
          | .ok () => some { d with destination, phase := .done (.ok d.copied) }
          | .error error => some { d with destination, phase := .done (.error error) }
      | _ => none

/-- Everything a completed call can do to the loop, one constructor for each way
out of `step`. -/
inductive Stepped (d : CopyDirection) : Io → CopyDirection → Prop
  | ended {source : Source} (phase : d.phase = .reading)
      (read : d.source.read d.buffer.length [] = some source) :
      Stepped d (.taken []) { d with source, phase := .shuttingDown }
  | chunk {bytes : List UInt8} {source : Source} (phase : d.phase = .reading)
      (nonempty : bytes ≠ []) (read : d.source.read d.buffer.length bytes = some source) :
      Stepped d (.taken bytes)
        { d with source, buffer := overwrite d.buffer bytes, phase := .writing bytes.length 0 }
  | readFailed {error : IoError} (phase : d.phase = .reading) :
      Stepped d (.takeFailed error) { d with phase := .done (.error error) }
  | wroteZero {read written : Nat} (phase : d.phase = .writing read written) :
      Stepped d (.given 0) { d with phase := .done (.error (.os .writeZero)) }
  | wroteRest {read written count : Nat} (phase : d.phase = .writing read written)
      (pos : 0 < count) (whole : written + count = read) :
      Stepped d (.given count)
        { d with destination := d.destination.accept ((d.unwritten read written).take count),
                 copied := d.copied + read, activity := d.activity + 1, phase := .reading }
  | wrotePart {read written count : Nat} (phase : d.phase = .writing read written)
      (pos : 0 < count) (part : written + count < read) :
      Stepped d (.given count)
        { d with destination := d.destination.accept ((d.unwritten read written).take count),
                 phase := .writing read (written + count) }
  | writeFailed {read written : Nat} {error : IoError} (phase : d.phase = .writing read written) :
      Stepped d (.giveFailed error) { d with phase := .done (.error error) }
  | shut {outcome : Except IoError Unit} (phase : d.phase = .shuttingDown)
      (closed : pollShutdown outcome = .ok ()) :
      Stepped d (.shutdown outcome)
        { d with destination := d.destination.shutdown, phase := .done (.ok d.copied) }
  | shutFailed {outcome : Except IoError Unit} {error : IoError}
      (phase : d.phase = .shuttingDown) (failed : pollShutdown outcome = .error error) :
      Stepped d (.shutdown outcome)
        { d with destination := d.destination.shutdown, phase := .done (.error error) }

theorem step_stepped {d e : CopyDirection} {io : Io} (stepped : d.step io = some e) :
    d.Stepped io e := by
  cases io with
  | taken bytes =>
      simp only [step] at stepped
      split at stepped <;> [skip; cases stepped]
      rename_i phase
      obtain ⟨source, read, rfl⟩ := Option.map_eq_some_iff.mp stepped
      by_cases empty : bytes = []
      · subst empty
        exact .ended phase read
      · simp only [empty, if_false]
        exact .chunk phase empty read
  | takeFailed error =>
      simp only [step] at stepped
      split at stepped <;> [skip; cases stepped]
      obtain rfl := Option.some.inj stepped
      exact .readFailed ‹_›
  | given count =>
      simp only [step] at stepped
      split at stepped <;> [skip; cases stepped]
      rename_i read written phase
      split at stepped <;> [cases stepped; skip]
      split at stepped
      · rename_i zero
        obtain rfl := Option.some.inj stepped
        exact zero ▸ .wroteZero phase
      · split at stepped <;> obtain rfl := Option.some.inj stepped
        · exact .wroteRest phase (by omega) ‹_›
        · exact .wrotePart phase (by omega) (by omega)
  | giveFailed error =>
      simp only [step] at stepped
      split at stepped <;> [skip; cases stepped]
      obtain rfl := Option.some.inj stepped
      exact .writeFailed ‹_›
  | shutdown outcome =>
      simp only [step] at stepped
      split at stepped <;> [skip; cases stepped]
      split at stepped <;> obtain rfl := Option.some.inj stepped
      · exact .shut ‹_› ‹_›
      · exact .shutFailed ‹_› ‹_›

/-- Everything read has been written and counted. -/
structure CaughtUp (d : CopyDirection) : Prop where
  delivered : d.destination.delivered = d.source.produced
  counted : d.copied = d.destination.delivered.length

/-- What holds between two calls of the loop. -/
def Valid (d : CopyDirection) : Prop :=
  0 < d.buffer.length ∧
    match d.phase with
    | .reading => d.CaughtUp ∧ d.source.eof = false ∧ d.destination.shutdowns = []
    | .writing read written =>
        written < read ∧ read ≤ d.buffer.length ∧
        d.destination.delivered ++ d.unwritten read written = d.source.produced ∧
        d.destination.delivered.length = d.copied + written ∧
        d.source.eof = false ∧ d.destination.shutdowns = []
    | .shuttingDown => d.CaughtUp ∧ d.source.eof = true ∧ d.destination.shutdowns = []
    | .done (.ok count) =>
        d.CaughtUp ∧ count = d.copied ∧ d.source.eof = true ∧ d.destination.shutdowns = [count]
    | .done (.error _) => Faithful d.source d.destination

theorem start_valid {buffer : List UInt8} (pos : 0 < buffer.length) : (start buffer).Valid :=
  ⟨pos, ⟨rfl, rfl⟩, rfl, rfl⟩

theorem overwrite_length {buffer bytes : List UInt8} (fits : bytes.length ≤ buffer.length) :
    (overwrite buffer bytes).length = buffer.length := by
  simp [overwrite]; omega

/-- What the loop writes is what the read put there, never what was left behind. -/
theorem overwrite_take (buffer bytes : List UInt8) :
    (overwrite buffer bytes).take bytes.length = bytes := by
  simp [overwrite]

/-- Before the write side is shut down, delivering a prefix is all there is to show. -/
theorem faithful_of_open {source : Source} {destination : Destination}
    (isPrefix : destination.delivered <+: source.produced)
    (opened : destination.shutdowns = []) : Faithful source destination :=
  ⟨isPrefix, fun closed => absurd opened closed⟩

theorem Valid.faithful {d : CopyDirection} (valid : d.Valid) :
    Faithful d.source d.destination := by
  obtain ⟨-, held⟩ := valid
  cases phase : d.phase with
  | reading =>
      simp only [phase] at held
      exact faithful_of_open (held.1.delivered ▸ List.prefix_refl _) held.2.2
  | writing read written =>
      simp only [phase] at held
      obtain ⟨-, -, split, -, -, opened⟩ := held
      exact faithful_of_open ⟨_, split⟩ opened
  | shuttingDown =>
      simp only [phase] at held
      exact faithful_of_open (held.1.delivered ▸ List.prefix_refl _) held.2.2
  | done result =>
      cases result with
      | ok count =>
          simp only [phase] at held
          obtain ⟨caught, counted, ended, shut⟩ := held
          refine ⟨caught.delivered ▸ List.prefix_refl _, fun _ => ⟨ended, caught.delivered, ?_⟩⟩
          rw [shut, counted, caught.counted]
      | error _ => simpa only [phase] using held

theorem shutdown_faithful {source : Source} {destination : Destination}
    (ended : source.eof = true) (all : destination.delivered = source.produced)
    (opened : destination.shutdowns = []) : Faithful source destination.shutdown := by
  refine ⟨by simp [all], fun _ => ⟨ended, by simpa using all, by simp [opened]⟩⟩

theorem step_buffer_length {d e : CopyDirection} {io : Io} (stepped : d.step io = some e) :
    e.buffer.length = d.buffer.length := by
  cases step_stepped stepped with
  | chunk phase nonempty read => exact overwrite_length (Source.read_eq_some nonempty read).1
  | _ => rfl

theorem unwritten_length (d : CopyDirection) {read : Nat} (written : Nat)
    (fits : read ≤ d.buffer.length) : (d.unwritten read written).length = read - written := by
  simp [unwritten]; omega

/-- Every completed call keeps the loop valid. -/
theorem step_valid {d e : CopyDirection} {io : Io} (valid : d.Valid)
    (stepped : d.step io = some e) : e.Valid := by
  have pos : 0 < e.buffer.length := step_buffer_length stepped ▸ valid.1
  have faithful := valid.faithful
  refine ⟨pos, ?_⟩
  obtain ⟨size, held⟩ := valid
  cases step_stepped stepped with
  | ended phase read =>
      simp only [phase] at held
      obtain rfl := Source.read_empty_eq_some size read
      exact ⟨⟨held.1.delivered, held.1.counted⟩, rfl, held.2.2⟩
  | @chunk bytes source phase nonempty read =>
      simp only [phase] at held
      obtain ⟨caught, opened, unshut⟩ := held
      obtain ⟨fits, -, rfl⟩ := Source.read_eq_some nonempty read
      refine ⟨List.length_pos_of_ne_nil nonempty, ?_, ?_, ?_, opened, unshut⟩
      · rw [overwrite_length fits]; exact fits
      · simp [unwritten, overwrite_take, caught.delivered]
      · simp [caught.counted]
  | readFailed phase => exact faithful
  | wroteZero phase => exact faithful
  | @wroteRest read written count phase countPos whole =>
      simp only [phase] at held
      obtain ⟨short, fits, split, counted, opened, unshut⟩ := held
      have left := d.unwritten_length written fits
      have rest : (d.unwritten read written).take count = d.unwritten read written :=
        List.take_of_length_le (by omega)
      refine ⟨⟨?_, ?_⟩, opened, unshut⟩
      · simpa [rest] using split
      · simp [rest, left, counted]; omega
  | @wrotePart read written count phase countPos part =>
      simp only [phase] at held
      obtain ⟨short, fits, split, counted, opened, unshut⟩ := held
      have left := d.unwritten_length written fits
      refine ⟨part, fits, ?_, ?_, opened, unshut⟩
      · have later : (d.buffer.take read).drop (written + count) =
            (d.unwritten read written).drop count := by
          simp [unwritten, List.drop_drop]
        change d.destination.delivered ++ (d.unwritten read written).take count ++
          (d.buffer.take read).drop (written + count) = d.source.produced
        rw [later, List.append_assoc, List.take_append_drop]
        exact split
      · simp [left, counted]; omega
  | writeFailed phase => exact faithful
  | shut phase closed =>
      simp only [phase] at held
      obtain ⟨caught, ended, unshut⟩ := held
      refine ⟨⟨caught.delivered, caught.counted⟩, rfl, ended, ?_⟩
      simp [unshut, caught.counted]
  | shutFailed phase failed =>
      simp only [phase] at held
      obtain ⟨caught, ended, unshut⟩ := held
      exact shutdown_faithful ended caught.delivered unshut

/-- `Ok(n)` is returned only with the whole stream delivered and the write side
shut down once, behind the last byte. -/
theorem valid_ok {d : CopyDirection} {count : Nat} (valid : d.Valid)
    (returned : d.result = some (.ok count)) :
    d.source.eof = true ∧ d.destination.delivered = d.source.produced ∧
      count = d.source.produced.length ∧ d.destination.shutdowns = [count] := by
  have phase : d.phase = .done (.ok count) := by
    unfold result at returned
    split at returned
    · rename_i phase; rw [phase, Option.some.inj returned]
    · cases returned
  obtain ⟨-, held⟩ := valid
  simp only [phase] at held
  obtain ⟨caught, counted, ended, shut⟩ := held
  exact ⟨ended, caught.delivered, by rw [counted, caught.counted, caught.delivered], shut⟩

end CopyDirection

end Portrelay.Relay
