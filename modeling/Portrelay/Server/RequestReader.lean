/-
# Server.RequestReader -- read_metrics_request, for every sequence of reads

The reader as a machine whose label is what the next read would find, so that every way of
cutting the stream into reads is a run.

* `reader_exact` -- every run is bounded, and one that cannot go on has returned the first
  bytes of the stream, complete exactly if the buffer's worth of them has an empty line.
-/
import Portrelay.Server.MetricsRequest
import Portrelay.Theory.Machine

namespace Portrelay.Server

open Portrelay.Theory

set_option autoImplicit false

namespace Reader

/-- A round with a read that would find `found` bytes. -/
def machine (request stream : List UInt8) : Machine Reader Nat :=
  ⟨fun reader => reader = .reading request 0 stream, fun reader found => next (fun _ => some found) reader⟩

/-- What the reader has left in a buffer of `length` bytes, and returns. -/
structure Returned (stream : List UInt8) (length : Nat) (request : List UInt8) (size : Nat)
    (complete : Bool) : Prop where
  width : request.length = length
  inside : size ≤ length
  arrived : size ≤ stream.length
  received : request.take size = stream.take size
  complete : complete = true ↔ Ended (stream.take length)

/-- No empty line is missed: one that fits the buffer is in what was received. -/
theorem Exact.returned {stream request : List UInt8} {length size : Nat} {complete : Bool}
    (exact_ : Exact stream length (.returned request size complete)) :
    Returned stream length request size complete := by
  obtain ⟨width, inside, same, ended, full⟩ := exact_
  refine ⟨width, by omega, by omega, same, ?_⟩
  constructor
  · intro found
    exact (ended.mp found).mono (by omega)
  · intro within
    cases complete with
    | true => rfl
    | false =>
        -- the whole stream was received, or as much of it as the buffer holds
        apply ended.mpr
        rw [full rfl, ← List.take_eq_take_min]
        exact within

/-- Where a reader does not stand still, whatever the next read finds, it has returned. -/
theorem steps_or_returned {stream : List UInt8} {length : Nat} {reader : Reader}
    (exact_ : Exact stream length reader) :
    (∀ found, ∃ after, next (fun _ => some found) reader = some after) ∨
      ∃ request size complete, reader = .returned request size complete := by
  cases reader with
  | reading request size rest =>
      left
      intro found
      rcases next_reading (fun _ => found) exact_ with ⟨-, step⟩ | ⟨-, -, step⟩ | ⟨-, -, _, step, -⟩
      · exact ⟨_, step⟩
      · exact ⟨_, step⟩
      · exact ⟨_, step⟩
  | returned request size complete => exact Or.inr ⟨request, size, complete, rfl⟩
  | failed => exact exact_.elim
  | panicked => exact exact_.elim

end Reader

/-- However the stream is cut into reads, the reader ends within a round for each byte of its
buffer and one more, and unless it can go on it has returned the first bytes of the stream. -/
theorem reader_exact (request stream : List UInt8) (finds : List Nat) (reader : Reader)
    (ran : (Reader.machine request stream).exec (.reading request 0 stream) finds = some reader) :
    finds.length ≤ request.length + 1 ∧
      ((∀ found, ∃ after, (Reader.machine request stream).step reader found = some after) ∨
        ∃ buffer size complete, reader = .returned buffer size complete ∧
          Reader.Returned stream request.length buffer size complete) := by
  have start := exact_start request stream
  have kept : ∀ s found t, Reader.Exact stream request.length s →
      (Reader.machine request stream).step s found = some t →
        Reader.Exact stream request.length t := by
    intro s found t exact_ stepped
    exact Reader.next_exact exact_
      (show Reader.next (Arrival.reads fun _ => found) s = some t from stepped)
  have lower : ∀ s found t, Reader.Exact stream request.length s →
      (Reader.machine request stream).step s found = some t → t.rounds < s.rounds := by
    intro s found t exact_ stepped
    exact Reader.next_lower exact_
      (show Reader.next (Arrival.reads fun _ => found) s = some t from stepped)
  have bounded := (Reader.machine request stream).length_le_of_lower kept lower start ran
  have exact_ := ((Reader.machine request stream).along_of_kept kept start finds).last ran
  constructor
  · simp only [Reader.rounds] at bounded
    omega
  · rcases Reader.steps_or_returned exact_ with goes | ⟨buffer, size, complete, rfl⟩
    · exact Or.inl goes
    · exact Or.inr ⟨buffer, size, complete, rfl, exact_.returned⟩

/-- The empty line arrives in two parts, and ends where the buffer does. -/
theorem reader_exact_straddling :
    [2, 2, 0].length ≤ [0, 0, 0, 0].length + 1 ∧
      ((∀ found, ∃ after, (Reader.machine [0, 0, 0, 0] [13, 10, 13, 10, 65]).step
          (.returned [13, 10, 13, 10] 4 true) found = some after) ∨
        ∃ buffer size complete,
          Reader.returned [13, 10, 13, 10] 4 true = .returned buffer size complete ∧
            Reader.Returned [13, 10, 13, 10, 65] [0, 0, 0, 0].length buffer size complete) :=
  reader_exact [0, 0, 0, 0] [13, 10, 13, 10, 65] [2, 2, 0] (.returned [13, 10, 13, 10] 4 true)
    (by decide)

end Portrelay.Server
