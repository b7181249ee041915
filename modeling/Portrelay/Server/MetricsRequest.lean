/-
# Server.MetricsRequest -- read_metrics_request, for every way the bytes arrive

The reader of `src/server.rs`: it reads into what is left of the request buffer until the
received bytes have an empty line or a read gives nothing.  How the bytes arrive is a
function of how many were received before (`Arrival`), since that number grows with each
read.

* `Reader.Exact` -- the received bytes are the first of the stream; kept by a step.
* `read_exact` -- the reader ends, and never out of range.
* `read_at` -- each number of bytes past the first empty line is where some arrival ends.
-/
import Portrelay.Theory.Drive
import Portrelay.Theory.Slices

namespace Portrelay.Server

open Portrelay.Theory

set_option autoImplicit false

/-- `b"\r\n\r\n"` -/
def crlfcrlf : List UInt8 := [13, 10, 13, 10]

/-- `read_metrics_request` between two reads, where it returns, and where an index of it
would be out of range. -/
inductive Reader
  | reading (request : List UInt8) (size : Nat) (stream : List UInt8)
  | returned (request : List UInt8) (size : Nat) (complete : Bool)
  | failed
  | panicked
  deriving DecidableEq, Repr

namespace Reader

/-- One round of the loop.  `reads size` is what a read after `size` bytes would find, at
least a byte while the stream has one, and `none` if it fails. -/
def next (reads : Nat → Option Nat) : Reader → Option Reader
  | .reading request size stream =>
      match sliceTo request size with
      | none => some .panicked
      | some received =>
          if (windows 4 received).any (· == crlfcrlf) then some (.returned request size true)
          else
            match sliceFrom request size with
            | none => some .panicked
            | some space =>
                match reads size with
                | none => some .failed
                | some found =>
                    let read := min space.length (min (max 1 found) stream.length)
                    if read = 0 then some (.returned request size false)
                    else some (.reading
                      (request.take size ++ (stream.take read ++ space.drop read)) (size + read)
                      (stream.drop read))
  | _ => none

end Reader

def readMetricsRequest (reads : Nat → Option Nat) (request stream : List UInt8) : Reader :=
  drive (Reader.next reads) (request.length + 2) (.reading request 0 stream)

/-- Reads that do not fail: the number of bytes each would find. -/
abbrev Arrival := Nat → Nat

def Arrival.reads (arrived : Arrival) (size : Nat) : Option Nat := some (arrived size)

/-! ## What is received -/

/-- The bytes have an empty line. -/
def Ended (received : List UInt8) : Prop := crlfcrlf <:+: received

theorem any_windows (received : List UInt8) :
    (windows 4 received).any (· == crlfcrlf) = true ↔ Ended received := by
  rw [List.any_eq_true]
  constructor
  · rintro ⟨window, member, same⟩
    rw [beq_iff_eq.mp same] at member
    exact ((mem_windows (by decide)).mp member).2
  · intro ended
    exact ⟨crlfcrlf, (mem_windows (by decide)).mpr ⟨rfl, ended⟩, beq_self_eq_true _⟩

theorem Ended.mono {stream : List UInt8} {few many : Nat} (ended : Ended (stream.take few))
    (le : few ≤ many) : Ended (stream.take many) := by
  have within : stream.take few <+: stream.take many := by
    rw [← Nat.min_eq_left le, ← List.take_take]
    exact List.take_prefix _ _
  exact ended.trans within.isInfix

namespace Reader

/-- How a reader of `stream` into a buffer of `length` bytes stands to the stream. -/
def Exact (whole : List UInt8) (length : Nat) : Reader → Prop
  | .reading request size stream =>
      request.length = length ∧ size ≤ min length whole.length ∧
        request.take size = whole.take size ∧ stream = whole.drop size
  | .returned request size complete =>
      request.length = length ∧ size ≤ min length whole.length ∧
        request.take size = whole.take size ∧ (complete = true ↔ Ended (whole.take size)) ∧
        (complete = false → size = min length whole.length)
  | .failed => False
  | .panicked => False

/-- What a read after `size` of `total` bytes into `length` gives. -/
def found (arrived : Arrival) (length total size : Nat) : Nat :=
  min (length - size) (min (max 1 (arrived size)) (total - size))

/-- One round of a reader that stands exactly: it returns, or it has received more. -/
theorem next_reading (arrived : Arrival) {whole request stream : List UInt8} {length size : Nat}
    (exact_ : Exact whole length (.reading request size stream)) :
    (Ended (whole.take size) ∧
      next arrived.reads (.reading request size stream) = some (.returned request size true)) ∨
    (¬ Ended (whole.take size) ∧ size = min length whole.length ∧
      next arrived.reads (.reading request size stream) = some (.returned request size false)) ∨
    (¬ Ended (whole.take size) ∧ size < min length whole.length ∧ ∃ more,
      next arrived.reads (.reading request size stream) =
        some (.reading more (size + found arrived length whole.length size)
          (whole.drop (size + found arrived length whole.length size))) ∧
      more.length = length ∧
      more.take (size + found arrived length whole.length size) =
        whole.take (size + found arrived length whole.length size)) := by
  obtain ⟨room, inside, same, rfl⟩ := exact_
  have received := sliceTo_eq request size (by omega)
  have space := sliceFrom_eq request size (by omega)
  rw [same] at received
  have ended := any_windows (whole.take size)
  by_cases stop : Ended (whole.take size)
  · left
    refine ⟨stop, ?_⟩
    simp only [next, received, ended.mpr stop, if_true]
  · right
    have going : (windows 4 (whole.take size)).any (· == crlfcrlf) = false :=
      Bool.eq_false_iff.mpr fun any => stop (ended.mp any)
    have step : next arrived.reads (.reading request size (whole.drop size)) =
        if found arrived length whole.length size = 0 then some (.returned request size false)
        else some (.reading (whole.take size ++
            ((whole.drop size).take (found arrived length whole.length size) ++
            (request.drop size).drop (found arrived length whole.length size)))
          (size + found arrived length whole.length size)
          ((whole.drop size).drop (found arrived length whole.length size))) := by
      simp only [next, received, going, space, Arrival.reads, Bool.false_eq_true, if_false,
        List.length_drop, room, found, same]
      rfl
    have size_ : found arrived length whole.length size ≤ min length whole.length - size := by
      simp only [found]
      omega
    by_cases none_ : found arrived length whole.length size = 0
    · left
      rw [if_pos none_] at step
      simp only [found] at none_
      exact ⟨stop, by omega, step⟩
    · right
      rw [if_neg none_, List.drop_drop, List.drop_drop, ← List.append_assoc, ← List.take_add] at step
      refine ⟨stop, by omega, _, step, ?_, List.take_left' (by rw [List.length_take]; omega)⟩
      simp only [List.length_append, List.length_take, List.length_drop]
      omega

theorem next_exact {arrived : Arrival} {whole : List UInt8} {length : Nat} {reader after : Reader}
    (exact_ : Exact whole length reader) (stepped : next arrived.reads reader = some after) :
    Exact whole length after := by
  cases reader with
  | reading request size stream =>
      obtain ⟨room, inside, same, -⟩ := id exact_
      rcases next_reading arrived exact_ with
        ⟨ended, step⟩ | ⟨going, full, step⟩ | ⟨going, less, more, step, length_, received⟩
      · obtain rfl := Option.some.inj (step.symm.trans stepped)
        exact ⟨room, inside, same, iff_of_true rfl ended, fun no => by cases no⟩
      · obtain rfl := Option.some.inj (step.symm.trans stepped)
        exact ⟨room, inside, same, iff_of_false Bool.false_ne_true going, fun _ => full⟩
      · obtain rfl := Option.some.inj (step.symm.trans stepped)
        exact ⟨length_, by simp only [found]; omega, received, rfl⟩
  | returned request size complete => cases stepped
  | failed => cases stepped
  | panicked => cases stepped

/-- The rounds still to come, at most. -/
def rounds : Reader → Nat
  | .reading request size _ => request.length - size + 1
  | _ => 0

theorem next_lower {arrived : Arrival} {whole : List UInt8} {length : Nat} {reader after : Reader}
    (exact_ : Exact whole length reader) (stepped : next arrived.reads reader = some after) :
    after.rounds < reader.rounds := by
  cases reader with
  | reading request size stream =>
      obtain ⟨room, -⟩ := id exact_
      rcases next_reading arrived exact_ with
        ⟨-, step⟩ | ⟨-, -, step⟩ | ⟨-, less, more, step, length_, -⟩
      · obtain rfl := Option.some.inj (step.symm.trans stepped)
        exact Nat.succ_pos _
      · obtain rfl := Option.some.inj (step.symm.trans stepped)
        exact Nat.succ_pos _
      · obtain rfl := Option.some.inj (step.symm.trans stepped)
        simp only [rounds, found]
        omega
  | returned request size complete => cases stepped
  | failed => cases stepped
  | panicked => cases stepped

theorem returned_of_stuck {arrived : Arrival} {whole : List UInt8} {length : Nat} {reader : Reader}
    (exact_ : Exact whole length reader) (stuck : next arrived.reads reader = none) :
    ∃ request size complete, reader = .returned request size complete := by
  cases reader with
  | reading request size stream =>
      rcases next_reading arrived exact_ with ⟨-, step⟩ | ⟨-, -, step⟩ | ⟨-, -, _, step, -⟩
      all_goals rw [step] at stuck; cases stuck
  | returned request size complete => exact ⟨request, size, complete, rfl⟩
  | failed => exact exact_.elim
  | panicked => exact exact_.elim

end Reader

theorem exact_start (request stream : List UInt8) :
    (Reader.reading request 0 stream).Exact stream request.length :=
  ⟨rfl, Nat.zero_le _, rfl, rfl⟩

/-- The reader returns, and has received the first bytes of the stream: all it can hold,
unless they have an empty line before. -/
theorem read_exact (arrived : Arrival) (request stream : List UInt8) :
    ∃ buffer size complete,
      readMetricsRequest arrived.reads request stream = .returned buffer size complete ∧
      (Reader.returned buffer size complete).Exact stream request.length := by
  have start := exact_start request stream
  have kept : ∀ s t, Reader.Exact stream request.length s → Reader.next arrived.reads s = some t →
      Reader.Exact stream request.length t := fun s t => Reader.next_exact
  have exact_ := drive_invariant kept (request.length + 2) start
  have lower : ∀ s t, Reader.Exact stream request.length s → Reader.next arrived.reads s = some t →
      t.rounds < s.rounds := fun s t => Reader.next_lower
  have enough : (Reader.reading request 0 stream).rounds < request.length + 2 := by
    simp only [Reader.rounds]
    omega
  have stuck := drive_stuck kept lower start enough
  obtain ⟨buffer, size, complete, returned⟩ := Reader.returned_of_stuck exact_ stuck
  refine ⟨buffer, size, complete, returned, ?_⟩
  rw [← returned]
  exact exact_

/-- Any number of bytes that holds the first empty line may be what is received. -/
theorem read_at (request stream : List UInt8) {size : Nat} (some_ : 0 < size)
    (room : size ≤ request.length) (enough : size ≤ stream.length)
    (ended : Ended (stream.take size)) :
    ∃ buffer, buffer.take size = stream.take size ∧ buffer.length = request.length ∧
      readMetricsRequest (Arrival.reads fun _ => size) request stream =
        .returned buffer size true := by
  have start := exact_start request stream
  have full : 0 + Reader.found (fun _ => size) request.length stream.length 0 = size := by
    simp only [Reader.found]
    omega
  rcases Reader.next_reading (fun _ => size) start with
    ⟨none_, -⟩ | ⟨-, zero, -⟩ | ⟨-, -, more, first, length_, received⟩
  · exact absurd none_.length_le (Nat.not_succ_le_zero 3)
  · omega
  · rw [full] at first received
    have second : (Reader.reading more size (stream.drop size)).Exact stream request.length :=
      ⟨length_, by omega, received, rfl⟩
    rcases Reader.next_reading (fun _ => size) second with
      ⟨-, step⟩ | ⟨going, -⟩ | ⟨going, -⟩
    · refine ⟨more, received, length_, ?_⟩
      rw [readMetricsRequest, drive_of_step first, drive_of_step step, drive_of_stuck rfl]
    · exact absurd ended going
    · exact absurd ended going

end Portrelay.Server
