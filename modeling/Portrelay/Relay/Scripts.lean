/-
# Relay.Scripts -- one direction driven through a script

What the peers of one direction will do is fixed in advance: the source hands out its
chunks and then ends or fails (`Script`), the destination answers the k-th write with
a partial acceptance or an error and the shutdown with a given outcome (`Behaviour`).
A `Drivable` loop says which call it waits for; `finish` drives it to its end, and
`finish_outcome` is what it delivers and returns there when the source ends and no
write fails.  `backends_agree_iff` compares the two loops.
-/
import Portrelay.Theory.Drive
import Portrelay.Relay.Backend

namespace Portrelay.Relay

open Portrelay.Theory

set_option autoImplicit false

/-- Chunks of data, then end of file or a read error. -/
structure Script where
  chunks : List (List UInt8)
  nonempty : ∀ chunk ∈ chunks, chunk ≠ []
  ending : Option IoError

def Script.bytes (script : Script) : List UInt8 := script.chunks.flatten

/-- The destination's answer to one write: it accepts at most so many bytes, or fails. -/
inductive Acceptance
  | accept (most : Nat)
  | fail (error : IoError)

structure Behaviour where
  writes : Nat → Acceptance
  shutdown : Except IoError Unit

/-- The write with this number moves something. -/
def Behaviour.Accepts (b : Behaviour) (k : Nat) : Prop :=
  ∃ most, b.writes k = .accept most ∧ 0 < most

/-- The call a loop waits for. -/
inductive Want
  | take (capacity : Nat)
  | give (amount : Nat)
  | shutdown
  | nothing
  deriving DecidableEq

/-- What is left of the script, and the number of the next write. -/
structure World where
  chunks : List (List UInt8)
  ending : Option IoError
  writes : Nat

namespace World

/-- A read of at most `capacity` bytes takes what it can of the first chunk. -/
def read (w : World) (capacity : Nat) : Io × World :=
  match w.chunks with
  | [] =>
      match w.ending with
      | none => (.taken [], w)
      | some error => (.takeFailed error, w)
  | chunk :: rest =>
      (.taken (chunk.take capacity),
        { w with chunks := if chunk.drop capacity = [] then rest else chunk.drop capacity :: rest })

def write (w : World) (b : Behaviour) (amount : Nat) : Io × World :=
  (match b.writes w.writes with
    | .accept most => .given (min most amount)
    | .fail error => .giveFailed error,
    { w with writes := w.writes + 1 })

def answer (w : World) (b : Behaviour) : Want → Option (Io × World)
  | .take capacity => some (w.read capacity)
  | .give amount => some (w.write b amount)
  | .shutdown => some (.shutdown b.shutdown, w)
  | .nothing => none

end World

/-- What a completed call does to the record of the source. -/
def Source.after (s : Source) : Io → Source
  | .taken bytes => if bytes = [] then { s with eof := true } else { s with produced := s.produced ++ bytes }
  | _ => s

/-- How much a completed call may add to a loop's remaining work. -/
def Io.gain : Io → Nat
  | .taken bytes => if bytes = [] then 0 else bytes.length + 1
  | _ => 0

/-- What a call answered by the peers does to the script, whatever the source's record. -/
structure Answered (b : Behaviour) (w w' : World) (io : Io) : Prop where
  nonempty : ∀ chunk ∈ w'.chunks, chunk ≠ []
  ending : w'.ending = w.ending
  split : ∀ s : Source, (s.after io).produced ++ w'.chunks.flatten = s.produced ++ w.chunks.flatten
  ended : ∀ s : Source, (s.after io).eof = true →
    (s.eof = true ∧ w'.chunks.length ≤ w.chunks.length) ∨ (w'.chunks = [] ∧ w.ending = none)
  gain : io.gain + 2 * w'.chunks.flatten.length ≤ 2 * w.chunks.flatten.length
  writes : w.writes ≤ w'.writes
  takeFailed : ∀ error, io = .takeFailed error → w.ending ≠ none
  refused : (∃ error, io = .giveFailed error) ∨ io = .given 0 →
    w.writes < w'.writes ∧ ¬ b.Accepts w.writes
  shutdown : ∀ outcome, io = .shutdown outcome → outcome = b.shutdown

theorem World.read_answered {w : World} (b : Behaviour) {capacity : Nat} (pos : 0 < capacity)
    (nonempty : ∀ chunk ∈ w.chunks, chunk ≠ []) :
    Answered b w (w.read capacity).2 (w.read capacity).1 := by
  unfold World.read
  cases chunks : w.chunks with
  | nil =>
      cases ending : w.ending with
      | none => constructor <;> simp [Source.after, Io.gain, chunks, ending]
      | some error => constructor <;> simp [Source.after, Io.gain, chunks, ending]
  | cons chunk rest =>
      rw [chunks] at nonempty
      have here : chunk ≠ [] := nonempty chunk (by simp)
      have taken : chunk.take capacity ≠ [] := by
        rw [Ne, List.take_eq_nil_iff]
        rintro (zero | none)
        · omega
        · exact here none
      have left : (if chunk.drop capacity = [] then rest else chunk.drop capacity :: rest).flatten =
          chunk.drop capacity ++ rest.flatten := by
        split
        · rename_i empty
          rw [empty, List.nil_append]
        · rfl
      refine ⟨?_, rfl, ?_, ?_, ?_, Nat.le_refl _, by simp, by simp, by simp⟩
      · intro c member
        simp only at member
        split at member
        · exact nonempty c (List.mem_cons_of_mem _ member)
        · rename_i more
          rcases List.mem_cons.mp member with rfl | old
          · exact more
          · exact nonempty c (List.mem_cons_of_mem _ old)
      · intro s
        simp only [Source.after, taken, if_false, left, List.append_assoc]
        rw [← List.append_assoc (chunk.take capacity), List.take_append_drop, chunks,
          List.flatten_cons]
      · intro s ended
        simp only [Source.after, taken, if_false] at ended
        refine Or.inl ⟨ended, ?_⟩
        simp only [chunks]
        split <;> simp
      · have length := List.take_append_drop capacity chunk
        have whole := congrArg List.length length
        have some_ := List.length_pos_of_ne_nil taken
        simp only [Io.gain, taken, if_false, left, chunks, List.flatten_cons, List.length_append]
          at whole ⊢
        omega

theorem World.write_answered {w : World} (b : Behaviour) {amount : Nat} (pos : 0 < amount)
    (nonempty : ∀ chunk ∈ w.chunks, chunk ≠ []) :
    Answered b w (w.write b amount).2 (w.write b amount).1 := by
  unfold World.write
  cases answer : b.writes w.writes with
  | fail error =>
      have refused : ¬ b.Accepts w.writes := by
        rintro ⟨most, accepted, -⟩
        rw [answer] at accepted
        cases accepted
      exact ⟨nonempty, rfl, fun s => rfl, fun s ended => Or.inl ⟨ended, Nat.le_refl _⟩,
        by simp [Io.gain], Nat.le_succ _, by simp, fun _ => ⟨Nat.lt_succ_self _, refused⟩, by simp⟩
  | accept most =>
      refine ⟨nonempty, rfl, fun s => rfl, fun s ended => Or.inl ⟨ended, Nat.le_refl _⟩,
        by simp [Io.gain], Nat.le_succ _, by simp, ?_, by simp⟩
      rintro (⟨error, failed⟩ | none)
      · cases failed
      · refine ⟨Nat.lt_succ_self _, ?_⟩
        rintro ⟨most', accepted, some_⟩
        rw [answer] at accepted
        obtain rfl := Acceptance.accept.inj accepted
        have := Io.given.inj none
        omega

/-- A loop that says what it waits for, can do every such call, and comes to an end. -/
structure Drivable (B : Backend) where
  want : B.State → Want
  rank : B.State → Nat
  start_rank : ∀ setup, rank (B.start setup) ≤ 2
  start_source : ∀ setup, B.source (B.start setup) = .fresh
  takes : ∀ {s capacity}, B.Valid s → want s = .take capacity → 0 < capacity ∧
    (∀ bytes, bytes.length ≤ capacity → ∃ t, B.step s (.taken bytes) = some t) ∧
    ∀ error, ∃ t, B.step s (.takeFailed error) = some t
  gives : ∀ {s amount}, B.Valid s → want s = .give amount → 0 < amount ∧
    (∀ count, count ≤ amount → ∃ t, B.step s (.given count) = some t) ∧
    ∀ error, ∃ t, B.step s (.giveFailed error) = some t
  shuts : ∀ {s}, want s = .shutdown → ∀ outcome, ∃ t, B.step s (.shutdown outcome) = some t
  ends : ∀ {s}, want s = .nothing → B.result s ≠ none
  sourced : ∀ {s t io}, B.Valid s → B.step s io = some t → B.source t = (B.source s).after io
  ranked : ∀ {s t io}, B.Valid s → B.step s io = some t → rank t < rank s + io.gain
  failed : ∀ {s t io error}, B.step s io = some t → B.result t = some (.error error) →
    (∃ e, io = .takeFailed e) ∨ (∃ e, io = .giveFailed e) ∨ io = .given 0 ∨
      ∃ outcome, io = .shutdown outcome ∧ B.closes outcome = false ∧
        (B.destination t).shutdowns ≠ []

namespace Drivable

variable {B : Backend} (D : Drivable B)

/-- The loop and the rest of the script after its next call. -/
def advance (b : Behaviour) (at_ : B.State × World) : Option (B.State × World) :=
  (at_.2.answer b (D.want at_.1)).bind fun call =>
    (B.step at_.1 call.1).map fun t => (t, call.2)

/-- The loop driven through the script to its end. -/
def finish (setup : B.Setup) (script : Script) (b : Behaviour) : B.State × World :=
  drive (D.advance b) (2 * script.bytes.length + 3)
    (B.start setup, ⟨script.chunks, script.ending, 0⟩)

/-- What holds of a loop on its way through a script. -/
structure Follows (script : Script) (b : Behaviour) (at_ : B.State × World) : Prop where
  valid : B.Valid at_.1
  nonempty : ∀ chunk ∈ at_.2.chunks, chunk ≠ []
  split : (B.source at_.1).produced ++ at_.2.chunks.flatten = script.bytes
  ended : (B.source at_.1).eof = true → at_.2.chunks = [] ∧ script.ending = none
  ending : at_.2.ending = script.ending
  ok : ∀ count, B.result at_.1 = some (.ok count) → B.closes b.shutdown = true
  failed : ∀ error, B.result at_.1 = some (.error error) →
    script.ending ≠ none ∨ (∃ k, k < at_.2.writes ∧ ¬ b.Accepts k) ∨
      (B.closes b.shutdown = false ∧ (B.destination at_.1).shutdowns ≠ [])

/-- The work left: what the loop has to do, and twice what it has to read. -/
def work (at_ : B.State × World) : Nat := D.rank at_.1 + 2 * at_.2.chunks.flatten.length

/-- A call that completes on the way was answered by the peers. -/
theorem advance_answered {script : Script} {b : Behaviour} {at_ next : B.State × World}
    (follows : Follows script b at_) (advanced : D.advance b at_ = some next) :
    ∃ io, B.step at_.1 io = some next.1 ∧ Answered b at_.2 next.2 io := by
  obtain ⟨⟨io, w⟩, answered, stepped⟩ := Option.bind_eq_some_iff.mp advanced
  obtain ⟨t, done, rfl⟩ := Option.map_eq_some_iff.mp stepped
  refine ⟨io, done, ?_⟩
  cases want : D.want at_.1 with
  | take capacity =>
      rw [want, World.answer, Option.some.injEq] at answered
      have read := World.read_answered b (D.takes follows.valid want).1 follows.nonempty
      rwa [answered] at read
  | give amount =>
      rw [want, World.answer, Option.some.injEq] at answered
      have written := World.write_answered b (D.gives follows.valid want).1 follows.nonempty
      rwa [answered] at written
  | shutdown =>
      rw [want, World.answer, Option.some.injEq, Prod.mk.injEq] at answered
      obtain ⟨rfl, rfl⟩ := answered
      refine ⟨follows.nonempty, rfl, fun s => rfl, fun s ended => Or.inl ⟨ended, Nat.le_refl _⟩,
        by simp [Io.gain], Nat.le_refl _, by simp, by simp, ?_⟩
      intro outcome same
      exact (Io.shutdown.inj same).symm
  | nothing =>
      rw [want] at answered
      cases answered

theorem advance_follows {script : Script} {b : Behaviour} {at_ next : B.State × World}
    (follows : Follows script b at_) (advanced : D.advance b at_ = some next) :
    Follows script b next := by
  obtain ⟨io, stepped, answered⟩ := D.advance_answered follows advanced
  have sourced := D.sourced follows.valid stepped
  refine ⟨B.step_valid follows.valid stepped, answered.nonempty, ?_, ?_, ?_, ?_, ?_⟩
  · rw [sourced, answered.split]
    exact follows.split
  · intro ended
    rw [sourced] at ended
    rcases answered.ended _ ended with ⟨before, fewer⟩ | ⟨none, ending⟩
    · obtain ⟨empty, ending⟩ := follows.ended before
      rw [empty] at fewer
      exact ⟨List.eq_nil_of_length_eq_zero (Nat.le_zero.mp fewer), ending⟩
    · exact ⟨none, follows.ending ▸ ending⟩
  · rw [answered.ending]
    exact follows.ending
  · intro count ok
    obtain ⟨outcome, shut, closes⟩ := (B.returned_ok stepped).mp ⟨count, ok⟩
    rwa [answered.shutdown outcome shut] at closes
  · intro error failure
    rcases D.failed stepped failure with ⟨e, taken⟩ | ⟨e, given⟩ | none | ⟨outcome, shut, closes, sealed⟩
    · exact Or.inl (follows.ending ▸ answered.takeFailed e taken)
    · exact Or.inr (Or.inl ⟨_, answered.refused (Or.inl ⟨e, given⟩)⟩)
    · exact Or.inr (Or.inl ⟨_, answered.refused (Or.inr none)⟩)
    · rw [answered.shutdown outcome shut] at closes
      exact Or.inr (Or.inr ⟨closes, sealed⟩)

theorem advance_work {script : Script} {b : Behaviour} {at_ next : B.State × World}
    (follows : Follows script b at_) (advanced : D.advance b at_ = some next) :
    D.work next < D.work at_ := by
  obtain ⟨io, stepped, answered⟩ := D.advance_answered follows advanced
  have ranked := D.ranked follows.valid stepped
  have gain := answered.gain
  unfold work
  omega

/-- A loop that has not returned does its next call. -/
theorem advance_stuck {script : Script} {b : Behaviour} {at_ : B.State × World}
    (follows : Follows script b at_) (stuck : D.advance b at_ = none) :
    B.result at_.1 ≠ none := by
  unfold advance at stuck
  cases want : D.want at_.1 with
  | take capacity =>
      obtain ⟨pos, takes, fails⟩ := D.takes follows.valid want
      obtain ⟨t, stepped⟩ : ∃ t, B.step at_.1 (at_.2.read capacity).1 = some t := by
        unfold World.read
        split
        · split
          · exact takes [] (Nat.zero_le _)
          · exact fails _
        · exact takes _ (List.length_take ▸ Nat.min_le_left _ _)
      simp [want, World.answer, stepped] at stuck
  | give amount =>
      obtain ⟨pos, gives, fails⟩ := D.gives follows.valid want
      obtain ⟨t, stepped⟩ : ∃ t, B.step at_.1 (at_.2.write b amount).1 = some t := by
        unfold World.write
        simp only
        split
        · exact gives _ (Nat.min_le_right _ _)
        · exact fails _
      simp [want, World.answer, stepped] at stuck
  | shutdown =>
      obtain ⟨t, stepped⟩ := D.shuts want b.shutdown
      simp [want, World.answer, stepped] at stuck
  | nothing => exact D.ends want

include D in
theorem start_follows (setup : B.Setup) (script : Script) (b : Behaviour) :
    Follows script b (B.start setup, ⟨script.chunks, script.ending, 0⟩) := by
  have fresh := D.start_source setup
  refine ⟨B.start_valid setup, script.nonempty, ?_, ?_, rfl, ?_, ?_⟩
  · rw [fresh]
    rfl
  · intro ended
    rw [fresh] at ended
    cases ended
  · intro count ok
    rw [B.start_running] at ok
    cases ok
  · intro error failure
    rw [B.start_running] at failure
    cases failure

theorem finish_follows (setup : B.Setup) (script : Script) (b : Behaviour) :
    Follows script b (D.finish setup script b) :=
  drive_invariant (fun _ _ follows advanced => D.advance_follows follows advanced) _
    (D.start_follows setup script b)

/-- The loop comes to its end: it has returned, and more fuel changes nothing. -/
theorem finish_returned (setup : B.Setup) (script : Script) (b : Behaviour) :
    B.result (D.finish setup script b).1 ≠ none ∧
      ∀ fuel, 2 * script.bytes.length + 3 ≤ fuel →
        drive (D.advance b) fuel (B.start setup, ⟨script.chunks, script.ending, 0⟩) =
          D.finish setup script b := by
  have enough : D.work (B.start setup, ⟨script.chunks, script.ending, 0⟩) <
      2 * script.bytes.length + 3 := by
    have rank := D.start_rank setup
    change D.rank (B.start setup) + 2 * script.bytes.length < _
    omega
  have stuck : D.advance b (D.finish setup script b) = none :=
    drive_stuck (fun _ _ follows advanced => D.advance_follows follows advanced)
      (fun _ _ follows advanced => D.advance_work follows advanced)
      (D.start_follows setup script b) enough
  exact ⟨D.advance_stuck (D.finish_follows setup script b) stuck,
    fun fuel le => drive_enough stuck le⟩

/-- Where the source ends and no write fails, the whole script is delivered, and the
result is `Ok` with its length iff the shutdown's outcome closes the loop. -/
theorem finish_outcome {setup : B.Setup} {script : Script} {b : Behaviour}
    (ended : script.ending = none)
    (accepted : ∀ k, k < (D.finish setup script b).2.writes → b.Accepts k) :
    B.delivered (D.finish setup script b).1 = script.bytes ∧
      ((B.closes b.shutdown = true ∧
          B.result (D.finish setup script b).1 = some (.ok script.bytes.length)) ∨
        (B.closes b.shutdown = false ∧
          ∃ error, B.result (D.finish setup script b).1 = some (.error error))) := by
  have follows := D.finish_follows setup script b
  have returned := (D.finish_returned setup script b).1
  have whole : (B.source (D.finish setup script b).1).eof = true →
      (B.source (D.finish setup script b).1).produced = script.bytes := by
    intro eof
    have split := follows.split
    rwa [(follows.ended eof).1, List.flatten_nil, List.append_nil] at split
  cases result : B.result (D.finish setup script b).1 with
  | none => exact absurd result returned
  | some outcome =>
      cases outcome with
      | ok count =>
          obtain ⟨eof, all, counted, -⟩ := B.complete follows.valid result
          refine ⟨all.trans (whole eof), Or.inl ⟨follows.ok count result, ?_⟩⟩
          rw [counted, whole eof]
      | error error =>
          rcases follows.failed error result with readError | ⟨k, made, refused⟩ | ⟨open_, sealed⟩
          · exact absurd ended readError
          · exact absurd (accepted k made) refused
          · obtain ⟨eof, all, -⟩ := (B.faithful follows.valid).sealed sealed
            exact ⟨all.trans (whole eof), Or.inr ⟨open_, error, rfl⟩⟩

end Drivable

/-! ## The two loops -/

namespace CopyDirection

def want (d : CopyDirection) : Want :=
  match d.phase with
  | .reading => .take d.buffer.length
  | .writing read written => .give (read - written)
  | .shuttingDown => .shutdown
  | .done _ => .nothing

def rank (d : CopyDirection) : Nat :=
  match d.phase with
  | .reading => 2
  | .writing read written => 2 + (read - written)
  | .shuttingDown => 1
  | .done _ => 0

theorem want_takes {d : CopyDirection} {capacity : Nat} (valid : d.Valid)
    (waits : d.want = .take capacity) : 0 < capacity ∧
      (∀ bytes, bytes.length ≤ capacity → ∃ e, d.step (.taken bytes) = some e) ∧
      ∀ error, ∃ e, d.step (.takeFailed error) = some e := by
  obtain ⟨pos, held⟩ := valid
  unfold want at waits
  split at waits <;> [skip; cases waits; cases waits; cases waits]
  rename_i phase
  obtain rfl := Want.take.inj waits
  simp only [phase] at held
  refine ⟨pos, fun bytes fits => ?_, fun error => ⟨_, by simp only [step, phase]; rfl⟩⟩
  by_cases empty : bytes = []
  · subst empty
    simp [step, phase, Source.read, Nat.ne_of_gt pos]
  · simp [step, phase, Source.read, empty, fits, held.2.1]

theorem want_gives {d : CopyDirection} {amount : Nat} (valid : d.Valid)
    (waits : d.want = .give amount) : 0 < amount ∧
      (∀ count, count ≤ amount → ∃ e, d.step (.given count) = some e) ∧
      ∀ error, ∃ e, d.step (.giveFailed error) = some e := by
  obtain ⟨-, held⟩ := valid
  unfold want at waits
  split at waits <;> [cases waits; skip; cases waits; cases waits]
  rename_i read written phase
  obtain rfl := Want.give.inj waits
  simp only [phase] at held
  refine ⟨by omega, fun count le => ?_, fun error => ⟨_, by simp only [step, phase]; rfl⟩⟩
  simp only [step, phase, Nat.not_lt.mpr le, if_false]
  by_cases zero : count = 0
  · exact ⟨_, if_pos zero⟩
  · rw [if_neg zero]
    by_cases whole : written + count = read
    · exact ⟨_, if_pos whole⟩
    · exact ⟨_, if_neg whole⟩

theorem want_shuts {d : CopyDirection} (waits : d.want = .shutdown) (outcome : Except IoError Unit) :
    ∃ e, d.step (.shutdown outcome) = some e := by
  unfold want at waits
  split at waits <;> [cases waits; cases waits; skip; cases waits]
  rename_i phase
  simp only [step, phase]
  cases pollShutdown outcome with
  | ok => exact ⟨_, rfl⟩
  | error error => exact ⟨_, rfl⟩

theorem want_ends {d : CopyDirection} (waits : d.want = .nothing) : d.result ≠ none := by
  unfold want at waits
  split at waits <;> [cases waits; cases waits; cases waits; skip]
  rename_i phase
  simp [result, phase]

theorem step_sourced {d e : CopyDirection} {io : Io} (valid : d.Valid) (stepped : d.step io = some e) :
    e.source = d.source.after io := by
  cases step_stepped stepped with
  | ended phase read => simpa [Source.after] using Source.read_empty_eq_some valid.1 read
  | chunk phase nonempty read =>
      simpa [Source.after, nonempty] using (Source.read_eq_some nonempty read).2.2
  | _ => rfl

theorem step_ranked {d e : CopyDirection} {io : Io} (valid : d.Valid) (stepped : d.step io = some e) :
    e.rank < d.rank + io.gain := by
  obtain ⟨-, held⟩ := valid
  cases step_stepped stepped with
  | ended phase read => simp [rank, phase, Io.gain]
  | chunk phase nonempty read => simp [rank, phase, Io.gain, nonempty]
  | readFailed phase => simp [rank, phase, Io.gain]
  | wroteZero phase =>
      simp only [rank, phase, Io.gain]
      omega
  | wroteRest phase pos whole =>
      simp only [phase] at held
      simp only [rank, phase, Io.gain]
      omega
  | wrotePart phase pos part =>
      simp only [rank, phase, Io.gain]
      omega
  | writeFailed phase =>
      simp only [rank, phase, Io.gain]
      omega
  | shut phase closed => simp [rank, phase, Io.gain]
  | shutFailed phase failed => simp [rank, phase, Io.gain]

theorem step_failed {d e : CopyDirection} {io : Io} {error : IoError} (stepped : d.step io = some e)
    (failed : e.result = some (.error error)) :
    (∃ e, io = .takeFailed e) ∨ (∃ e, io = .giveFailed e) ∨ io = .given 0 ∨
      ∃ outcome, io = .shutdown outcome ∧ closes outcome = false ∧ e.destination.shutdowns ≠ [] := by
  cases step_stepped stepped with
  | readFailed phase => exact Or.inl ⟨_, rfl⟩
  | wroteZero phase => exact Or.inr (Or.inr (Or.inl rfl))
  | writeFailed phase => exact Or.inr (Or.inl ⟨_, rfl⟩)
  | shutFailed phase refused =>
      exact Or.inr (Or.inr (Or.inr ⟨_, rfl, by rw [closes, refused]; rfl, by simp⟩))
  | _ => cases failed

def drivable : Drivable copyBackend where
  want := want
  rank := rank
  start_rank _ := Nat.le_refl _
  start_source _ := rfl
  takes := want_takes
  gives := want_gives
  shuts := want_shuts
  ends := want_ends
  sourced := step_sourced
  ranked := step_ranked
  failed := step_failed

end CopyDirection

namespace SpliceDirection

def want (d : SpliceDirection) : Want :=
  match d.phase with
  | .filling => .take SPLICE_CHUNK_SIZE
  | .draining pending => .give pending
  | .shuttingDown => .shutdown
  | .done _ => .nothing

def rank (d : SpliceDirection) : Nat :=
  match d.phase with
  | .filling => 2
  | .draining pending => 2 + pending
  | .shuttingDown => 1
  | .done _ => 0

theorem want_takes {d : SpliceDirection} {capacity : Nat} (valid : d.Valid)
    (waits : d.want = .take capacity) : 0 < capacity ∧
      (∀ bytes, bytes.length ≤ capacity → ∃ e, d.step (.taken bytes) = some e) ∧
      ∀ error, ∃ e, d.step (.takeFailed error) = some e := by
  obtain ⟨-, held⟩ := valid
  unfold want at waits
  split at waits <;> [skip; cases waits; cases waits; cases waits]
  rename_i phase
  obtain rfl := Want.take.inj waits
  simp only [phase] at held
  refine ⟨SPLICE_CHUNK_SIZE_pos, fun bytes fits => ?_,
    fun error => ⟨_, by simp only [step, phase]; rfl⟩⟩
  by_cases empty : bytes = []
  · subst empty
    simp [step, phase, Source.read, Nat.ne_of_gt SPLICE_CHUNK_SIZE_pos]
  · simp [step, phase, Source.read, empty, fits, held.2.1]

theorem want_gives {d : SpliceDirection} {amount : Nat} (valid : d.Valid)
    (waits : d.want = .give amount) : 0 < amount ∧
      (∀ count, count ≤ amount → ∃ e, d.step (.given count) = some e) ∧
      ∀ error, ∃ e, d.step (.giveFailed error) = some e := by
  obtain ⟨-, held⟩ := valid
  unfold want at waits
  split at waits <;> [cases waits; skip; cases waits; cases waits]
  rename_i pending phase
  obtain rfl := Want.give.inj waits
  simp only [phase] at held
  refine ⟨held.1, fun count le => ?_, fun error => ⟨_, by simp only [step, phase]; rfl⟩⟩
  have enough : ¬ (pending < count ∨ d.pipe.length < count) := by omega
  simp only [step, phase, if_neg enough]
  by_cases zero : count = 0
  · exact ⟨_, if_pos zero⟩
  · exact ⟨_, if_neg zero⟩

theorem want_shuts {d : SpliceDirection} (waits : d.want = .shutdown)
    (outcome : Except IoError Unit) : ∃ e, d.step (.shutdown outcome) = some e := by
  unfold want at waits
  split at waits <;> [cases waits; cases waits; skip; cases waits]
  rename_i phase
  simp only [step, phase]
  cases outcome with
  | ok => exact ⟨_, rfl⟩
  | error error => exact ⟨_, rfl⟩

theorem want_ends {d : SpliceDirection} (waits : d.want = .nothing) : d.result ≠ none := by
  unfold want at waits
  split at waits <;> [cases waits; cases waits; cases waits; skip]
  rename_i phase
  simp [result, phase]

theorem step_sourced {d e : SpliceDirection} {io : Io} (stepped : d.step io = some e) :
    e.source = d.source.after io := by
  cases step_stepped stepped with
  | ended phase read => simpa [Source.after] using Source.read_empty_eq_some SPLICE_CHUNK_SIZE_pos read
  | filled phase nonempty read =>
      simpa [Source.after, nonempty] using (Source.read_eq_some nonempty read).2.2
  | _ => rfl

theorem step_ranked {d e : SpliceDirection} {io : Io} (stepped : d.step io = some e) :
    e.rank < d.rank + io.gain := by
  cases step_stepped stepped with
  | ended phase read => simp [rank, phase, Io.gain]
  | filled phase nonempty read => simp [rank, phase, Io.gain, nonempty]
  | fillFailed phase => simp [rank, phase, Io.gain]
  | drainedZero phase =>
      simp only [rank, phase, Io.gain]
      omega
  | @drained pending count phase pos asked held =>
      by_cases last : pending - count = 0
      · simp only [rank, phase, last, if_true, Io.gain]
        omega
      · simp only [rank, phase, last, if_false, Io.gain]
        omega
  | drainFailed phase =>
      simp only [rank, phase, Io.gain]
      omega
  | shut phase => simp [rank, phase, Io.gain]
  | shutFailed phase => simp [rank, phase, Io.gain]

theorem step_failed {d e : SpliceDirection} {io : Io} {error : IoError}
    (stepped : d.step io = some e) (failed : e.result = some (.error error)) :
    (∃ e, io = .takeFailed e) ∨ (∃ e, io = .giveFailed e) ∨ io = .given 0 ∨
      ∃ outcome, io = .shutdown outcome ∧ closes outcome = false ∧ e.destination.shutdowns ≠ [] := by
  cases step_stepped stepped with
  | fillFailed phase => exact Or.inl ⟨_, rfl⟩
  | drainedZero phase => exact Or.inr (Or.inr (Or.inl rfl))
  | @drained pending count phase pos asked held =>
      by_cases last : pending - count = 0 <;> simp [result, last] at failed
  | drainFailed phase => exact Or.inr (Or.inl ⟨_, rfl⟩)
  | shutFailed phase => exact Or.inr (Or.inr (Or.inr ⟨_, rfl, rfl, by simp⟩))
  | _ => cases failed

def drivable : Drivable spliceBackend where
  want := want
  rank := rank
  start_rank _ := Nat.le_refl _
  start_source _ := rfl
  takes := want_takes
  gives := want_gives
  shuts := want_shuts
  ends := want_ends
  sourced _ := step_sourced
  ranked _ := step_ranked
  failed := step_failed

end SpliceDirection

/-! ## Agreement -/

/-- The shutdown found the destination already not connected. -/
def Behaviour.Disconnected (b : Behaviour) : Prop :=
  ∃ error, b.shutdown = .error error ∧ error.kind = .notConnected

theorem copy_closes_iff (b : Behaviour) : copyBackend.closes b.shutdown = true ↔
    spliceBackend.closes b.shutdown = true ∨ b.Disconnected := by
  change (CopyDirection.pollShutdown b.shutdown).isOk = true ↔ b.shutdown.isOk = true ∨ _
  unfold Behaviour.Disconnected
  cases b.shutdown with
  | ok => simp [CopyDirection.pollShutdown, Except.isOk, Except.toBool]
  | error error =>
      by_cases gone : error.kind = .notConnected
      · simp [CopyDirection.pollShutdown, gone, Except.isOk, Except.toBool]
      · simp [CopyDirection.pollShutdown, gone, Except.isOk, Except.toBool]

theorem not_splice_closes {b : Behaviour} (gone : b.Disconnected) :
    spliceBackend.closes b.shutdown = false := by
  obtain ⟨error, failed, -⟩ := gone
  rw [failed]
  rfl

/-- Both loops, driven through the same script against the same destination. -/
def copyEnd (buffer : IssuedBuffer) (script : Script) (b : Behaviour) : CopyDirection × World :=
  CopyDirection.drivable.finish buffer script b

def spliceEnd (script : Script) (b : Behaviour) : SpliceDirection × World :=
  SpliceDirection.drivable.finish () script b

/-- The source ends with end of file, and no write of either loop fails. -/
structure Undisturbed (buffer : IssuedBuffer) (script : Script) (b : Behaviour) : Prop where
  ended : script.ending = none
  copy : ∀ k, k < (copyEnd buffer script b).2.writes → b.Accepts k
  splice : ∀ k, k < (spliceEnd script b).2.writes → b.Accepts k

/-- The two loops delivered the same bytes, and both returned `Ok` with the same count
or both an error. -/
structure Agree (copy : CopyDirection) (splice : SpliceDirection) : Prop where
  delivered : copy.destination.delivered = splice.destination.delivered
  returned : (∃ count, copy.result = some (.ok count) ∧ splice.result = some (.ok count)) ∨
    (∃ error, copy.result = some (.error error)) ∧ ∃ error, splice.result = some (.error error)

/-- Driven to their ends, which they both reach, the two loops agree whenever the source
ends and no write fails, exactly if the shutdown does not then find the destination
already disconnected. -/
theorem backends_agree_iff (buffer : IssuedBuffer) (script : Script) (b : Behaviour) :
    (copyEnd buffer script b).1.result ≠ none ∧ (spliceEnd script b).1.result ≠ none ∧
      ((Undisturbed buffer script b → Agree (copyEnd buffer script b).1 (spliceEnd script b).1) ↔
        (Undisturbed buffer script b → ¬ b.Disconnected)) := by
  refine ⟨(CopyDirection.drivable.finish_returned buffer script b).1,
    (SpliceDirection.drivable.finish_returned () script b).1, ?_⟩
  have ends : Undisturbed buffer script b →
      (Agree (copyEnd buffer script b).1 (spliceEnd script b).1 ↔ ¬ b.Disconnected) := by
    intro undisturbed
    obtain ⟨copied, copyResult⟩ :=
      CopyDirection.drivable.finish_outcome undisturbed.ended undisturbed.copy
    obtain ⟨spliced, spliceResult⟩ :=
      SpliceDirection.drivable.finish_outcome undisturbed.ended undisturbed.splice
    have same := copied.trans spliced.symm
    rcases spliceResult with ⟨closes, spliceOk⟩ | ⟨open_, spliceFailed⟩
    · have connected : ¬ b.Disconnected := by
        intro gone
        rw [not_splice_closes gone] at closes
        cases closes
      refine iff_of_true ⟨same, Or.inl ⟨_, ?_, spliceOk⟩⟩ connected
      rcases copyResult with ⟨-, copyOk⟩ | ⟨copyOpen, -⟩
      · exact copyOk
      · rw [(copy_closes_iff b).mpr (Or.inl closes)] at copyOpen
        cases copyOpen
    · rcases copyResult with ⟨closes, copyOk⟩ | ⟨copyOpen, copyFailed⟩
      · refine iff_of_false ?_ fun connected => ?_
        · rintro ⟨-, ⟨count, -, spliceOk⟩ | ⟨⟨error, copyFailed⟩, -⟩⟩
          · obtain ⟨error, failed⟩ := spliceFailed
            exact absurd (failed.symm.trans spliceOk) (by simp)
          · exact absurd (copyFailed.symm.trans copyOk) (by simp)
        · rcases (copy_closes_iff b).mp closes with spliceCloses | gone
          · rw [spliceCloses] at open_
            cases open_
          · exact connected gone
      · refine iff_of_true ⟨same, Or.inr ⟨copyFailed, spliceFailed⟩⟩ fun gone => ?_
        rw [(copy_closes_iff b).mpr (Or.inr gone)] at copyOpen
        cases copyOpen
  exact forall_congr' ends

/-- One byte, end of file, and a destination that is gone when the write side is shut
down. -/
def goneScript : Script := ⟨[[7]], by decide, none⟩

def goneBehaviour : Behaviour := ⟨fun _ => .accept 1, .error (.os .notConnected)⟩

theorem disconnected_shutdown_disagrees :
    Undisturbed ⟨[0], by decide⟩ goneScript goneBehaviour ∧
      (copyEnd ⟨[0], by decide⟩ goneScript goneBehaviour).1.result = some (.ok 1) ∧
      (spliceEnd goneScript goneBehaviour).1.result = some (.error (.os .notConnected)) ∧
      ¬ Agree (copyEnd ⟨[0], by decide⟩ goneScript goneBehaviour).1
        (spliceEnd goneScript goneBehaviour).1 := by
  have copyOk : (copyEnd ⟨[0], by decide⟩ goneScript goneBehaviour).1.result = some (.ok 1) := rfl
  have spliceFailed : (spliceEnd goneScript goneBehaviour).1.result =
      some (.error (.os .notConnected)) := rfl
  have accepts : ∀ k, goneBehaviour.Accepts k := fun k => ⟨1, rfl, by decide⟩
  refine ⟨⟨rfl, fun k _ => accepts k, fun k _ => accepts k⟩, copyOk, spliceFailed, ?_⟩
  rintro ⟨-, ⟨count, -, spliceOk⟩ | ⟨⟨error, copyFailed⟩, -⟩⟩
  · rw [spliceFailed] at spliceOk
    cases spliceOk
  · rw [copyOk] at copyFailed
    cases copyFailed

end Portrelay.Relay
