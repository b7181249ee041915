/-
# Relay.Backend -- what the two forwarding loops have in common

`copy_direction` and `splice_direction` are raced, joined, timed and counted by the
same code.  A `Backend` is one direction's loop as that code sees it, together with
the laws every later module uses: it is faithful to its stream, `Ok(n)` means that
all of it arrived, a returned loop does nothing more, and what it says on the
activity channel about the bytes it moved.  `copyBackend` and `spliceBackend` are
the two loops of the source.
-/
import Portrelay.Theory.Machine
import Portrelay.Relay.CopyDirection
import Portrelay.Relay.SpliceDirection

namespace Portrelay.Relay

open Portrelay.Theory

set_option autoImplicit false

/-- The two directions of a relayed connection, named by the socket they read. -/
inductive Side
  | client
  | upstream
  deriving DecidableEq, Repr

/-- What one completed call moved, and what was said about it: nothing, bytes with
a message on the activity channel, or bytes without one (the loop is then inside a
chunk, unless it had said so before it failed). -/
inductive Moved {State : Type} (delivered : State → List UInt8) (activity : State → Nat)
    (partway : State → Bool) (failed : State → Prop) (s t : State) : Prop
  | nothing (same : delivered t = delivered s) (silent : activity t = activity s)
      (inside : partway s = true → partway t = true ∨ failed t)
  | signalled (grew : (delivered s).length < (delivered t).length)
      (said : activity t = activity s + 1)
  | unsignalled (grew : (delivered s).length < (delivered t).length)
      (silent : activity t = activity s) (inside : partway t = true)

/-- One direction's loop and the laws it obeys. -/
structure Backend where
  Setup : Type
  State : Type
  /-- the loop holds a buffer of the relay's pool and its permit -/
  pooled : Bool
  start : Setup → State
  step : State → Io → Option State
  result : State → Option (Except IoError Nat)
  source : State → Source
  destination : State → Destination
  /-- messages sent on the activity channel -/
  activity : State → Nat
  /-- part of a chunk has been accepted that nothing was said about -/
  partway : State → Bool
  /-- the outcomes of a write-side shutdown that end the loop with `Ok` -/
  closes : Except IoError Unit → Bool
  Valid : State → Prop
  start_valid : ∀ setup, Valid (start setup)
  start_running : ∀ setup, result (start setup) = none
  start_silent : ∀ setup, activity (start setup) = 0
  start_delivered : ∀ setup, (destination (start setup)).delivered = []
  step_valid : ∀ {s t io}, Valid s → step s io = some t → Valid t
  step_moved : ∀ {s t io}, Valid s → step s io = some t →
    Moved (fun s => (destination s).delivered) activity partway
      (fun s => ∃ error, result s = some (.error error)) s t
  returned : ∀ {s io}, result s ≠ none → step s io = none
  returned_ok : ∀ {s t io}, step s io = some t → ((∃ count, result t = some (.ok count)) ↔
    ∃ outcome, io = .shutdown outcome ∧ closes outcome = true)
  faithful : ∀ {s}, Valid s → Faithful (source s) (destination s)
  complete : ∀ {s count}, Valid s → result s = some (.ok count) →
    (source s).eof = true ∧ (destination s).delivered = (source s).produced ∧
      count = (source s).produced.length ∧ (destination s).shutdowns = [count]

namespace Backend

variable (B : Backend)

/-- The bytes the direction has delivered to its destination. -/
def delivered (s : B.State) : List UInt8 := (B.destination s).delivered

/-- The loop runs on the calls that complete, one after the other. -/
def machine : Machine B.State Io := ⟨fun s => ∃ setup, s = B.start setup, B.step⟩

def run (s : B.State) (calls : List Io) : Option B.State := B.machine.exec s calls

/-- The error the direction has returned, if it has. -/
def failure? (s : B.State) : Option IoError :=
  match B.result s with
  | some (.error error) => some error
  | _ => none

variable {B}

theorem failure?_eq_some {s : B.State} {error : IoError} :
    B.failure? s = some error ↔ B.result s = some (.error error) := by
  unfold failure?
  split
  · rename_i found
    simp [found]
  · rename_i other
    simp only [reduceCtorEq, false_iff]
    exact other error

theorem run_cons {s t : B.State} {io : Io} {calls : List Io}
    (ran : B.run s (io :: calls) = some t) : ∃ m, B.step s io = some m ∧ B.run m calls = some t :=
  (B.machine.exec_cons_eq_some).mp ran

theorem run_append (s : B.State) (front back : List Io) :
    B.run s (front ++ back) = (B.run s front).bind fun t => B.run t back :=
  B.machine.exec_append s front back

theorem run_valid {s t : B.State} {calls : List Io} (valid : B.Valid s)
    (ran : B.run s calls = some t) : B.Valid t := by
  induction calls generalizing s with
  | nil =>
      obtain rfl := Option.some.inj ran
      exact valid
  | cons io calls ih =>
      obtain ⟨m, stepped, later⟩ := run_cons ran
      exact ih (B.step_valid valid stepped) later

/-- A loop that has returned is not called again. -/
theorem run_returned {s t : B.State} {calls : List Io} (done : B.result s ≠ none)
    (ran : B.run s calls = some t) : calls = [] ∧ t = s := by
  cases calls with
  | nil => exact ⟨rfl, (Option.some.inj ran).symm⟩
  | cons io calls =>
      obtain ⟨m, stepped, -⟩ := run_cons ran
      rw [B.returned done] at stepped
      cases stepped

/-- The calls contain a successful shutdown of the write side. -/
def ShutDown (B : Backend) (calls : List Io) : Prop :=
  ∃ outcome, Io.shutdown outcome ∈ calls ∧ B.closes outcome = true

/-- A loop returns `Ok` exactly when it has shut its destination down successfully. -/
theorem run_ok_iff {s t : B.State} {calls : List Io} (running : B.result s = none)
    (ran : B.run s calls = some t) :
    (∃ count, B.result t = some (.ok count)) ↔ B.ShutDown calls := by
  induction calls generalizing s with
  | nil =>
      obtain rfl := Option.some.inj ran
      simp [running, ShutDown]
  | cons io calls ih =>
      obtain ⟨m, stepped, later⟩ := run_cons ran
      have here := B.returned_ok stepped
      have split : B.ShutDown (io :: calls) ↔
          (∃ outcome, io = .shutdown outcome ∧ B.closes outcome = true) ∨ B.ShutDown calls := by
        simp only [ShutDown, List.mem_cons, or_and_right, exists_or, eq_comm]
      rw [split, ← here]
      cases done : B.result m with
      | none => simpa [done] using ih done later
      | some result =>
          obtain ⟨rfl, rfl⟩ := run_returned (by simp [done]) later
          simp [done, ShutDown]

/-- What a whole poll of a direction moved and said: bytes it moved were announced
unless it ends inside a chunk, announcements go with bytes, and a chunk it was
inside stays open until it is announced. -/
structure Polled (s t : B.State) : Prop where
  activity_le : B.activity s ≤ B.activity t
  delivered_le : (B.delivered s).length ≤ (B.delivered t).length
  announced : (B.delivered s).length < (B.delivered t).length →
    B.activity s < B.activity t ∨ B.partway t = true ∨ ∃ error, B.result t = some (.error error)
  moved : B.activity s < B.activity t → (B.delivered s).length < (B.delivered t).length
  inside : B.partway s = true →
    B.activity s < B.activity t ∨ B.partway t = true ∨ ∃ error, B.result t = some (.error error)

theorem run_polled {s t : B.State} {calls : List Io} (valid : B.Valid s)
    (ran : B.run s calls = some t) : Polled s t := by
  induction calls generalizing s with
  | nil =>
      obtain rfl := Option.some.inj ran
      exact ⟨Nat.le_refl _, Nat.le_refl _, fun grew => absurd grew (Nat.lt_irrefl _),
        fun said => absurd said (Nat.lt_irrefl _), fun inside => Or.inr (Or.inl inside)⟩
  | cons io calls ih =>
      obtain ⟨m, stepped, later⟩ := run_cons ran
      have rest := ih (B.step_valid valid stepped) later
      obtain ⟨activityLe, deliveredLe, announced, moved, inside⟩ := rest
      have ended : (∃ error, B.result m = some (.error error)) → t = m := by
        rintro ⟨error, failed⟩
        exact (run_returned (by simp [failed]) later).2
      cases B.step_moved valid stepped with
      | nothing same silent kept =>
          have length : (B.delivered m).length = (B.delivered s).length :=
            congrArg List.length same
          refine ⟨by omega, by omega, fun grew => ?_, fun said => ?_, fun open_ => ?_⟩
          · rcases announced (by omega) with said | later
            · exact Or.inl (by omega)
            · exact Or.inr later
          · have := moved (by omega)
            omega
          · rcases kept open_ with open' | failed
            · rcases inside open' with said | later
              · exact Or.inl (by omega)
              · exact Or.inr later
            · exact Or.inr (Or.inr (ended failed ▸ failed))
      | signalled grew said =>
          have longer : (B.delivered s).length < (B.delivered m).length := grew
          exact ⟨by omega, by omega, fun _ => Or.inl (by omega), fun _ => by omega,
            fun _ => Or.inl (by omega)⟩
      | unsignalled grew silent open_ =>
          have longer : (B.delivered s).length < (B.delivered m).length := grew
          have announce : B.activity s < B.activity t ∨ B.partway t = true ∨
              ∃ error, B.result t = some (.error error) := by
            rcases inside open_ with said | later
            · exact Or.inl (by omega)
            · exact Or.inr later
          exact ⟨by omega, by omega, fun _ => announce, fun _ => by omega, fun _ => announce⟩

end Backend

namespace CopyDirection

/-- Part of the current chunk has been accepted. -/
def partway (d : CopyDirection) : Bool :=
  match d.phase with
  | .writing _ written => decide (0 < written)
  | _ => false

theorem step_moved {d e : CopyDirection} {io : Io} (valid : d.Valid)
    (stepped : d.step io = some e) :
    Moved (fun d => d.destination.delivered) activity partway
      (fun d => ∃ error, d.result = some (.error error)) d e := by
  have held := valid.2
  cases step_stepped stepped with
  | ended phase read => exact .nothing rfl rfl (by simp [partway, phase])
  | chunk phase nonempty read => exact .nothing rfl rfl (by simp [partway, phase])
  | readFailed phase => exact .nothing rfl rfl (by simp [partway, phase])
  | wroteZero phase => exact .nothing rfl rfl fun _ => Or.inr ⟨_, rfl⟩
  | @wroteRest read written count phase pos whole =>
      simp only [phase] at held
      have left := d.unwritten_length written held.2.1
      exact .signalled (by simp [left]; omega) rfl
  | @wrotePart read written count phase pos part =>
      simp only [phase] at held
      have left := d.unwritten_length written held.2.1
      exact .unsignalled (by simp [left]; omega) rfl (by simp [partway]; omega)
  | writeFailed phase => exact .nothing rfl rfl fun _ => Or.inr ⟨_, rfl⟩
  | shut phase closed => exact .nothing rfl rfl (by simp [partway, phase])
  | shutFailed phase failed => exact .nothing rfl rfl (by simp [partway, phase])

theorem step_returned {d : CopyDirection} {io : Io} (done : d.result ≠ none) :
    d.step io = none := by
  unfold result at done
  split at done
  · rename_i phase
    cases io <;> simp [step, phase]
  · exact absurd rfl done

/-- `poll_shutdown` turned the outcome into `Ok`. -/
def closes (outcome : Except IoError Unit) : Bool := (pollShutdown outcome).isOk

theorem step_returned_ok {d e : CopyDirection} {io : Io} (stepped : d.step io = some e) :
    (∃ count, e.result = some (.ok count)) ↔
      ∃ outcome, io = .shutdown outcome ∧ closes outcome = true := by
  cases step_stepped stepped with
  | shut phase closed => simp [result, closes, closed, Except.isOk, Except.toBool]
  | shutFailed phase failed => simp [result, closes, failed, Except.isOk, Except.toBool]
  | _ => simp [result]

end CopyDirection

namespace SpliceDirection

theorem step_moved {d e : SpliceDirection} {io : Io} (stepped : d.step io = some e) :
    Moved (fun d => d.destination.delivered) activity (fun _ => false)
      (fun d => ∃ error, d.result = some (.error error)) d e := by
  cases step_stepped stepped with
  | drained phase pos asked enough => exact .signalled (by simp; omega) rfl
  | _ => exact .nothing rfl rfl (by simp)

theorem step_returned {d : SpliceDirection} {io : Io} (done : d.result ≠ none) :
    d.step io = none := by
  unfold result at done
  split at done
  · rename_i phase
    cases io <;> simp [step, phase]
  · exact absurd rfl done

/-- `nix::shutdown` succeeded. -/
def closes (outcome : Except IoError Unit) : Bool := outcome.isOk

theorem step_returned_ok {d e : SpliceDirection} {io : Io} (stepped : d.step io = some e) :
    (∃ count, e.result = some (.ok count)) ↔
      ∃ outcome, io = .shutdown outcome ∧ closes outcome = true := by
  cases step_stepped stepped with
  | @drained pending count phase pos asked enough =>
      by_cases rest : pending - count = 0 <;> simp [result, rest]
  | _ => simp [result, closes, Except.isOk, Except.toBool]

end SpliceDirection

/-- A buffer that came out of the pool: never empty. -/
abbrev IssuedBuffer := { buffer : List UInt8 // 0 < buffer.length }

def copyBackend : Backend where
  Setup := IssuedBuffer
  State := CopyDirection
  pooled := true
  start buffer := .start buffer.val
  step := CopyDirection.step
  result := CopyDirection.result
  source := CopyDirection.source
  destination := CopyDirection.destination
  activity := CopyDirection.activity
  partway := CopyDirection.partway
  closes := CopyDirection.closes
  Valid := CopyDirection.Valid
  start_valid buffer := CopyDirection.start_valid buffer.property
  start_running _ := rfl
  start_silent _ := rfl
  start_delivered _ := rfl
  step_valid := CopyDirection.step_valid
  step_moved := CopyDirection.step_moved
  returned := CopyDirection.step_returned
  returned_ok := CopyDirection.step_returned_ok
  faithful := CopyDirection.Valid.faithful
  complete := CopyDirection.valid_ok

def spliceBackend : Backend where
  Setup := Unit
  State := SpliceDirection
  pooled := false
  start _ := .start
  step := SpliceDirection.step
  result := SpliceDirection.result
  source := SpliceDirection.source
  destination := SpliceDirection.destination
  activity := SpliceDirection.activity
  partway _ := false
  closes := SpliceDirection.closes
  Valid := SpliceDirection.Valid
  start_valid _ := SpliceDirection.start_valid
  start_running _ := rfl
  start_silent _ := rfl
  start_delivered _ := rfl
  step_valid := SpliceDirection.step_valid
  step_moved _ := SpliceDirection.step_moved
  returned := SpliceDirection.step_returned
  returned_ok := SpliceDirection.step_returned_ok
  faithful := SpliceDirection.Valid.faithful
  complete := SpliceDirection.valid_ok

/-- `ForwardMode` of `src/config.rs`. -/
inductive ForwardMode
  | auto
  | tokio
  | splice
  deriving DecidableEq, Repr

/-- `forward_with_mode` on Linux: only an explicit `splice` uses the pipes. -/
def ForwardMode.backend : ForwardMode → Backend
  | .splice => spliceBackend
  | .auto => copyBackend
  | .tokio => copyBackend

end Portrelay.Relay
