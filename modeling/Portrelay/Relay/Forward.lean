/-
# Relay.Forward -- forward_with_mode, as handle_connection sees it

What happens between the upstream connect and the byte counts: the mode's setup
(`acquire_pair`, or the pipes), which can take any time and can fail, and then the
transfer.  `counts_eq` is what its `Ok` says: the two counts are the numbers of bytes
delivered to the upstream and to the client.
-/
import Portrelay.Relay.HalfClose

namespace Portrelay.Relay

open Portrelay.Theory

set_option autoImplicit false

/-- What a direction starts from, given the buffer it would get from the pool. -/
def ForwardMode.setup : (mode : ForwardMode) → IssuedBuffer → mode.backend.Setup
  | .splice, _ => ()
  | .auto, buffer => buffer
  | .tokio, buffer => buffer

inductive ForwardStage (B : Backend)
  | preparing
  | refused (error : IoError)
  | forwarding (transfer : Transfer B)

/-- A call of `forward_with_mode`. -/
structure Forward where
  mode : ForwardMode
  idle : Option IdleTimeout
  stage : ForwardStage mode.backend

inductive ForwardEvent
  | prepared (client upstream : IssuedBuffer)
  | refused (error : IoError)
  | poll (p : Poll)

namespace Forward

def start (mode : ForwardMode) (idle : Option IdleTimeout) : Forward :=
  ⟨mode, idle, .preparing⟩

def step (f : Forward) : ForwardEvent → Option Forward
  | .prepared client upstream =>
      match f.stage with
      | .preparing =>
          let transfer := Transfer.start (f.mode.setup client) (f.mode.setup upstream)
          some { f with stage := .forwarding transfer }
      | _ => none
  | .refused error =>
      match f.stage with
      | .preparing => some { f with stage := .refused error }
      | _ => none
  | .poll p =>
      match f.stage with
      | .forwarding transfer =>
          (transfer.poll f.idle p).map fun transfer => { f with stage := .forwarding transfer }
      | _ => none

/-- What the call returned, once it has. -/
def result (f : Forward) : Option (Except IoError (Nat × Nat)) :=
  match f.stage with
  | .preparing => none
  | .refused error => some (.error error)
  | .forwarding transfer => transfer.outcome.map Outcome.result

/-- Bytes delivered to the upstream, and to the client. -/
def delivered (f : Forward) : Nat × Nat :=
  match f.stage with
  | .forwarding transfer =>
      ((f.mode.backend.delivered transfer.client).length,
        (f.mode.backend.delivered transfer.upstream).length)
  | _ => (0, 0)

def Valid (f : Forward) : Prop :=
  match f.stage with
  | .forwarding transfer =>
      f.mode.backend.Valid transfer.client ∧ f.mode.backend.Valid transfer.upstream ∧
        transfer.Agreed
  | _ => True

theorem start_valid (mode : ForwardMode) (idle : Option IdleTimeout) : (start mode idle).Valid :=
  trivial

theorem step_valid {f g : Forward} {event : ForwardEvent} (valid : f.Valid)
    (stepped : f.step event = some g) : g.Valid := by
  unfold Valid at valid
  cases event with
  | prepared client upstream =>
      simp only [step] at stepped
      split at stepped <;> [skip; cases stepped]
      obtain rfl := Option.some.inj stepped
      exact ⟨f.mode.backend.start_valid _, f.mode.backend.start_valid _,
        Transfer.start_agreed _ _⟩
  | refused error =>
      simp only [step] at stepped
      split at stepped <;> [skip; cases stepped]
      obtain rfl := Option.some.inj stepped
      trivial
  | poll p =>
      simp only [step] at stepped
      split at stepped <;> [skip; cases stepped]
      rename_i transfer stage
      rw [stage] at valid
      obtain ⟨client, upstream, agreed⟩ := valid
      obtain ⟨after, polled, rfl⟩ := Option.map_eq_some_iff.mp stepped
      obtain ⟨clientCalls, upstreamCalls, ran⟩ := Transfer.poll_ran polled
      exact ⟨Backend.run_valid client ran.client, Backend.run_valid upstream ran.upstream,
        Transfer.poll_agreed agreed polled⟩

/-- The counts of an `Ok` are the bytes delivered in the two directions. -/
theorem counts_eq {f : Forward} {counts : Nat × Nat} (valid : f.Valid)
    (returned : f.result = some (.ok counts)) : counts = f.delivered := by
  unfold Valid at valid
  unfold result at returned
  unfold delivered
  cases stage : f.stage with
  | preparing => rw [stage] at returned; cases returned
  | refused error => rw [stage] at returned; cases returned
  | forwarding transfer =>
      rw [stage] at valid returned
      obtain ⟨client, upstream, agreed⟩ := valid
      obtain ⟨clientOk, upstreamOk⟩ := (Transfer.finished_iff agreed).mp returned
      obtain ⟨-, clientAll, clientCount, -⟩ := f.mode.backend.complete client clientOk
      obtain ⟨-, upstreamAll, upstreamCount, -⟩ := f.mode.backend.complete upstream upstreamOk
      simp only [Backend.delivered]
      rw [clientAll, upstreamAll, ← clientCount, ← upstreamCount]

end Forward

end Portrelay.Relay
