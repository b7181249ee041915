/-
# Server.Process -- run_until_signal, from the start of the server to its return

`run_until_signal` polls `Server::run` and `wait_for_shutdown_signal` in one `select!`.  A
signal cancels the shutdown token and leaves the server to return; an error of the signal
handler drops the server in the middle of its work.  Nobody else has the token, so the
server is told to stop by a signal only.

The process has exited here when `run_until_signal` has returned, with `Ok` or an error.
What `main` and the runtime do after that is not part of it: the runtime's drop may wait for
a lookup that a thread is still in.

* `Inv` -- what the process knows of the server in each phase.
* `process_exits` -- it returns with success in time after a signal, never without one, and
  serves until then.
-/
import Portrelay.Server.Work

namespace Portrelay.Server

open Portrelay.Theory Portrelay.Relay Portrelay.Metrics

set_option autoImplicit false

/-- Where `run_until_signal` is. -/
inductive ProcessPhase
  /-- in the `select!` over the server and the signal -/
  | selecting
  /-- in `server_task.await`, after the signal -/
  | draining
  /-- `run_until_signal` has returned -/
  | exited (ok : Bool)
  deriving DecidableEq

def ProcessPhase.ended : ProcessPhase → Bool
  | .exited _ => true
  | _ => false

structure Process where
  server : Stamped
  phase : ProcessPhase

inductive ProcessLabel
  /-- a step of `Server::run` and its tasks -/
  | server (label : RunLabel)
  /-- `SIGTERM` or ctrl-c -/
  | signal
  /-- no handler could be installed, or it failed -/
  | signalFailed
  /-- the server has returned -/
  | served

/-- The token is not cancelled by the server itself. -/
def RunLabel.cancels : RunLabel → Bool
  | .cancel => true
  | _ => false

def RunPhase.ended : RunPhase → Bool
  | .returned _ => true
  | _ => false

namespace Process

variable (settings : Settings) (tls : Bool) (T : Timeouts)

def step (now : Nat) (p : Process) : ProcessLabel → Option Process
  | .server label =>
      if label.cancels = false ∧ p.phase.ended = false then
        (p.server.step settings tls T now label).map fun server => { p with server }
      else none
  | .signal =>
      if p.phase = .selecting then
        (p.server.step settings tls T now .cancel).map fun server => ⟨server, .draining⟩
      else none
  | .signalFailed =>
      if p.phase = .selecting then some { p with phase := .exited false } else none
  | .served =>
      if p.phase.ended = false ∧ p.server.run.phase.ended = true then
        some { p with phase := .exited true }
      else none

/-- A signal may come at any time or never; the rest of the process does not wait. -/
def urgent (now : Nat) (p : Process) : Bool :=
  !p.phase.ended && (p.server.urgent tls T now || p.server.run.phase.ended)

def clocked : Clocked Process ProcessLabel :=
  ⟨fun _ p => p.server.run.Initial settings ∧ p.phase = .selecting, step settings tls T,
    urgent tls T⟩

/-- The process, and time passing. -/
def running : Machine (Timed Process) (TimedLabel ProcessLabel) := (clocked settings tls T).timed

variable {settings tls T}

/-- What a step can do. -/
inductive Stepped (settings : Settings) (tls : Bool) (T : Timeouts) (now : Nat) (p : Process) :
    ProcessLabel → Process → Prop
  | server {label : RunLabel} {server : Stamped} (own : label.cancels = false)
      (on : p.phase.ended = false) (moved : p.server.step settings tls T now label = some server) :
      Stepped settings tls T now p (.server label) { p with server }
  | told {server : Stamped} (selecting : p.phase = .selecting)
      (moved : p.server.step settings tls T now .cancel = some server) :
      Stepped settings tls T now p .signal ⟨server, .draining⟩
  | failed (selecting : p.phase = .selecting) :
      Stepped settings tls T now p .signalFailed { p with phase := .exited false }
  | served (on : p.phase.ended = false) (returned : p.server.run.phase.ended = true) :
      Stepped settings tls T now p .served { p with phase := .exited true }

theorem step_stepped {now : Nat} {p q : Process} {label : ProcessLabel}
    (stepped : step settings tls T now p label = some q) : Stepped settings tls T now p label q := by
  cases label with
  | server label =>
      obtain ⟨⟨own, on⟩, stepped⟩ := Option.ite_none_right_eq_some.mp stepped
      obtain ⟨server, moved, rfl⟩ := Option.map_eq_some_iff.mp stepped
      exact .server own on moved
  | signal =>
      obtain ⟨selecting, stepped⟩ := Option.ite_none_right_eq_some.mp stepped
      obtain ⟨server, moved, rfl⟩ := Option.map_eq_some_iff.mp stepped
      exact .told selecting moved
  | signalFailed =>
      obtain ⟨selecting, same⟩ := Option.ite_none_right_eq_some.mp stepped
      obtain rfl := Option.some.inj same
      exact .failed selecting
  | served =>
      obtain ⟨⟨on, returned⟩, same⟩ := Option.ite_none_right_eq_some.mp stepped
      obtain rfl := Option.some.inj same
      exact .served on returned

/-! ## What the process knows of the server -/

structure Inv (settings : Settings) (tls : Bool) (T : Timeouts) (now : Nat) (p : Process) : Prop where
  /-- until the process exits, what it runs is a server -/
  server : p.phase.ended = false → (Stamped.running settings tls T).Reachable ⟨now, p.server⟩
  untold : p.phase = .selecting → p.server.run.server.shutdown = false
  told : p.phase = .draining → p.server.run.server.shutdown = true ∧
    now ≤ p.server.told + T.shutdown + FORCED_WAIT
  exited : p.phase = .exited true → p.server.run.server.shutdown = true

theorem acted {now : Nat} {s t : Stamped} {label : RunLabel}
    (reached : (Stamped.running settings tls T).Reachable ⟨now, s⟩)
    (moved : s.step settings tls T now label = some t) :
    (Stamped.running settings tls T).Reachable ⟨now, t⟩ := by
  refine .step (a := .act label) reached ?_
  show (s.step settings tls T now label).map _ = _
  rw [moved]
  rfl

/-- The server's own steps leave the token as it is. -/
theorem own_step {now : Nat} {s t : Stamped} {label : RunLabel} (own : label.cancels = false)
    (moved : s.step settings tls T now label = some t) :
    t.run.server.shutdown = s.run.server.shutdown ∧ t.told = s.told := by
  obtain ⟨-, run, ran, rfl⟩ := Stamped.step_some moved
  have other : label ≠ .cancel := by
    rintro rfl
    cases own
  rw [Stamped.stamp_run]
  exact ⟨RunState.step_told ran other, Stamped.stamp_told other⟩

/-- The signal cancels the token, now. -/
theorem told_step {now : Nat} {s t : Stamped} (untold : s.run.server.shutdown = false)
    (moved : s.step settings tls T now .cancel = some t) :
    t.run.server.shutdown = true ∧ t.told = now := by
  obtain ⟨-, run, ran, rfl⟩ := Stamped.step_some moved
  rw [Stamped.stamp_run]
  simp only [RunState.step] at ran
  obtain ⟨server, cancelled, rfl⟩ := Option.map_eq_some_iff.mp ran
  obtain rfl := Option.some.inj cancelled
  refine ⟨rfl, ?_⟩
  show (if s.run.server.shutdown = true then s.told else now) = now
  rw [untold]
  rfl

/-- A server that has returned was told to. -/
theorem told_of_returned {now : Nat} {s : Stamped}
    (reached : (Stamped.running settings tls T).Reachable ⟨now, s⟩) (ended : s.run.phase.ended = true) :
    s.run.server.shutdown = true := by
  refine (Stamped.reachable_inv (Stamped.reachable_run reached)).told ?_
  intro serving
  rw [serving] at ended
  cases ended

theorem step_inv {now : Nat} {p q : Process} {label : ProcessLabel} (inv : p.Inv settings tls T now)
    (stepped : step settings tls T now p label = some q) : q.Inv settings tls T now := by
  cases step_stepped stepped with
  | server own on moved =>
      obtain ⟨shutdown, told⟩ := own_step own moved
      refine ⟨fun _ => acted (inv.server on) moved, ?_, ?_, ?_⟩
      · intro selecting
        rw [shutdown]
        exact inv.untold selecting
      · intro draining
        rw [shutdown, told]
        exact inv.told draining
      · intro exited
        rw [shutdown]
        exact inv.exited exited
  | told selecting moved =>
      have on : p.phase.ended = false := by rw [selecting]; rfl
      obtain ⟨shutdown, told⟩ := told_step (inv.untold selecting) moved
      refine ⟨fun _ => acted (inv.server on) moved, nofun, ?_, nofun⟩
      intro _
      rw [shutdown, told]
      exact ⟨rfl, by omega⟩
  | failed selecting => exact ⟨nofun, nofun, nofun, nofun⟩
  | served on returned =>
      exact ⟨nofun, nofun, nofun, fun _ => told_of_returned (inv.server on) returned⟩

theorem pass_inv {now : Nat} {p : Process} (inv : p.Inv settings tls T now)
    (idle : p.urgent tls T now = false) : p.Inv settings tls T (now + 1) := by
  have later : p.phase.ended = false → p.server.urgent tls T now = false ∧
      p.server.run.phase.ended = false ∧
      (Stamped.running settings tls T).Reachable ⟨now + 1, p.server⟩ := by
    intro on
    simp only [urgent, on, Bool.not_false, Bool.true_and, Bool.or_eq_false_iff] at idle
    refine ⟨idle.1, idle.2, .step (a := .tick) (inv.server on) ?_⟩
    show (if p.server.urgent tls T now = true then none else _) = _
    rw [idle.1]
    rfl
  refine ⟨fun on => (later on).2.2, inv.untold, ?_, inv.exited⟩
  intro draining
  have on : p.phase.ended = false := by rw [draining]; rfl
  obtain ⟨-, running, reached⟩ := later on
  have told := (inv.told draining).1
  refine ⟨told, ?_⟩
  -- the server has not returned, so it is not late yet
  by_contra late
  obtain ⟨timedOut, returned⟩ := Stamped.returned_of_late reached told (Nat.not_le.mp late)
  have here : p.server.run.phase = .returned timedOut := returned
  rw [here] at running
  cases running

theorem reachable_inv {s : Timed Process} (reached : (running settings tls T).Reachable s) :
    s.state.Inv settings tls T s.now := by
  refine Clocked.within (C := clocked settings tls T) (P := fun now p => p.Inv settings tls T now)
    ?_ ?_ ?_ reached
  · rintro now p ⟨initial, selecting⟩
    refine ⟨fun _ => .start initial, ?_, ?_, ?_⟩
    · intro _
      rw [initial.server]
      rfl
    · rw [selecting]
      nofun
    · rw [selecting]
      nofun
  · intro now p label q inv stepped
    exact step_inv inv stepped
  · intro now p inv idle
    exact pass_inv inv idle

/-! ## Runs -/

/-- After the signal the process waits for the server, or has exited with success. -/
theorem draining_kept {m s : Timed Process} {labels : List (TimedLabel ProcessLabel)}
    (draining : m.state.phase = .draining)
    (ran : (running settings tls T).exec m labels = some s) :
    s.state.phase = .draining ∧ s.state.server.told = m.state.server.told ∨
      s.state.phase = .exited true := by
  have along := (running settings tls T).along_of_kept
    (P := fun s => s.state.phase = .draining ∧ s.state.server.told = m.state.server.told ∨
      s.state.phase = .exited true)
    (by
      intro s label t phase stepped
      cases Clocked.timedStep_stepped stepped with
      | tick idle => exact phase
      | act acted =>
          cases step_stepped acted with
          | server own on moved =>
              rcases phase with ⟨draining, told⟩ | exited
              · exact Or.inl ⟨draining, (own_step own moved).2.trans told⟩
              · rw [exited] at on
                cases on
          | told selecting moved =>
              rcases phase with ⟨draining, -⟩ | exited
              · cases selecting.symm.trans draining
              · cases selecting.symm.trans exited
          | failed selecting =>
              rcases phase with ⟨draining, -⟩ | exited
              · cases selecting.symm.trans draining
              · cases selecting.symm.trans exited
          | served on returned => exact Or.inr rfl)
    (Or.inl ⟨draining, rfl⟩) labels
  exact along.last ran

/-- Only a signal leads from the `select!` to an exit with success. -/
theorem signal_of_exited {m s : Timed Process} {labels : List (TimedLabel ProcessLabel)}
    (reached : (running settings tls T).Reachable m)
    (waiting : m.state.phase = .selecting ∨ m.state.phase = .exited false)
    (ran : (running settings tls T).exec m labels = some s)
    (exited : s.state.phase = .exited true) : .act .signal ∈ labels := by
  induction labels generalizing m with
  | nil =>
      obtain rfl := Option.some.inj ran
      rw [exited] at waiting
      rcases waiting with phase | phase <;> cases phase
  | cons label rest ih =>
      obtain ⟨n, stepped, ran⟩ := ((running settings tls T).exec_cons_eq_some).mp ran
      have later := fun waiting => List.mem_cons_of_mem label (ih (.step reached stepped) waiting ran)
      cases Clocked.timedStep_stepped stepped with
      | tick idle => exact later waiting
      | act moved =>
          cases step_stepped moved with
          | server own on moved => exact later waiting
          | told selecting moved => exact List.mem_cons_self
          | failed selecting => exact later (Or.inr rfl)
          | served on returned =>
              -- a server that nobody told to has not returned
              have inv := reachable_inv reached
              have told := told_of_returned (inv.server on) returned
              rcases waiting with selecting | failed
              · rw [inv.untold selecting] at told
                cases told
              · rw [failed] at on
                cases on

def work (p : Process) : Nat := p.server.run.work + if p.phase.ended then 0 else 1

theorem cancel_work {s t : RunState} (moved : s.step settings tls .cancel = some t) :
    t.work = s.work := by
  simp only [RunState.step] at moved
  obtain ⟨server, cancelled, rfl⟩ := Option.map_eq_some_iff.mp moved
  obtain rfl := Option.some.inj cancelled
  rfl

theorem due_step {now : Nat} {p : Process} (inv : p.Inv settings tls T now)
    (due : p.urgent tls T now = true) :
    ∃ label q, step settings tls T now p label = some q ∧ q.work < p.work := by
  simp only [urgent, Bool.and_eq_true, Bool.not_eq_true', Bool.or_eq_true] at due
  obtain ⟨on, due⟩ := due
  have reached := inv.server on
  cases returned : p.server.run.phase.ended with
  | true =>
      refine ⟨.served, { p with phase := .exited true }, if_pos ⟨on, returned⟩, ?_⟩
      show p.server.run.work + 0 < p.server.run.work + if p.phase.ended then 0 else 1
      rw [on]
      exact Nat.lt_succ_self _
  | false =>
      rw [returned] at due
      obtain ⟨label, run, allowed, moved, less⟩ := Stamped.due_step
        (Stamped.reachable_run reached) (Stamped.reachable_server reached)
        (due.resolve_right Bool.false_ne_true)
      have own : label.cancels = false := by
        cases label with
        | cancel => exact absurd (cancel_work moved) (Nat.ne_of_lt less)
        | _ => rfl
      have stepped : p.server.step settings tls T now label = some (p.server.stamp now run label) := by
        simp only [Stamped.step, if_pos allowed, moved, Option.map_some]
      refine ⟨.server label, { p with server := p.server.stamp now run label }, ?_, ?_⟩
      · simp only [step, own, on, and_self, if_true, stepped, Option.map_some]
      · simp only [work, Stamped.stamp_run]
        exact Nat.add_lt_add_right less _

/-- The process serves until a signal comes or its handler fails; then it exits with success
once the shutdown timeout and a second have passed, and never without a signal; and no run is
stuck at an instant. -/
theorem process_exits {m s : Timed Process} {labels : List (TimedLabel ProcessLabel)}
    (reached : (running settings tls T).Reachable m)
    (ran : (running settings tls T).exec m labels = some s) :
    (m.state.phase = .selecting →
      m.state.server.run.phase = .serving ∧ m.state.server.run.server.shutdown = false ∧
        m.state.server.run.server.force = false) ∧
    (m.state.phase = .draining → m.now + T.shutdown + FORCED_WAIT < s.now →
      s.state.phase = .exited true) ∧
    (m.state.phase = .selecting → s.state.phase = .exited true → .act .signal ∈ labels) ∧
    ∀ n, ∃ more t, (running settings tls T).exec s more = some t ∧ t.now = s.now + n := by
  have inv := reachable_inv reached
  refine ⟨?_, ?_, ?_, ?_⟩
  · intro selecting
    have untold := inv.untold selecting
    have server := Stamped.reachable_inv (Stamped.reachable_run (inv.server (by rw [selecting]; rfl)))
    have serving : m.state.server.run.phase = .serving := by
      by_contra running
      rw [server.told running] at untold
      cases untold
    refine ⟨serving, untold, ?_⟩
    rw [server.forced, serving]
    rfl
  · intro draining late
    have began : m.state.server.told ≤ m.now :=
      Stamped.told_le (inv.server (by rw [draining]; rfl)) (inv.told draining).1
    rcases draining_kept draining ran with ⟨still, same⟩ | exited
    · have bound := ((reachable_inv (reached.exec ran)).told still).2
      rw [same] at bound
      omega
    · exact exited
  · intro selecting exited
    exact signal_of_exited reached (Or.inl selecting) ran exited
  · refine Clocked.time_goes_on (P := fun now p => p.Inv settings tls T now) (fun now p => p.work)
      (fun s reached => reachable_inv reached) ?_ (reached.exec ran)
    intro now p inv due
    obtain ⟨label, q, stepped, less⟩ := due_step inv due
    exact ⟨label, q, stepped, step_inv inv stepped, less⟩

def inside : TimedLabel RunLabel → TimedLabel ProcessLabel
  | .tick => .tick
  | .act label => .act (.server label)

/-- The process of a server of two relays. -/
def twoRunning : Machine (Timed Process) (TimedLabel ProcessLabel) :=
  running ServerState.twoRelays false ⟨fun _ => 5, 10⟩

def twoServing : Process := ⟨Stamped.twoServing, .selecting⟩

def connectedClient : List (TimedLabel ProcessLabel) := Stamped.connectedClient.map inside

def outlasted : List (TimedLabel ProcessLabel) := Stamped.outlasted.map inside

/-- `SIGTERM` comes while a client is connected, who outlasts the shutdown timeout. -/
theorem process_exits_outlasted :
    ∃ m c s, twoRunning.exec ⟨7, twoServing⟩ connectedClient = some m ∧
      twoRunning.exec m [.act .signal] = some c ∧ twoRunning.exec c outlasted = some s ∧
      m.state.server.run.phase = .serving ∧ s.state.phase = .draining ∧
      s.state.server.run.trackerEmpty = false ∧ s.state.server.run.phase = .forcing ∧
      ∃ more t, twoRunning.exec s more = some t ∧ c.now + 10 + FORCED_WAIT < t.now ∧
        t.state.phase = .exited true := by
  have connects : (twoRunning.exec ⟨7, twoServing⟩ connectedClient).any
      (fun m => decide (m.state.phase = .selecting)) = true := by decide +kernel
  have signals : (twoRunning.exec ⟨7, twoServing⟩ (connectedClient ++ [.act .signal])).any
      (fun c => decide (c.now = 8 ∧ c.state.phase = .draining)) = true := by decide +kernel
  have waits : (twoRunning.exec ⟨7, twoServing⟩
      (connectedClient ++ ([.act .signal] ++ outlasted))).any
      (fun s => decide (s.now = 18 ∧ s.state.phase = .draining ∧
        s.state.server.run.trackerEmpty = false ∧ s.state.server.run.phase = .forcing)) = true := by
    decide +kernel
  simp only [Option.any_eq_true, decide_eq_true_eq] at connects signals waits
  obtain ⟨m, connects, selecting⟩ := connects
  obtain ⟨c, signals, started, told⟩ := signals
  obtain ⟨s, waits, waited, draining, open_, forcing⟩ := waits
  rw [Machine.exec_append, connects, Option.bind_some] at signals waits
  rw [Machine.exec_append, signals, Option.bind_some] at waits
  have reached : twoRunning.Reachable m := .exec (.start ⟨⟨rfl, rfl, rfl, rfl⟩, rfl⟩) connects
  obtain ⟨-, -, -, goes⟩ := process_exits (reached.exec signals) waits
  obtain ⟨more, t, later, there⟩ := goes (1 + FORCED_WAIT)
  have whole : twoRunning.exec c (outlasted ++ more) = some t := by
    rw [Machine.exec_append, waits]
    exact later
  have passed : c.now + 10 + FORCED_WAIT < t.now := by omega
  obtain ⟨serves, -⟩ := process_exits reached signals
  obtain ⟨-, inTime, -⟩ := process_exits (reached.exec signals) whole
  exact ⟨m, c, s, connects, signals, waits, (serves selecting).1, draining, open_, forcing, more, t,
    later, passed, inTime told passed⟩

end Process

end Portrelay.Server
