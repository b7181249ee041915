/-
# Relay.IdleCoverage -- the connections of a relay, their pool and their timers

Any number of connections of one relay on one clock.  A pooled connection whose
upstream connect returns asks the pool for two permits; with fewer free, or with
others queued before it, it waits in `acquire_pair`, and the watchdog does not exist
yet.  `forward_with_splice` awaits nothing before its `select!`.

An established connection is covered when its timer is ahead and not later than the
idle timeout after its connect or its last accepted byte.  `covered_iff` says when
all of them are: exactly in the runs in which no connect meets an exhausted pool.
The pool is the relay's own.
-/
import Portrelay.Relay.Timed
import Portrelay.Theory.Tally

namespace Portrelay.Relay

open Portrelay.Theory

set_option autoImplicit false

/-- A connection between `accept` and the end of `handle_connection`. -/
inductive Conn (B : Backend)
  | connecting
  | waiting (connectedAt : Nat)
  | established (connectedAt : Nat) (logged : Logged B)
  | ended

namespace Conn

variable {B : Backend}

/-- The connection after a poll of its transfer. -/
def settle (connectedAt : Nat) (logged : Logged B) : Conn B :=
  if logged.transfer.outcome.isSome then .ended else .established connectedAt logged

/-- A copy loop holds its buffer and the buffer's permit until it returns. -/
def running (s : B.State) : Nat := if (B.result s).isSome then 0 else 1

/-- Permits of the pool the connection holds. -/
def held : Conn B → Nat
  | .established _ logged =>
      if B.pooled then running logged.transfer.client + running logged.transfer.upstream else 0
  | _ => 0

/-- Time may pass as far as this connection is concerned. -/
def mayWait (now : Nat) : Conn B → Bool
  | .established _ logged => logged.mayWait now
  | _ => true

/-- The later of the connect and the last accepted byte. -/
def lastHeard (connectedAt : Nat) (logged : Logged B) : Nat :=
  logged.accepted.foldr max connectedAt

/-- The connection, if its upstream is connected and it has not ended, has an armed
timer, not later than the idle timeout after the last it was heard of. -/
def Covered (d : IdleTimeout) (now : Nat) : Conn B → Prop
  | .connecting => True
  | .waiting _ => False
  | .established connectedAt logged => ∃ w, logged.transfer.watchdog = some w ∧
      now ≤ w.deadline ∧ w.deadline ≤ lastHeard connectedAt logged + d.nanos
  | .ended => True

/-- What holds of a connection between two steps. -/
def Inv (d : IdleTimeout) (now : Nat) : Conn B → Prop
  | .established _ logged => logged.Inv d now ∧ logged.transfer.outcome = none
  | _ => True

theorem lastHeard_le_iff {connectedAt bound : Nat} {logged : Logged B} :
    lastHeard connectedAt logged ≤ bound ↔
      connectedAt ≤ bound ∧ ∀ a ∈ logged.accepted, a ≤ bound := by
  unfold lastHeard
  induction logged.accepted with
  | nil => simp
  | cons a log ih =>
      rw [List.foldr_cons, Nat.max_le, ih, List.forall_mem_cons]
      exact and_left_comm

theorem connectedAt_le (connectedAt : Nat) (logged : Logged B) :
    connectedAt ≤ lastHeard connectedAt logged :=
  (lastHeard_le_iff.mp (Nat.le_refl _)).1

theorem le_lastHeard (connectedAt : Nat) {logged : Logged B} {a : Nat}
    (member : a ∈ logged.accepted) : a ≤ lastHeard connectedAt logged :=
  (lastHeard_le_iff.mp (Nat.le_refl _)).2 a member

theorem lastHeard_moved (connectedAt now : Nat) (logged : Logged B) (t : Transfer B) :
    lastHeard connectedAt logged ≤ lastHeard connectedAt (logged.moved now t) := by
  refine lastHeard_le_iff.mpr ⟨connectedAt_le _ _, fun a member => le_lastHeard _ ?_⟩
  rcases List.mem_append.mp member with old | old
  · exact List.mem_append_left _ (Logged.mem_note_of_mem old)
  · exact List.mem_append_right _ (Logged.mem_note_of_mem old)

@[simp] theorem held_connecting : (Conn.connecting : Conn B).held = 0 := rfl

@[simp] theorem held_waiting (connectedAt : Nat) : (Conn.waiting connectedAt : Conn B).held = 0 := rfl

@[simp] theorem held_ended : (Conn.ended : Conn B).held = 0 := rfl

theorem held_le (c : Conn B) : c.held ≤ if B.pooled then 2 else 0 := by
  have one : ∀ s : B.State, running s ≤ 1 := by
    intro s
    unfold running
    split <;> omega
  cases c with
  | established connectedAt logged =>
      have client := one logged.transfer.client
      have upstream := one logged.transfer.upstream
      by_cases pooled : B.pooled = true
      · simp only [held, pooled, if_true]
        omega
      · simp [held, pooled]
  | connecting => exact Nat.zero_le _
  | waiting connectedAt => exact Nat.zero_le _
  | ended => exact Nat.zero_le _

theorem running_run {s t : B.State} {calls : List Io} (ran : B.run s calls = some t) :
    running t ≤ running s := by
  unfold running
  cases done : B.result s with
  | none => split <;> simp
  | some result =>
      obtain ⟨-, rfl⟩ := Backend.run_returned (by simp [done]) ran
      simp [done]

/-- A poll gives permits back and takes none. -/
theorem held_poll {d : IdleTimeout} (connectedAt : Nat) {logged after : Logged B} {p : Poll}
    (polled : logged.poll (some d) p = some after) :
    (settle connectedAt after).held ≤ (Conn.established connectedAt logged).held := by
  obtain ⟨t, happened, rfl⟩ := Option.map_eq_some_iff.mp polled
  obtain ⟨clientCalls, upstreamCalls, ran⟩ := Transfer.poll_ran happened
  have client := running_run ran.client
  have upstream := running_run ran.upstream
  unfold settle
  split
  · exact Nat.zero_le _
  · by_cases pooled : B.pooled = true
    · simp only [held, pooled, if_true]
      exact Nat.add_le_add client upstream
    · simp [held, pooled]

theorem settle_inv {d : IdleTimeout} {now connectedAt : Nat} {logged : Logged B}
    (inv : logged.Inv d now) : (settle connectedAt logged).Inv d now := by
  unfold settle
  split
  · trivial
  · rename_i waiting
    exact ⟨inv, by simpa using waiting⟩

/-- A transfer that starts within its connect's instant is covered. -/
theorem start_covered {d : IdleTimeout} {client upstream : B.Setup} {p : Poll} {logged : Logged B}
    (polled : (Logged.start client upstream).poll (some d) p = some logged) :
    (settle p.now logged).Covered d p.now := by
  obtain ⟨t, happened, rfl⟩ := Option.map_eq_some_iff.mp polled
  unfold settle
  split
  · trivial
  · rename_i waiting
    obtain ⟨w, armed, -, early, reset⟩ :=
      Logged.poll_covers (Logged.start_inv p.now client upstream) happened
        (Option.not_isSome_iff_eq_none.mp waiting)
    have fresh : w.deadline = p.now + d.nanos := by
      rcases reset with same | ⟨fresh, -⟩
      · exact same
      · exact fresh
    have := connectedAt_le p.now ((Logged.start client upstream).moved p.now t)
    exact ⟨w, armed, Nat.le_of_lt early, by omega⟩

/-- A poll keeps a covered connection covered. -/
theorem poll_covered {d : IdleTimeout} {connectedAt : Nat} {logged after : Logged B} {p : Poll}
    (inv : logged.Inv d p.now) (covered : (Conn.established connectedAt logged).Covered d p.now)
    (polled : logged.poll (some d) p = some after) :
    (settle connectedAt after).Covered d p.now := by
  obtain ⟨t, happened, rfl⟩ := Option.map_eq_some_iff.mp polled
  obtain ⟨w, armed, -, within⟩ := covered
  unfold settle
  split
  · trivial
  · rename_i waiting
    obtain ⟨w', armed', -, early, reset⟩ :=
      Logged.poll_covers inv happened (Option.not_isSome_iff_eq_none.mp waiting)
    refine ⟨w', armed', Nat.le_of_lt early, ?_⟩
    have later := lastHeard_moved connectedAt p.now logged t
    rcases reset with same | ⟨fresh, heard⟩
    · have : w'.deadline = w.deadline := by
        rw [same, Transfer.armed, armed, Option.getD_some]
      omega
    · have := le_lastHeard connectedAt heard
      omega

/-- Time that may pass keeps a connection as covered as it was. -/
theorem wait_covered {d : IdleTimeout} {now : Nat} {c : Conn B} (inv : c.Inv d now)
    (allowed : c.mayWait now = true) (covered : c.Covered d now) : c.Covered d (now + 1) := by
  cases c with
  | connecting => trivial
  | waiting connectedAt => exact covered
  | established connectedAt logged =>
      obtain ⟨w, armed, -, within⟩ := covered
      exact ⟨w, armed, ((Logged.wait_inv inv.1 allowed).armed w inv.2 armed).2.1, within⟩
  | ended => trivial

theorem wait_inv {d : IdleTimeout} {now : Nat} {c : Conn B} (inv : c.Inv d now)
    (allowed : c.mayWait now = true) : c.Inv d (now + 1) := by
  cases c with
  | connecting => trivial
  | waiting connectedAt => trivial
  | established connectedAt logged => exact ⟨Logged.wait_inv inv.1 allowed, inv.2⟩
  | ended => trivial

end Conn

/-- A relay's connections, the clock, and the semaphore of its pool: the free permits
and who is queued in `acquire_pair`. -/
structure RelaySystem (B : Backend) where
  now : Nat
  permits : Nat
  waiters : List Nat
  conns : List (Conn B)

inductive RelayLabel (B : Backend)
  | tick
  | accept
  /-- the upstream connect returned; the transfer is polled if it can start -/
  | connect (i : Nat) (client upstream : B.Setup) (p : Poll)
  /-- the connect failed or timed out, or the pipes could not be set up -/
  | refuse (i : Nat)
  /-- the head of the queue got its two permits -/
  | acquire (i : Nat) (client upstream : B.Setup) (p : Poll)
  | poll (i : Nat) (p : Poll)
  /-- forced shutdown -/
  | cancel (i : Nat)

namespace RelaySystem

variable {B : Backend}

/-- Permits a transfer of this backend starts with. -/
def share (B : Backend) : Nat := if B.pooled then 2 else 0

/-- The transfer is created and polled for the first time. -/
def begin_ (d : IdleTimeout) (s : RelaySystem B) (i connectedAt : Nat) (client upstream : B.Setup)
    (p : Poll) : Option (RelaySystem B) :=
  if p.now = s.now then
    ((Logged.start client upstream).poll (some d) p).map fun logged =>
      let c := Conn.settle connectedAt logged
      { s with permits := s.permits - share B + (share B - c.held), conns := s.conns.set i c }
  else none

def step (d : IdleTimeout) (s : RelaySystem B) : RelayLabel B → Option (RelaySystem B)
  | .tick => if s.conns.all (Conn.mayWait s.now) then some { s with now := s.now + 1 } else none
  | .accept => some { s with conns := s.conns ++ [.connecting] }
  | .connect i client upstream p =>
      match s.conns[i]? with
      | some .connecting =>
          if B.pooled = true ∧ ¬ (2 ≤ s.permits ∧ s.waiters = []) then
            some { s with waiters := s.waiters ++ [i], conns := s.conns.set i (.waiting s.now) }
          else begin_ d s i s.now client upstream p
      | _ => none
  | .refuse i =>
      match s.conns[i]? with
      | some .connecting => some { s with conns := s.conns.set i .ended }
      | _ => none
  | .acquire i client upstream p =>
      match s.conns[i]?, s.waiters with
      | some (.waiting connectedAt), j :: waiters =>
          if i = j ∧ 2 ≤ s.permits then
            begin_ d { s with waiters } i connectedAt client upstream p
          else none
      | _, _ => none
  | .poll i p =>
      match s.conns[i]? with
      | some (.established connectedAt logged) =>
          if p.now = s.now then
            (logged.poll (some d) p).map fun after =>
              let c := Conn.settle connectedAt after
              { s with permits := s.permits + ((Conn.established connectedAt logged).held - c.held),
                       conns := s.conns.set i c }
          else none
      | _ => none
  | .cancel i =>
      match s.conns[i]? with
      | some .ended => none
      | some c =>
          some { s with permits := s.permits + c.held, waiters := s.waiters.filter (· ≠ i),
                        conns := s.conns.set i .ended }
      | none => none

def machine (B : Backend) (d : IdleTimeout) : Machine (RelaySystem B) (RelayLabel B) :=
  ⟨fun s => ∃ now permits, s = ⟨now, permits, [], []⟩, step d⟩

/-- Every connection whose upstream is connected and which has not ended is covered. -/
def Covered (d : IdleTimeout) (s : RelaySystem B) : Prop := ∀ c ∈ s.conns, c.Covered d s.now

/-- A connect finds two permits free and nobody queued, if the backend needs buffers. -/
def BuffersReady (s : RelaySystem B) : RelayLabel B → Prop
  | .connect _ _ _ _ => B.pooled = true → 2 ≤ s.permits ∧ s.waiters = []
  | _ => True

def Inv (d : IdleTimeout) (s : RelaySystem B) : Prop := ∀ c ∈ s.conns, c.Inv d s.now

/-! ## What a step can do -/

/-- The ways a step changes the connections and the clock. -/
inductive Stepped (d : IdleTimeout) (s : RelaySystem B) : RelayLabel B → RelaySystem B → Prop
  | ticked (allowed : ∀ c ∈ s.conns, c.mayWait s.now = true) :
      Stepped d s .tick { s with now := s.now + 1 }
  | accepted : Stepped d s .accept { s with conns := s.conns ++ [.connecting] }
  | queued {i : Nat} {client upstream : B.Setup} {p : Poll} (found : s.conns[i]? = some .connecting)
      (pooled : B.pooled = true) (short : ¬ (2 ≤ s.permits ∧ s.waiters = [])) :
      Stepped d s (.connect i client upstream p)
        { s with waiters := s.waiters ++ [i], conns := s.conns.set i (.waiting s.now) }
  | connected {i : Nat} {client upstream : B.Setup} {p : Poll} {logged : Logged B}
      (found : s.conns[i]? = some .connecting)
      (ready : B.pooled = true → 2 ≤ s.permits ∧ s.waiters = []) (present : p.now = s.now)
      (polled : (Logged.start client upstream).poll (some d) p = some logged) :
      Stepped d s (.connect i client upstream p)
        { s with permits := s.permits - share B + (share B - (Conn.settle s.now logged).held),
                 conns := s.conns.set i (.settle s.now logged) }
  | refused {i : Nat} (found : s.conns[i]? = some .connecting) :
      Stepped d s (.refuse i) { s with conns := s.conns.set i .ended }
  | acquired {i connectedAt : Nat} {waiters : List Nat} {client upstream : B.Setup} {p : Poll}
      {logged : Logged B} (found : s.conns[i]? = some (.waiting connectedAt))
      (ready : 2 ≤ s.permits) (present : p.now = s.now)
      (polled : (Logged.start client upstream).poll (some d) p = some logged) :
      Stepped d s (.acquire i client upstream p)
        { s with permits := s.permits - share B + (share B - (Conn.settle connectedAt logged).held),
                 waiters, conns := s.conns.set i (.settle connectedAt logged) }
  | polled {i connectedAt : Nat} {logged after : Logged B} {p : Poll}
      (found : s.conns[i]? = some (.established connectedAt logged)) (present : p.now = s.now)
      (polled : logged.poll (some d) p = some after) :
      Stepped d s (.poll i p)
        { s with permits := s.permits +
                   ((Conn.established connectedAt logged).held - (Conn.settle connectedAt after).held),
                 conns := s.conns.set i (.settle connectedAt after) }
  | cancelled {i : Nat} {c : Conn B} (found : s.conns[i]? = some c) :
      Stepped d s (.cancel i)
        { s with permits := s.permits + c.held, waiters := s.waiters.filter (· ≠ i),
                 conns := s.conns.set i .ended }

theorem begin_eq_some {d : IdleTimeout} {s t : RelaySystem B} {i connectedAt : Nat}
    {client upstream : B.Setup} {p : Poll}
    (began : begin_ d s i connectedAt client upstream p = some t) :
    p.now = s.now ∧ ∃ logged, (Logged.start client upstream).poll (some d) p = some logged ∧
      t = { s with permits := s.permits - share B + (share B - (Conn.settle connectedAt logged).held),
                   conns := s.conns.set i (.settle connectedAt logged) } := by
  unfold begin_ at began
  split at began <;> [skip; cases began]
  rename_i present
  obtain ⟨logged, polled, rfl⟩ := Option.map_eq_some_iff.mp began
  exact ⟨present, logged, polled, rfl⟩

theorem step_stepped {d : IdleTimeout} {s t : RelaySystem B} {label : RelayLabel B}
    (stepped : step d s label = some t) : Stepped d s label t := by
  cases label with
  | tick =>
      simp only [step] at stepped
      split at stepped <;> [skip; cases stepped]
      rename_i allowed
      obtain rfl := Option.some.inj stepped
      exact .ticked (List.all_eq_true.mp allowed)
  | accept =>
      obtain rfl := Option.some.inj stepped
      exact .accepted
  | connect i client upstream p =>
      simp only [step] at stepped
      split at stepped <;> [skip; cases stepped]
      rename_i found
      split at stepped
      · rename_i short
        obtain rfl := Option.some.inj stepped
        exact .queued found short.1 short.2
      · rename_i ready
        obtain ⟨present, logged, polled, rfl⟩ := begin_eq_some stepped
        refine .connected found (fun pooled => ?_) present polled
        by_contra short
        exact ready ⟨pooled, short⟩
  | refuse i =>
      simp only [step] at stepped
      split at stepped <;> [skip; cases stepped]
      rename_i found
      obtain rfl := Option.some.inj stepped
      exact .refused found
  | acquire i client upstream p =>
      simp only [step] at stepped
      split at stepped <;> [skip; cases stepped]
      rename_i connectedAt j waiters found queue
      split at stepped <;> [skip; cases stepped]
      rename_i ready
      obtain ⟨present, logged, polled, rfl⟩ := begin_eq_some stepped
      exact .acquired found ready.2 present polled
  | poll i p =>
      simp only [step] at stepped
      split at stepped <;> [skip; cases stepped]
      rename_i connectedAt logged found
      split at stepped <;> [skip; cases stepped]
      rename_i present
      obtain ⟨after, polled, rfl⟩ := Option.map_eq_some_iff.mp stepped
      exact .polled found present polled
  | cancel i =>
      simp only [step] at stepped
      split at stepped
      · cases stepped
      · rename_i c _ found
        obtain rfl := Option.some.inj stepped
        exact .cancelled found
      · cases stepped

theorem forall_mem_set {α : Type} {P : α → Prop} {xs : List α} {x : α} (i : Nat)
    (all : ∀ y ∈ xs, P y) (new : P x) : ∀ y ∈ xs.set i x, P y := by
  intro y member
  rcases List.mem_or_eq_of_mem_set member with old | rfl
  · exact all y old
  · exact new

theorem Inv.set {d : IdleTimeout} {s : RelaySystem B} (inv : s.Inv d) (i : Nat) {c : Conn B}
    (new : c.Inv d s.now) : ∀ c' ∈ s.conns.set i c, c'.Inv d s.now :=
  forall_mem_set i inv new

theorem Covered.set {d : IdleTimeout} {s : RelaySystem B} (covered : s.Covered d) (i : Nat)
    {c : Conn B} (new : c.Covered d s.now) : ∀ c' ∈ s.conns.set i c, c'.Covered d s.now :=
  forall_mem_set i covered new

theorem step_inv {d : IdleTimeout} {s t : RelaySystem B} {label : RelayLabel B} (inv : s.Inv d)
    (stepped : step d s label = some t) : t.Inv d := by
  have started : ∀ {connectedAt : Nat} {client upstream : B.Setup} {p : Poll} {logged : Logged B},
      p.now = s.now → (Logged.start client upstream).poll (some d) p = some logged →
      (Conn.settle connectedAt logged).Inv d s.now := by
    intro connectedAt client upstream p logged present polled
    rw [← present]
    exact Conn.settle_inv (Logged.poll_inv (Logged.start_inv p.now client upstream) polled)
  cases step_stepped stepped with
  | ticked allowed => exact fun c member => Conn.wait_inv (inv c member) (allowed c member)
  | accepted =>
      intro c member
      rcases List.mem_append.mp member with old | new
      · exact inv c old
      · rw [List.mem_singleton.mp new]
        trivial
  | @queued i client upstream p found pooled short =>
      exact inv.set i trivial
  | @connected i client upstream p logged found ready present polled =>
      exact inv.set i (started present polled)
  | @refused i found => exact inv.set i trivial
  | @acquired i connectedAt waiters client upstream p logged found ready present polled =>
      exact inv.set i (started present polled)
  | @polled i connectedAt logged after p found present polled =>
      have before : (Conn.established connectedAt logged).Inv d s.now :=
        inv _ (List.mem_of_getElem? found)
      refine inv.set i ?_
      rw [← present] at before ⊢
      exact Conn.settle_inv (Logged.poll_inv before.1 polled)
  | @cancelled i c found => exact inv.set i trivial

/-- The permits of the pool, wherever they are. -/
def total (s : RelaySystem B) : Nat := s.permits + tally Conn.held s.conns

/-- A transfer that starts takes its share and gives back what it does not keep. -/
theorem share_returned {permits : Nat} (c : Conn B) (ready : B.pooled = true → 2 ≤ permits) :
    permits - share B + (share B - c.held) + c.held = permits := by
  have bound := c.held_le
  unfold share
  by_cases pooled : B.pooled = true
  · have free := ready pooled
    rw [if_pos pooled] at bound ⊢
    omega
  · rw [if_neg pooled] at bound ⊢
    omega

/-- No step makes or loses a permit. -/
theorem step_total {d : IdleTimeout} {s t : RelaySystem B} {label : RelayLabel B}
    (stepped : step d s label = some t) : t.total = s.total := by
  unfold total
  cases step_stepped stepped with
  | ticked allowed => rfl
  | accepted => simp
  | @queued i client upstream p found pooled short =>
      have := tally_set Conn.held (.waiting s.now) found
      rw [Conn.held_waiting, Conn.held_connecting] at this
      simp only
      omega
  | @connected i client upstream p logged found ready present polled =>
      have := tally_set Conn.held (.settle s.now logged) found
      have same := share_returned (Conn.settle s.now logged) fun pooled => (ready pooled).1
      rw [Conn.held_connecting] at this
      simp only
      omega
  | @refused i found =>
      have := tally_set Conn.held .ended found
      rw [Conn.held_ended, Conn.held_connecting] at this
      simp only
      omega
  | @acquired i connectedAt waiters client upstream p logged found ready present polled =>
      have := tally_set Conn.held (.settle connectedAt logged) found
      have same := share_returned (Conn.settle connectedAt logged) fun _ => ready
      rw [Conn.held_waiting] at this
      simp only
      omega
  | @polled i connectedAt logged after p found present polled =>
      have := tally_set Conn.held (.settle connectedAt after) found
      have bound := Conn.held_poll connectedAt polled
      simp only
      omega
  | @cancelled i c found =>
      have := tally_set Conn.held .ended found
      rw [Conn.held_ended] at this
      simp only
      omega

/-- One step keeps every connection covered iff it is not a connect into an exhausted
pool. -/
theorem step_covered_iff {d : IdleTimeout} {s t : RelaySystem B} {label : RelayLabel B}
    (inv : s.Inv d) (covered : s.Covered d) (stepped : step d s label = some t) :
    t.Covered d ↔ s.BuffersReady label := by
  cases step_stepped stepped with
  | ticked allowed =>
      exact iff_of_true (fun c member => Conn.wait_covered (inv c member) (allowed c member)
        (covered c member)) trivial
  | accepted =>
      refine iff_of_true (fun c member => ?_) trivial
      rcases List.mem_append.mp member with old | new
      · exact covered c old
      · rw [List.mem_singleton.mp new]
        trivial
  | @queued i client upstream p found pooled short =>
      refine iff_of_false (fun all => ?_) fun ready => short (ready pooled)
      have bound : i < s.conns.length := (List.getElem?_eq_some_iff.mp found).1
      exact all (.waiting s.now) (List.mem_set bound _)
  | @connected i client upstream p logged found ready present polled =>
      refine iff_of_true (covered.set i ?_) ready
      rw [← present]
      exact Conn.start_covered polled
  | @refused i found => exact iff_of_true (covered.set i trivial) trivial
  | acquired found ready present polled =>
      exact absurd (covered _ (List.mem_of_getElem? found)) id
  | @polled i connectedAt logged after p found present polled =>
      have before := inv _ (List.mem_of_getElem? found)
      have held := covered _ (List.mem_of_getElem? found)
      refine iff_of_true (covered.set i ?_) trivial
      rw [← present] at before held ⊢
      exact Conn.poll_covered before.1 held polled
  | @cancelled i c found => exact iff_of_true (covered.set i trivial) trivial

/-- Along every timed run of a relay's connections, all of them are covered in every
state iff every upstream connect of a pooled backend finds two permits free and nobody
queued for them. -/
theorem covered_iff (mode : ForwardMode) (d : IdleTimeout) {s : RelaySystem mode.backend}
    (initial : (machine mode.backend d).init s) (labels : List (RelayLabel mode.backend)) :
    (machine mode.backend d).Along (Covered d) s labels ↔
      (machine mode.backend d).Guarded BuffersReady s labels := by
  have empty : s.conns = [] := by
    obtain ⟨now, permits, rfl⟩ := initial
    rfl
  apply Machine.along_iff_guarded
  · exact fun s label t inv stepped => step_inv inv stepped
  · exact fun s label t inv covered stepped => step_covered_iff inv covered stepped
  · intro c member
    rw [empty] at member
    cases member
  · intro c member
    rw [empty] at member
    cases member

/-- A pool of one pair, with an idle timeout of 2: the first connection keeps moving
bytes, the second has been connected and silent since time 0. -/
def exhaustedPool : List (RelayLabel copyBackend) :=
  [.accept, .accept,
    .connect 0 ⟨[0], Nat.zero_lt_one⟩ ⟨[0], Nat.zero_lt_one⟩ ⟨0, false, true, true, false, [], []⟩,
    .connect 1 ⟨[0], Nat.zero_lt_one⟩ ⟨[0], Nat.zero_lt_one⟩ ⟨0, false, true, true, false, [], []⟩,
    .tick, .poll 0 ⟨1, false, true, true, false, [.taken [1], .given 1], []⟩,
    .tick, .poll 0 ⟨2, false, true, true, false, [.taken [2], .given 1], []⟩, .tick]

theorem covered_iff_exhausted_pool :
    (machine copyBackend ⟨2, by decide⟩).Along (Covered ⟨2, by decide⟩) ⟨0, 2, [], []⟩
        exhaustedPool ↔
      (machine copyBackend ⟨2, by decide⟩).Guarded BuffersReady ⟨0, 2, [], []⟩ exhaustedPool :=
  covered_iff .tokio ⟨2, by decide⟩ ⟨0, 2, rfl⟩ exhaustedPool

theorem waits_uncovered :
    ∃ s : RelaySystem copyBackend, (machine copyBackend ⟨2, by decide⟩).init s ∧
      ¬ (machine copyBackend ⟨2, by decide⟩).Along (Covered ⟨2, by decide⟩) s exhaustedPool ∧
      ∃ t, (machine copyBackend ⟨2, by decide⟩).exec s exhaustedPool = some t ∧ t.now = 3 ∧
        t.conns[1]? = some (.waiting 0) := by
  have reaches :
      ∃ t, (machine copyBackend ⟨2, by decide⟩).exec ⟨0, 2, [], []⟩ exhaustedPool = some t ∧
        t.now = 3 ∧ t.conns[1]? = some (.waiting 0) := ⟨_, rfl, rfl, rfl⟩
  obtain ⟨t, ran, now, waits⟩ := reaches
  refine ⟨⟨0, 2, [], []⟩, ⟨0, 2, rfl⟩, fun along => ?_, t, ran, now, waits⟩
  exact along.last ran _ (List.mem_of_getElem? waits)

end RelaySystem

end Portrelay.Relay
