/-
# Relay.PooledConnections -- many connections over one buffer pool

Any number of connections run `forward_with_buffer_pool` over one `BufferPool`.
A `Label` is one thing one of them does: wait for and take its two permits, pop
its two buffers under the lock, complete one call of one of its two copy loops,
be dropped as a whole, or do one half of `PooledBuffer::drop`.  The labels
interleave freely, which allows more orders than the runtime does.

`Inv` is the ownership invariant: an address is in one place, every buffer has
the configured length, every permit is free or held, and a buffer is only held
together with a permit.  The bound on the buffers follows from it although
nothing bounds the vector.  `Coherent` says that a loop finds in its buffer what
it left there; it is kept because no other loop holds the same address.
-/
import Mathlib.Data.List.Nodup
import Mathlib.Tactic.SplitIfs
import Portrelay.Theory.Machine
import Portrelay.Theory.Tally
import Portrelay.Relay.BufferPool
import Portrelay.Relay.Backend

namespace Portrelay.Relay

open Portrelay.Theory

set_option autoImplicit false

/-- One direction of a transfer and its `PooledBuffer`: live, with the buffer
pushed back and the permit still held, or with both given back.  The loop is kept
for what it delivered. -/
inductive Half
  | running (id permit : Nat) (loop : CopyDirection)
  | pushed (permit : Nat) (loop : CopyDirection)
  | released (loop : CopyDirection)
  deriving DecidableEq

/-- A connection of the relay, as far as the pool is concerned: waiting in
`acquire_many_owned`, holding its permits in front of the lock, transferring (or
being dropped), or dropped while it waited. -/
inductive PooledConnection
  | waiting
  | granted (permits : Nat)
  | transferring (cancelled : Bool) (client upstream : Half)
  | gone
  deriving DecidableEq

structure PoolSystem where
  pool : BufferPool
  connections : List PooledConnection
  deriving DecidableEq

inductive PoolLabel
  | arrive
  | acquire (i : Nat)
  | issue (i : Nat)
  | io (i : Nat) (side : Side) (io : Io)
  | cancel (i : Nat)
  | push (i : Nat) (side : Side)
  | release (i : Nat) (side : Side)

namespace Half

def loop : Half → CopyDirection
  | .running _ _ loop => loop
  | .pushed _ loop => loop
  | .released loop => loop

/-- Permits held by the `PooledBuffer`. -/
def permits : Half → Nat
  | .running _ permit _ => permit
  | .pushed permit _ => permit
  | .released _ => 0

/-- Buffers held by the `PooledBuffer`. -/
def held : Half → Nat
  | .running _ _ _ => 1
  | _ => 0

/-- Whether the `PooledBuffer` holds the address `id`. -/
def holds (id : Nat) : Half → Nat
  | .running other _ _ => if other = id then 1 else 0
  | _ => 0

/-- One permit goes with a `PooledBuffer` until it is given back, and the loop is
valid on a buffer of the right length. -/
def Sound (size : Nat) : Half → Prop
  | .running _ permit loop => permit = 1 ∧ loop.buffer.length = size ∧ loop.Valid
  | .pushed permit loop => permit = 1 ∧ loop.Valid
  | .released loop => loop.Valid

theorem Sound.valid {size : Nat} {h : Half} (sound : h.Sound size) : h.loop.Valid := by
  cases h with
  | running id permit loop => exact sound.2.2
  | pushed permit loop => exact sound.2
  | released loop => exact sound

theorem Sound.held_le {size : Nat} {h : Half} (sound : h.Sound size) : h.held ≤ h.permits := by
  cases h with
  | running id permit loop => exact Nat.le_of_eq sound.1.symm
  | pushed permit loop => exact Nat.zero_le _
  | released loop => exact Nat.zero_le _

end Half

namespace PooledConnection

def half? : PooledConnection → Side → Option Half
  | .transferring _ client _, .client => some client
  | .transferring _ _ upstream, .upstream => some upstream
  | _, _ => none

def setHalf : PooledConnection → Side → Half → PooledConnection
  | .transferring cancelled _ upstream, .client, h => .transferring cancelled h upstream
  | .transferring cancelled client _, .upstream, h => .transferring cancelled client h
  | c, _, _ => c

def cancelled : PooledConnection → Bool
  | .transferring cancelled _ _ => cancelled
  | _ => false

/-- Adds up an amount over the two halves of a transfer. -/
def sum (f : Half → Nat) : PooledConnection → Nat
  | .transferring _ client upstream => f client + f upstream
  | _ => 0

/-- Permits held by the connection's task. -/
def permits : PooledConnection → Nat
  | .granted permits => permits
  | c => c.sum Half.permits

/-- Buffers held by the connection's task. -/
def held (c : PooledConnection) : Nat := c.sum Half.held

/-- How many of the connection's `PooledBuffer`s hold the address `id`. -/
def holds (id : Nat) (c : PooledConnection) : Nat := c.sum (Half.holds id)

def Sound (size : Nat) : PooledConnection → Prop
  | .granted permits => permits = 2
  | .transferring _ client upstream => client.Sound size ∧ upstream.Sound size
  | _ => True

theorem sum_setHalf (f : Half → Nat) {c : PooledConnection} {side : Side} {h : Half} (h' : Half)
    (found : c.half? side = some h) : (c.setHalf side h').sum f + f h = c.sum f + f h' := by
  cases c <;> cases side <;> simp only [half?, Option.some.injEq, reduceCtorEq] at found <;>
    subst found <;> simp only [setHalf, sum] <;> omega

theorem half?_setHalf {c : PooledConnection} {side side' : Side} {h h' : Half}
    (found : (c.setHalf side h).half? side' = some h') :
    (side' = side ∧ h' = h) ∨ (side' ≠ side ∧ c.half? side' = some h') := by
  cases c <;> cases side <;> cases side' <;>
    simp only [setHalf, half?, Option.some.injEq, reduceCtorEq] at found <;> simp_all [half?]

/-- A `PooledBuffer` of the connection accounts for an address it holds. -/
theorem holds_pos {c : PooledConnection} {side : Side} {id permit : Nat} {loop : CopyDirection}
    (running : c.half? side = some (.running id permit loop)) : 1 ≤ c.holds id := by
  cases c <;> cases side <;> simp only [half?, Option.some.injEq, reduceCtorEq] at running <;>
    subst running <;> simp only [holds, sum, Half.holds] <;> simp

/-- Two `PooledBuffer`s of the connection account for twice an address they share. -/
theorem holds_two {c : PooledConnection} {side side' : Side} {id permit permit' : Nat}
    {loop loop' : CopyDirection} (ne : side ≠ side')
    (running : c.half? side = some (.running id permit loop))
    (running' : c.half? side' = some (.running id permit' loop')) : 2 ≤ c.holds id := by
  cases c <;> cases side <;> cases side' <;>
    simp only [half?, Option.some.injEq, reduceCtorEq, ne_eq, not_true_eq_false] at running running' ne <;>
    subst running <;> subst running' <;> simp [holds, sum, Half.holds]

theorem permits_setHalf {c : PooledConnection} {side : Side} {h : Half} (h' : Half)
    (found : c.half? side = some h) :
    (c.setHalf side h').permits + h.permits = c.permits + h'.permits := by
  cases c <;> cases side <;> simp only [half?, Option.some.injEq, reduceCtorEq] at found <;>
    subst found <;> simp only [setHalf, permits, sum] <;> omega

theorem Sound.half {size : Nat} {c : PooledConnection} {side : Side} {h : Half}
    (sound : c.Sound size) (found : c.half? side = some h) : h.Sound size := by
  cases c <;> cases side <;> simp only [half?, Option.some.injEq, reduceCtorEq] at found
  · exact found ▸ sound.1
  · exact found ▸ sound.2

theorem Sound.setHalf {size : Nat} {c : PooledConnection} {side : Side} {h : Half}
    (sound : c.Sound size) (sound' : h.Sound size) : (c.setHalf side h).Sound size := by
  cases c <;> cases side <;> simp only [PooledConnection.setHalf] <;> try exact sound
  · exact ⟨sound', sound.2⟩
  · exact ⟨sound.1, sound'⟩

theorem Sound.held_le {size : Nat} {c : PooledConnection} (sound : c.Sound size) :
    c.held ≤ c.permits := by
  cases c with
  | transferring cancelled client upstream =>
      have first := sound.1.held_le
      have second := sound.2.held_le
      simp only [held, permits, sum]
      omega
  | _ => simp [held, sum]

end PooledConnection

namespace PoolSystem

def change (s : PoolSystem) (i : Nat) (pool : BufferPool) (c : PooledConnection) : PoolSystem :=
  ⟨pool, s.connections.set i c⟩

/-- The pair `acquire_pair` returns: `first_permit` is split off the acquired
permits and `second_permit` is the rest. -/
def issued (s : PoolSystem) (permits : Nat) : BufferPool × PooledConnection :=
  let first := s.pool.pop
  let second := first.2.pop
  (second.2, .transferring false
    (.running first.1 1 (.start (second.2.load first.1)))
    (.running second.1 (permits - 1) (.start (second.2.load second.1))))

/-- A loop's next call, on the bytes that are in its buffer now; what the call
leaves there goes back to the heap. -/
def call (pool : BufferPool) (id : Nat) (loop : CopyDirection) (io : Io) :
    Option (BufferPool × CopyDirection) :=
  (CopyDirection.step { loop with buffer := pool.load id } io).map fun after =>
    (pool.store id after.buffer, after)

def step (s : PoolSystem) : PoolLabel → Option PoolSystem
  | .arrive => some { s with connections := s.connections ++ [.waiting] }
  | .acquire i =>
      match s.connections[i]? with
      | some .waiting => (s.pool.acquireMany 2).map fun pool => s.change i pool (.granted 2)
      | _ => none
  | .issue i =>
      match s.connections[i]? with
      | some (.granted permits) =>
          if 1 ≤ permits then some (s.change i (s.issued permits).1 (s.issued permits).2) else none
      | _ => none
  | .io i side io =>
      match s.connections[i]? with
      | some c =>
          match c.half? side with
          | some (.running id permit loop) =>
              if c.cancelled then none
              else (call s.pool id loop io).map fun after =>
                s.change i after.1 (c.setHalf side (.running id permit after.2))
          | _ => none
      | none => none
  | .cancel i =>
      match s.connections[i]? with
      | some .waiting => some (s.change i s.pool .gone)
      | some (.transferring _ client upstream) =>
          some (s.change i s.pool (.transferring true client upstream))
      | _ => none
  | .push i side =>
      match s.connections[i]? with
      | some c =>
          match c.half? side with
          | some (.running id permit loop) =>
              if c.cancelled = true ∨ loop.result.isSome = true then
                some (s.change i (s.pool.push id) (c.setHalf side (.pushed permit loop)))
              else none
          | _ => none
      | none => none
  | .release i side =>
      match s.connections[i]? with
      | some c =>
          match c.half? side with
          | some (.pushed permit loop) =>
              some (s.change i (s.pool.release permit) (c.setHalf side (.released loop)))
          | _ => none
      | none => none

/-- A pool nobody has used yet, or one with any stock of buffers whose contents
are arbitrary. -/
structure Initial (config : PoolConfig) (s : PoolSystem) : Prop where
  unused : s.connections = []
  size : s.pool.bufferSize = config.bufferSize
  permits : s.pool.permits = config.bufferCount
  stocked : s.pool.buffers.length ≤ config.bufferCount
  sized : s.pool.Sized
  distinct : s.pool.buffers.Nodup

def machine (config : PoolConfig) : Machine PoolSystem PoolLabel := ⟨Initial config, step⟩

theorem initial_new (config : PoolConfig) : Initial config ⟨.new config, []⟩ := by
  refine ⟨rfl, rfl, rfl, Nat.zero_le _, ?_, List.nodup_nil⟩
  intro id member
  cases member

/-- Everything a label can do, one constructor for each way out of `step`. -/
inductive Stepped (s : PoolSystem) : PoolLabel → PoolSystem → Prop
  | arrive : Stepped s .arrive { s with connections := s.connections ++ [.waiting] }
  | acquire {i : Nat} (found : s.connections[i]? = some .waiting) (free : 2 ≤ s.pool.permits) :
      Stepped s (.acquire i)
        (s.change i { s.pool with permits := s.pool.permits - 2 } (.granted 2))
  | issue {i permits : Nat} (found : s.connections[i]? = some (.granted permits)) :
      Stepped s (.issue i) (s.change i (s.issued permits).1 (s.issued permits).2)
  | io {i : Nat} {side : Side} {io : Io} {c : PooledConnection} {id permit : Nat}
      {loop after : CopyDirection} (found : s.connections[i]? = some c)
      (running : c.half? side = some (.running id permit loop))
      (called : CopyDirection.step { loop with buffer := s.pool.load id } io = some after) :
      Stepped s (.io i side io)
        (s.change i (s.pool.store id after.buffer) (c.setHalf side (.running id permit after)))
  | abandon {i : Nat} (found : s.connections[i]? = some .waiting) :
      Stepped s (.cancel i) (s.change i s.pool .gone)
  | cancel {i : Nat} {cancelled : Bool} {client upstream : Half}
      (found : s.connections[i]? = some (.transferring cancelled client upstream)) :
      Stepped s (.cancel i) (s.change i s.pool (.transferring true client upstream))
  | push {i : Nat} {side : Side} {c : PooledConnection} {id permit : Nat} {loop : CopyDirection}
      (found : s.connections[i]? = some c)
      (running : c.half? side = some (.running id permit loop)) :
      Stepped s (.push i side)
        (s.change i (s.pool.push id) (c.setHalf side (.pushed permit loop)))
  | release {i : Nat} {side : Side} {c : PooledConnection} {permit : Nat} {loop : CopyDirection}
      (found : s.connections[i]? = some c)
      (pushed : c.half? side = some (.pushed permit loop)) :
      Stepped s (.release i side)
        (s.change i (s.pool.release permit) (c.setHalf side (.released loop)))

theorem step_stepped {s t : PoolSystem} {label : PoolLabel} (stepped : s.step label = some t) :
    s.Stepped label t := by
  cases label with
  | arrive =>
      obtain rfl := Option.some.inj stepped
      exact .arrive
  | acquire i =>
      simp only [step] at stepped
      split at stepped <;> [skip; cases stepped]
      rename_i found
      obtain ⟨pool, acquired, rfl⟩ := Option.map_eq_some_iff.mp stepped
      simp only [BufferPool.acquireMany] at acquired
      split at acquired <;> [skip; cases acquired]
      obtain rfl := Option.some.inj acquired
      exact .acquire found ‹_›
  | issue i =>
      simp only [step] at stepped
      split at stepped <;> [skip; cases stepped]
      rename_i found
      split at stepped <;> [skip; cases stepped]
      obtain rfl := Option.some.inj stepped
      exact .issue found
  | io i side io =>
      simp only [step] at stepped
      split at stepped <;> [skip; cases stepped]
      rename_i found
      split at stepped <;> [skip; cases stepped]
      rename_i running
      split at stepped <;> [cases stepped; skip]
      obtain ⟨after, called, rfl⟩ := Option.map_eq_some_iff.mp stepped
      simp only [call, Option.map_eq_some_iff] at called
      obtain ⟨loop, inner, rfl⟩ := called
      exact .io found running inner
  | cancel i =>
      simp only [step] at stepped
      split at stepped <;> [skip; skip; cases stepped] <;> obtain rfl := Option.some.inj stepped
      · exact .abandon ‹_›
      · exact .cancel ‹_›
  | push i side =>
      simp only [step] at stepped
      split at stepped <;> [skip; cases stepped]
      rename_i found
      split at stepped <;> [skip; cases stepped]
      rename_i running
      split at stepped <;> [skip; cases stepped]
      obtain rfl := Option.some.inj stepped
      exact .push found running
  | release i side =>
      simp only [step] at stepped
      split at stepped <;> [skip; cases stepped]
      rename_i found
      split at stepped <;> [skip; cases stepped]
      rename_i pushed
      obtain rfl := Option.some.inj stepped
      exact .release found pushed

/-! ## Ownership -/

/-- The places where the address `id` is: in the pool and in `PooledBuffer`s. -/
def places (s : PoolSystem) (id : Nat) : Nat :=
  s.pool.buffers.count id + tally (PooledConnection.holds id) s.connections

/-- A loop finds in its buffer what it left there. -/
def Coherent (s : PoolSystem) : Prop :=
  ∀ (i : Nat) (c : PooledConnection) (side : Side) (id permit : Nat) (loop : CopyDirection),
    s.connections[i]? = some c → c.half? side = some (.running id permit loop) →
      s.pool.load id = loop.buffer

/-- Who owns what, in every reachable state. -/
structure Inv (config : PoolConfig) (s : PoolSystem) : Prop where
  size : s.pool.bufferSize = config.bufferSize
  conserved : s.pool.permits + tally PooledConnection.permits s.connections = config.bufferCount
  bounded : s.pool.buffers.length + tally PooledConnection.held s.connections ≤ config.bufferCount
  sized : s.pool.Sized
  sound : ∀ c ∈ s.connections, c.Sound config.bufferSize
  single : ∀ id, s.places id ≤ 1
  fresh : ∀ id, s.pool.heap.length ≤ id → s.places id = 0
  coherent : s.Coherent

theorem inv_initial {config : PoolConfig} {s : PoolSystem} (initial : Initial config s) :
    Inv config s := by
  have places_eq : ∀ id, s.places id = s.pool.buffers.count id := by
    intro id
    simp [places, initial.unused]
  have pos := config.size_pos
  refine ⟨initial.size, ?_, ?_, initial.sized, ?_, fun id => ?_, fun id unused => ?_, ?_⟩
  · simp [initial.unused, initial.permits]
  · simpa [initial.unused] using initial.stocked
  · simp [initial.unused]
  · rw [places_eq]
    exact List.nodup_iff_count_le_one.mp initial.distinct id
  · rw [places_eq, List.count_eq_zero]
    intro member
    have length := initial.sized id member
    rw [initial.size] at length
    have stored := s.pool.lt_of_load (length ▸ pos)
    omega
  · intro i c side id permit loop found
    simp [initial.unused] at found

/-- An address has one holder at most. -/
theorem Inv.exclusive {config : PoolConfig} {s : PoolSystem} (inv : Inv config s) {i j : Nat}
    {c d : PooledConnection} {side side' : Side} {id permit permit' : Nat}
    {loop loop' : CopyDirection} (atI : s.connections[i]? = some c)
    (atJ : s.connections[j]? = some d) (running : c.half? side = some (.running id permit loop))
    (running' : d.half? side' = some (.running id permit' loop')) : i = j ∧ side = side' := by
  have once := inv.single id
  simp only [places] at once
  have first := PooledConnection.holds_pos running
  have second := PooledConnection.holds_pos running'
  have same : i = j := by
    by_contra ne
    have both := add_le_tally (PooledConnection.holds id) ne atI atJ
    omega
  refine ⟨same, ?_⟩
  by_contra ne
  subst same
  obtain rfl : c = d := Option.some.inj (atI.symm.trans atJ)
  have both := PooledConnection.holds_two ne running running'
  have within := le_tally (PooledConnection.holds id) (List.mem_of_getElem? atI)
  omega

/-- A change that leaves the other connections' buffers alone, and this one's in
agreement with its loops, keeps coherence. -/
theorem Coherent.change {s : PoolSystem} (coherent : s.Coherent) {i : Nat}
    {c' : PooledConnection} {pool : BufferPool}
    (others : ∀ (j : Nat) (d : PooledConnection) (side : Side) (id permit : Nat)
      (loop : CopyDirection), j ≠ i → s.connections[j]? = some d →
        d.half? side = some (.running id permit loop) → pool.load id = s.pool.load id)
    (own : ∀ (side : Side) (id permit : Nat) (loop : CopyDirection),
      c'.half? side = some (.running id permit loop) → pool.load id = loop.buffer) :
    (s.change i pool c').Coherent := by
  intro j d side id permit loop found running
  simp only [PoolSystem.change, List.getElem?_set] at found
  by_cases here : i = j
  · simp only [here, if_true] at found
    split at found <;> [skip; cases found]
    obtain rfl := Option.some.inj found
    exact own side id permit loop running
  · simp only [here, if_false] at found
    rw [show (s.change i pool c').pool = pool from rfl,
      others j d side id permit loop (Ne.symm here) found running]
    exact coherent j d side id permit loop found running

/-- Changing one half to one that runs no loop keeps coherence. -/
theorem Coherent.setHalf {s : PoolSystem} (coherent : s.Coherent) {i : Nat}
    {c : PooledConnection} {side : Side} {h : Half} {pool : BufferPool}
    (found : s.connections[i]? = some c) (heap : pool.heap = s.pool.heap)
    (stopped : ∀ id permit loop, h ≠ .running id permit loop) :
    (s.change i pool (c.setHalf side h)).Coherent := by
  have same : ∀ id, pool.load id = s.pool.load id := by
    intro id
    simp only [BufferPool.load, heap]
  refine coherent.change (fun _ _ _ id _ _ _ _ _ => same id) ?_
  intro side' id permit loop running
  rcases PooledConnection.half?_setHalf running with ⟨-, now⟩ | ⟨-, before⟩
  · exact absurd now.symm (stopped id permit loop)
  · rw [same]
    exact coherent i c side' id permit loop found before

/-- Changing one connection, and the pool by exactly what the connection gained
or lost, keeps the invariant. -/
theorem Inv.change {config : PoolConfig} {s : PoolSystem} (inv : Inv config s) {i : Nat}
    {c c' : PooledConnection} {pool : BufferPool} (found : s.connections[i]? = some c)
    (size : pool.bufferSize = s.pool.bufferSize)
    (permits : pool.permits + c'.permits = s.pool.permits + c.permits)
    (held : pool.buffers.length + c'.held = s.pool.buffers.length + c.held)
    (sized : pool.Sized) (sound : c'.Sound config.bufferSize)
    (moved : ∀ id, pool.buffers.count id + c'.holds id = s.pool.buffers.count id + c.holds id)
    (heap : pool.heap.length = s.pool.heap.length) (coherent : (s.change i pool c').Coherent) :
    Inv config (s.change i pool c') := by
  have places_eq : ∀ id, (s.change i pool c').places id = s.places id := by
    intro id
    have total := tally_set (PooledConnection.holds id) c' found
    have here := moved id
    simp only [places, PoolSystem.change]
    omega
  refine ⟨size.trans inv.size, ?_, ?_, sized, ?_, fun id => ?_, fun id unused => ?_, coherent⟩
  · have total := tally_set PooledConnection.permits c' found
    have before := inv.conserved
    simp only [PoolSystem.change]
    omega
  · have total := tally_set PooledConnection.held c' found
    have before := inv.bounded
    simp only [PoolSystem.change]
    omega
  · intro other member
    rcases List.mem_or_eq_of_mem_set member with member | rfl
    · exact inv.sound other member
    · exact sound
  · rw [places_eq]
    exact inv.single id
  · rw [places_eq]
    exact inv.fresh id (heap ▸ unused)

/-- The same for a change of one half of a transfer. -/
theorem Inv.setHalf {config : PoolConfig} {s : PoolSystem} (inv : Inv config s) {i : Nat}
    {side : Side} {c : PooledConnection} {h h' : Half} {pool : BufferPool}
    (found : s.connections[i]? = some c) (half : c.half? side = some h)
    (size : pool.bufferSize = s.pool.bufferSize)
    (permits : pool.permits + h'.permits = s.pool.permits + h.permits)
    (held : pool.buffers.length + h'.held = s.pool.buffers.length + h.held)
    (sized : pool.Sized) (sound : h'.Sound config.bufferSize)
    (moved : ∀ id, pool.buffers.count id + h'.holds id = s.pool.buffers.count id + h.holds id)
    (heap : pool.heap.length = s.pool.heap.length)
    (coherent : (s.change i pool (c.setHalf side h')).Coherent) :
    Inv config (s.change i pool (c.setHalf side h')) := by
  have before := inv.sound c (List.mem_of_getElem? found)
  refine inv.change found size ?_ ?_ sized (before.setHalf sound) (fun id => ?_) heap coherent
  · have total := PooledConnection.permits_setHalf h' half
    omega
  · have total := PooledConnection.sum_setHalf Half.held h' half
    simp only [PooledConnection.held]
    omega
  · have total := PooledConnection.sum_setHalf (Half.holds id) h' half
    have here := moved id
    simp only [PooledConnection.holds]
    omega

/-- An address held by a loop is on the heap. -/
theorem Inv.stored {config : PoolConfig} {s : PoolSystem} (inv : Inv config s) {i : Nat}
    {c : PooledConnection} {side : Side} {id permit : Nat} {loop : CopyDirection}
    (found : s.connections[i]? = some c) (running : c.half? side = some (.running id permit loop)) :
    id < s.pool.heap.length := by
  obtain ⟨-, length, -⟩ := (inv.sound c (List.mem_of_getElem? found)).half running
  apply s.pool.lt_of_load
  rw [inv.coherent i c side id permit loop found running, length]
  exact config.size_pos

/-- The addresses of an issued pair leave the pool or are new on the heap, so they are
in no second place. -/
theorem Inv.issued_places {config : PoolConfig} {s : PoolSystem} (inv : Inv config s) {i : Nat}
    (found : s.connections[i]? = some (.granted 2)) (id : Nat) :
    (s.change i (s.issued 2).1 (s.issued 2).2).places id ≤ 1 ∧
      ((s.issued 2).1.heap.length ≤ id →
        (s.change i (s.issued 2).1 (s.issued 2).2).places id = 0) := by
  have pair : (s.issued 2).2.holds id =
      (if s.pool.pop.1 = id then 1 else 0) + (if s.pool.pop.2.pop.1 = id then 1 else 0) := rfl
  have alone : (PooledConnection.granted 2).holds id = 0 := rfl
  have total := tally_set (PooledConnection.holds id) (s.issued 2).2 found
  have once := inv.single id
  have unused := inv.fresh id
  have first := s.pool.pop_count id
  have second := s.pool.pop.2.pop_count id
  rw [pair, alone] at total
  simp only [places, PoolSystem.change, issued] at *
  constructor
  · split_ifs at * <;> omega
  · intro beyond
    split_ifs at * <;> omega

/-- An emptied pool is bounded by the permits, any other by what was there. -/
theorem Inv.issued_bounded {config : PoolConfig} {s : PoolSystem} (inv : Inv config s) {i : Nat}
    (found : s.connections[i]? = some (.granted 2))
    (sound : ∀ c ∈ (s.change i (s.issued 2).1 (s.issued 2).2).connections,
      c.Sound config.bufferSize) :
    (s.issued 2).1.buffers.length +
        tally PooledConnection.held (s.connections.set i (s.issued 2).2) ≤ config.bufferCount := by
  have total := tally_set PooledConnection.held (s.issued 2).2 found
  have totalPermits := tally_set PooledConnection.permits (s.issued 2).2 found
  have two : (s.issued 2).2.permits = 2 := rfl
  have two' : (PooledConnection.granted 2).permits = 2 := rfl
  have taken : (s.issued 2).2.held = 2 := rfl
  have none : (PooledConnection.granted 2).held = 0 := rfl
  have conserved := inv.conserved
  have before := inv.bounded
  have covered := tally_mono fun c member => (sound c member).held_le
  have stock : (s.issued 2).1.buffers.length = s.pool.buffers.length - 1 - 1 := by
    simp [issued, BufferPool.pop_length]
  simp only [PoolSystem.change] at covered
  omega

/-- Handing out a pair: two pooled or new buffers go to a connection that held
none, and the bound holds because both come with a permit. -/
theorem Inv.issue {config : PoolConfig} {s : PoolSystem} (inv : Inv config s) {i permits : Nat}
    (found : s.connections[i]? = some (.granted permits)) :
    Inv config (s.change i (s.issued permits).1 (s.issued permits).2) := by
  have two : permits = 2 := inv.sound _ (List.mem_of_getElem? found)
  subst two
  have pos := config.size_pos
  obtain ⟨sized₁, fits₁⟩ := BufferPool.pop_sized inv.sized
  obtain ⟨sized₂, fits₂⟩ := BufferPool.pop_sized sized₁
  rw [inv.size] at fits₁
  rw [BufferPool.pop_bufferSize, inv.size] at fits₂
  have stored₁ : s.pool.pop.1 < s.pool.pop.2.heap.length :=
    s.pool.pop.2.lt_of_load (fits₁ ▸ pos)
  rw [← BufferPool.pop_load stored₁] at fits₁
  have sound : (s.issued 2).2.Sound config.bufferSize :=
    ⟨⟨rfl, fits₁, CopyDirection.start_valid (fits₁ ▸ pos)⟩,
      ⟨rfl, fits₂, CopyDirection.start_valid (fits₂ ▸ pos)⟩⟩
  have sound' : ∀ c ∈ (s.change i (s.issued 2).1 (s.issued 2).2).connections,
      c.Sound config.bufferSize := by
    intro other member
    rcases List.mem_or_eq_of_mem_set member with member | rfl
    · exact inv.sound other member
    · exact sound
  refine ⟨?_, ?_, inv.issued_bounded found sound', sized₂, sound',
    fun id => (inv.issued_places found id).1, fun id => (inv.issued_places found id).2, ?_⟩
  · simp only [PoolSystem.change, issued, BufferPool.pop_bufferSize]
    exact inv.size
  · have total := tally_set PooledConnection.permits (s.issued 2).2 found
    have before := inv.conserved
    have same : (s.issued 2).1.permits = s.pool.permits := by simp [issued]
    have two : (s.issued 2).2.permits = 2 := rfl
    have two' : (PooledConnection.granted 2).permits = 2 := rfl
    simp only [PoolSystem.change]
    omega
  · apply inv.coherent.change
    · intro j d side id permit loop _ foundJ running
      have stored := inv.stored foundJ running
      have later := s.pool.pop_heap_length
      rw [show (s.issued 2).1 = s.pool.pop.2.pop.2 from rfl,
        BufferPool.pop_load (by omega), BufferPool.pop_load stored]
    · intro side id permit loop running
      cases side <;> obtain ⟨rfl, -, rfl⟩ := Half.running.inj (Option.some.inj running) <;> rfl

/-- A completed call of one loop: the bytes are where the loop left them, and the
call changes no other loop's buffer. -/
theorem Inv.io {config : PoolConfig} {s : PoolSystem} (inv : Inv config s) {i : Nat} {side : Side}
    {io : Io} {c : PooledConnection} {id permit : Nat} {loop after : CopyDirection}
    (found : s.connections[i]? = some c) (running : c.half? side = some (.running id permit loop))
    (called : CopyDirection.step { loop with buffer := s.pool.load id } io = some after) :
    Inv config
      (s.change i (s.pool.store id after.buffer) (c.setHalf side (.running id permit after))) := by
  have sound := inv.sound c (List.mem_of_getElem? found)
  obtain ⟨one, length, valid⟩ := sound.half running
  have stored := inv.stored found running
  rw [inv.coherent i c side id permit loop found running] at called
  have length' := (CopyDirection.step_buffer_length called).trans length
  have kept : (Half.running id permit after).Sound config.bufferSize :=
    ⟨one, length', CopyDirection.step_valid valid called⟩
  refine inv.setHalf found running rfl rfl rfl ?_ kept (fun _ => rfl) ?_ ?_
  · intro other member
    by_cases here : other = id
    · rw [here, BufferPool.store_load _ stored, length']
      exact inv.size.symm
    · rw [BufferPool.store_load_ne _ here]
      exact inv.sized other member
  · simp [BufferPool.store]
  · apply inv.coherent.change
    · intro j d side' id' permit' loop' ne foundJ running'
      apply BufferPool.store_load_ne
      rintro rfl
      exact ne (inv.exclusive foundJ found running' running).1
    · intro side' id' permit' loop' running'
      rcases PooledConnection.half?_setHalf running' with ⟨-, now⟩ | ⟨ne, before⟩
      · obtain ⟨rfl, -, rfl⟩ := Half.running.inj now
        exact BufferPool.store_load _ stored
      · have apart : id' ≠ id := by
          rintro rfl
          exact ne (inv.exclusive found found before running).2
        rw [BufferPool.store_load_ne _ apart]
        exact inv.coherent i c side' id' permit' loop' found before

/-- A connection that arrives holds nothing. -/
theorem Inv.arrive {config : PoolConfig} {s : PoolSystem} (inv : Inv config s) :
    Inv config { s with connections := s.connections ++ [.waiting] } := by
  refine ⟨inv.size, ?_, ?_, inv.sized, ?_, fun id => ?_, fun id unused => ?_, ?_⟩
  · simpa [PooledConnection.permits, PooledConnection.sum] using inv.conserved
  · simpa [PooledConnection.held, PooledConnection.sum] using inv.bounded
  · intro c member
    rcases List.mem_append.mp member with member | member
    · exact inv.sound c member
    · rw [List.mem_singleton.mp member]
      trivial
  · simpa [places, PooledConnection.holds, PooledConnection.sum] using inv.single id
  · simpa [places, PooledConnection.holds, PooledConnection.sum] using inv.fresh id unused
  · intro i c side id permit loop found running
    rw [List.getElem?_append] at found
    split at found
    · exact inv.coherent i c side id permit loop found running
    · have new : c = .waiting := List.mem_singleton.mp (List.mem_of_getElem? found)
      subst new
      cases side <;> cases running

/-- A buffer that is pushed back has the configured length. -/
theorem Inv.push {config : PoolConfig} {s : PoolSystem} (inv : Inv config s) {i : Nat} {side : Side}
    {c : PooledConnection} {id permit : Nat} {loop : CopyDirection}
    (found : s.connections[i]? = some c) (running : c.half? side = some (.running id permit loop)) :
    Inv config (s.change i (s.pool.push id) (c.setHalf side (.pushed permit loop))) := by
  obtain ⟨one, length, valid⟩ := (inv.sound c (List.mem_of_getElem? found)).half running
  have kept : (Half.pushed permit loop).Sound config.bufferSize := ⟨one, valid⟩
  refine inv.setHalf found running rfl rfl rfl ?_ kept (fun id' => ?_) rfl ?_
  · intro other member
    rcases List.mem_cons.mp member with rfl | member
    · have here := inv.coherent i c side other permit loop found running
      rw [show (s.pool.push other).load other = s.pool.load other from rfl, here, length]
      exact inv.size.symm
    · exact inv.sized other member
  · simp only [Half.holds, BufferPool.push, List.count_cons, beq_iff_eq]
    omega
  · exact inv.coherent.setHalf found rfl (fun _ _ _ => by simp)

theorem Inv.release {config : PoolConfig} {s : PoolSystem} (inv : Inv config s) {i : Nat}
    {side : Side} {c : PooledConnection} {permit : Nat} {loop : CopyDirection}
    (found : s.connections[i]? = some c) (pushed : c.half? side = some (.pushed permit loop)) :
    Inv config (s.change i (s.pool.release permit) (c.setHalf side (.released loop))) := by
  obtain ⟨one, valid⟩ := (inv.sound c (List.mem_of_getElem? found)).half pushed
  exact inv.setHalf found pushed rfl rfl rfl inv.sized valid (fun _ => rfl) rfl
    (inv.coherent.setHalf found rfl fun _ _ _ => by simp)

/-- Every label keeps the ownership invariant. -/
theorem inv_step {config : PoolConfig} {s t : PoolSystem} {label : PoolLabel}
    (inv : Inv config s) (stepped : s.step label = some t) : Inv config t := by
  cases step_stepped stepped with
  | arrive => exact inv.arrive
  | acquire found free =>
      refine inv.change found rfl ?_ rfl inv.sized rfl (fun id => rfl) rfl ?_
      · simp only [PooledConnection.permits, PooledConnection.sum]
        omega
      · apply inv.coherent.change (fun _ _ _ _ _ _ _ _ _ => rfl)
        intro side id permit loop running
        cases side <;> cases running
  | issue found => exact inv.issue found
  | io found running called => exact inv.io found running called
  | abandon found =>
      refine inv.change found rfl rfl rfl inv.sized trivial (fun id => rfl) rfl ?_
      apply inv.coherent.change (fun _ _ _ _ _ _ _ _ _ => rfl)
      intro side id permit loop running
      cases side <;> cases running
  | cancel found =>
      have sound := inv.sound _ (List.mem_of_getElem? found)
      refine inv.change found rfl rfl rfl inv.sized sound (fun id => rfl) rfl ?_
      apply inv.coherent.change (fun _ _ _ _ _ _ _ _ _ => rfl)
      intro side id permit loop running
      refine inv.coherent _ _ side id permit loop found ?_
      cases side <;> exact running
  | push found running => exact inv.push found running
  | release found pushed => exact inv.release found pushed

theorem inv_reachable {config : PoolConfig} {s : PoolSystem}
    (reached : (machine config).Reachable s) : Inv config s :=
  (machine config).invariant (fun _ initial => inv_initial initial)
    (fun _ _ _ _ inv stepped => inv_step inv stepped) reached

/-! ## Transparency and isolation -/

/-- The address held by the `PooledBuffer` of one direction of one connection. -/
def holder (s : PoolSystem) (i : Nat) (side : Side) : Option Nat :=
  match s.connections[i]?.bind fun c => c.half? side with
  | some (.running id _ _) => some id
  | _ => none

/-- No buffer is held twice, held and pooled, or pooled twice. -/
structure Exclusive (s : PoolSystem) : Prop where
  pooled : s.pool.buffers.Nodup
  held : ∀ (i j : Nat) (side side' : Side) (id : Nat), s.holder i side = some id →
    s.holder j side' = some id → i = j ∧ side = side'
  apart : ∀ (i : Nat) (side : Side) (id : Nat), s.holder i side = some id →
    id ∉ s.pool.buffers

theorem holder_eq_some {s : PoolSystem} {i : Nat} {side : Side} {id : Nat}
    (holds : s.holder i side = some id) : ∃ c permit loop,
      s.connections[i]? = some c ∧ c.half? side = some (.running id permit loop) := by
  unfold holder at holds
  split at holds <;> [skip; cases holds]
  rename_i other permit loop running
  obtain rfl := Option.some.inj holds
  obtain ⟨c, found, running⟩ := Option.bind_eq_some_iff.mp running
  exact ⟨c, permit, loop, found, running⟩

theorem Inv.exclusively {config : PoolConfig} {s : PoolSystem} (inv : Inv config s) :
    s.Exclusive := by
  refine ⟨?_, ?_, ?_⟩
  · rw [List.nodup_iff_count_le_one]
    intro id
    have once := inv.single id
    simp only [places] at once
    omega
  · intro i j side side' id holds holds'
    obtain ⟨c, permit, loop, found, running⟩ := holder_eq_some holds
    obtain ⟨d, permit', loop', found', running'⟩ := holder_eq_some holds'
    exact inv.exclusive found found' running running'
  · intro i side id holds member
    obtain ⟨c, permit, loop, found, running⟩ := holder_eq_some holds
    have once := inv.single id
    have pooled := List.count_pos_iff.mpr member
    have here := PooledConnection.holds_pos running
    have within := le_tally (PooledConnection.holds id) (List.mem_of_getElem? found)
    simp only [places] at once
    omega

/-- What one direction of a transfer has done to its own stream. -/
structure Transparent (loop : CopyDirection) : Prop where
  isPrefix : loop.destination.delivered <+: loop.source.produced
  complete : ∀ count, loop.result = some (.ok count) →
    loop.source.eof = true ∧ loop.destination.delivered = loop.source.produced ∧
      count = loop.source.produced.length ∧ loop.destination.shutdowns = [count]

/-- Whatever the buffers held and however the connections interleave: every buffer
has one owner, every direction delivers a prefix of its own stream, and a
direction that returns `Ok(n)` has delivered all of it and shut down once. -/
theorem pooled_copy_transparent (config : PoolConfig) {s : PoolSystem}
    (reached : (machine config).Reachable s) :
    s.Exclusive ∧ ∀ (i : Nat) (c : PooledConnection) (side : Side) (h : Half),
      s.connections[i]? = some c → c.half? side = some h → Transparent h.loop := by
  have inv := inv_reachable reached
  refine ⟨inv.exclusively, ?_⟩
  intro i c side h found half
  have valid := ((inv.sound c (List.mem_of_getElem? found)).half half).valid
  exact ⟨valid.faithful.isPrefix, fun count returned => CopyDirection.valid_ok valid returned⟩

/-- A first connection is dropped in the middle of a chunk; a second one gets its
dirty buffers and ends its first direction. -/
def recycled : List PoolLabel :=
  [.arrive, .acquire 0, .issue 0, .io 0 .client (.taken [1, 2]), .io 0 .client (.given 1),
    .arrive, .cancel 0, .push 0 .upstream, .push 0 .client, .release 0 .client,
    .release 0 .upstream, .acquire 1, .issue 1, .io 1 .client (.taken [9]),
    .io 1 .client (.given 1), .io 1 .client (.taken []), .io 1 .client (.shutdown (.ok ()))]

def smallConfig : PoolConfig := ⟨2, 2, by decide, by decide, by decide⟩

/-- A pool that starts with two buffers full of somebody's bytes. -/
def dirtyPool : PoolSystem := ⟨⟨2, [0, 1], 2, [[7, 7], [8, 8]]⟩, []⟩

theorem dirtyPool_initial : Initial smallConfig dirtyPool := by
  refine ⟨rfl, rfl, rfl, by decide, ?_, by decide⟩
  show ∀ id ∈ [0, 1], (dirtyPool.pool.load id).length = 2
  decide

def recycledEnd : PoolSystem := ((machine smallConfig).exec dirtyPool recycled).getD dirtyPool

theorem recycledEnd_reachable : (machine smallConfig).Reachable recycledEnd := by
  have ran : (machine smallConfig).exec dirtyPool recycled = some recycledEnd := by decide
  exact Machine.Reachable.exec (.start dirtyPool_initial) ran

theorem pooled_copy_transparent_recycled :
    recycledEnd.Exclusive ∧ ∃ c h, recycledEnd.connections[1]? = some c ∧
      c.half? .client = some h ∧ h.loop.buffer = [9, 2] ∧ h.loop.result = some (.ok 1) ∧
      Transparent h.loop := by
  have both := pooled_copy_transparent smallConfig recycledEnd_reachable
  exact ⟨both.1, _, _, rfl, rfl, by decide, by decide, both.2 1 _ .client _ rfl rfl⟩

/-! ## Bound and progress -/

/-- The memory bound, the conservation of permits, and that a connection waiting
for buffers always has two free permits or somebody else to wait for. -/
theorem buffer_pool_bounded (config : PoolConfig) {s : PoolSystem}
    (reached : (machine config).Reachable s) :
    s.pool.buffers.length + tally PooledConnection.held s.connections ≤ config.bufferCount ∧
    s.pool.permits + tally PooledConnection.permits s.connections = config.bufferCount ∧
    (∀ id ∈ s.pool.buffers, (s.pool.load id).length = config.bufferSize) ∧
    (∀ (i : Nat) (side : Side) (id : Nat), s.holder i side = some id →
      (s.pool.load id).length = config.bufferSize) ∧
    (∀ (i : Nat) (t : PoolSystem), s.step (.issue i) = some t →
      ∃ c, t.connections[i]? = some c ∧ c.permits = 2 ∧ c.held = 2) ∧
    (.waiting ∈ s.connections →
      2 ≤ s.pool.permits ∨ ∃ c ∈ s.connections, 0 < c.permits ∧ c ≠ .waiting) := by
  have inv := inv_reachable reached
  refine ⟨inv.bounded, inv.conserved, ?_, ?_, ?_, ?_⟩
  · intro id member
    rw [inv.sized id member, inv.size]
  · intro i side id holds
    obtain ⟨c, permit, loop, found, running⟩ := holder_eq_some holds
    rw [inv.coherent i c side id permit loop found running]
    exact ((inv.sound c (List.mem_of_getElem? found)).half running).2.1
  · intro i t stepped
    cases step_stepped stepped with
    | @issue _ permits found =>
        have two : permits = 2 := inv.sound _ (List.mem_of_getElem? found)
        have inside := (List.getElem?_eq_some_iff.mp found).1
        refine ⟨(s.issued permits).2, ?_, ?_, rfl⟩
        · simp [PoolSystem.change, inside]
        · rw [two]
          rfl
  · intro waiting
    by_cases free : 2 ≤ s.pool.permits
    · exact Or.inl free
    · right
      have total := inv.conserved
      have enough := config.two_le
      have held : 0 < tally PooledConnection.permits s.connections := by omega
      obtain ⟨c, member, pos⟩ := exists_pos_of_tally_pos held
      refine ⟨c, member, pos, ?_⟩
      rintro rfl
      exact absurd pos (by decide)

/-- One half of a pair is back, the other is held, and a second connection waits:
one permit is free and the one it waits for is held by somebody else. -/
def oddPermits : List PoolLabel :=
  [.arrive, .acquire 0, .issue 0, .io 0 .client (.taken []), .io 0 .client (.shutdown (.ok ())),
    .push 0 .client, .release 0 .client, .arrive]

def oddPermitsEnd : PoolSystem :=
  ((machine smallConfig).exec dirtyPool oddPermits).getD dirtyPool

theorem oddPermitsEnd_reachable : (machine smallConfig).Reachable oddPermitsEnd := by
  have ran : (machine smallConfig).exec dirtyPool oddPermits = some oddPermitsEnd := by decide
  exact Machine.Reachable.exec (.start dirtyPool_initial) ran

theorem buffer_pool_bounded_odd :
    oddPermitsEnd.pool.permits = 1 ∧
    oddPermitsEnd.pool.buffers.length + tally PooledConnection.held oddPermitsEnd.connections ≤ 2 ∧
    ∃ c ∈ oddPermitsEnd.connections, 0 < c.permits ∧ c ≠ .waiting := by
  have one : oddPermitsEnd.pool.permits = 1 := by decide
  obtain ⟨bounded, -, -, -, -, live⟩ := buffer_pool_bounded smallConfig oddPermitsEnd_reachable
  rcases live (by decide) with free | held
  · omega
  · exact ⟨one, bounded, held⟩

end PoolSystem

end Portrelay.Relay
