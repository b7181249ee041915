/-
# Relay.BufferPool -- the pool of copy buffers one relay's connections share

`BufferPool` and `PooledBuffer` of `src/relay.rs`.  The vector of free buffers is
not bounded by itself: what bounds it is a semaphore of `buffer_count` permits, two
of which are taken by `acquire_pair` and each of which is given back when one
`PooledBuffer` is dropped, behind the push of its buffer.

A buffer is an allocation on the heap; the pool and the `PooledBuffer`s hold
addresses.  Recycling moves an address and leaves the bytes behind it as they
were, so that two holders of one address would read each other's data: that none
exist is proved, not built in.
-/
import Mathlib.Data.List.Basic

namespace Portrelay.Relay

set_option autoImplicit false

/-- `buffers` is the `Vec` behind the mutex, its end first; `permits` are the
semaphore's free permits; `heap` holds every buffer ever allocated. -/
structure BufferPool where
  bufferSize : Nat
  buffers : List Nat
  permits : Nat
  heap : List (List UInt8)
  deriving DecidableEq, Repr

/-- The parameters `Settings::validate` lets through. -/
structure PoolConfig where
  bufferSize : Nat
  bufferCount : Nat
  size_pos : 0 < bufferSize
  two_le : 2 ≤ bufferCount
  even : bufferCount % 2 = 0

namespace BufferPool

def new (c : PoolConfig) : BufferPool :=
  ⟨c.bufferSize, [], c.bufferCount, []⟩

/-- `acquire_many_owned(count)`, all or nothing. -/
def acquireMany (p : BufferPool) (count : Nat) : Option BufferPool :=
  if count ≤ p.permits then some { p with permits := p.permits - count } else none

/-- The bytes at an address. -/
def load (p : BufferPool) (id : Nat) : List UInt8 := p.heap[id]?.getD []

def store (p : BufferPool) (id : Nat) (bytes : List UInt8) : BufferPool :=
  { p with heap := p.heap.set id bytes }

/-- `buffers.pop().unwrap_or_else(|| vec![0; buffer_size])`. -/
def pop (p : BufferPool) : Nat × BufferPool :=
  match p.buffers with
  | id :: rest => (id, { p with buffers := rest })
  | [] => (p.heap.length, { p with heap := p.heap ++ [List.replicate p.bufferSize 0] })

/-- The first half of `PooledBuffer::drop`. -/
def push (p : BufferPool) (id : Nat) : BufferPool :=
  { p with buffers := id :: p.buffers }

/-- The second half: the permit goes back to the semaphore. -/
def release (p : BufferPool) (permits : Nat) : BufferPool :=
  { p with permits := p.permits + permits }

/-- Every pooled buffer is `buffer_size` long. -/
def Sized (p : BufferPool) : Prop := ∀ id ∈ p.buffers, (p.load id).length = p.bufferSize

@[simp] theorem pop_bufferSize (p : BufferPool) : p.pop.2.bufferSize = p.bufferSize := by
  unfold pop; split <;> rfl

@[simp] theorem pop_permits (p : BufferPool) : p.pop.2.permits = p.permits := by
  unfold pop; split <;> rfl

theorem lt_of_load (p : BufferPool) {id : Nat} (stored : 0 < (p.load id).length) :
    id < p.heap.length := by
  by_contra past
  have outside : p.load id = [] := by
    unfold load
    rw [List.getElem?_eq_none (Nat.le_of_not_lt past)]
    rfl
  rw [outside] at stored
  exact absurd stored (by decide)

/-- Popping a buffer allocates behind what is there and changes no contents. -/
theorem pop_load {p : BufferPool} {id : Nat} (stored : id < p.heap.length) :
    p.pop.2.load id = p.load id := by
  unfold pop
  split
  · rfl
  · simp only [load]
    rw [List.getElem?_append_left stored]

theorem pop_heap_length (p : BufferPool) : p.heap.length ≤ p.pop.2.heap.length := by
  unfold pop; split <;> simp

theorem pop_sized {p : BufferPool} (sized : p.Sized) :
    p.pop.2.Sized ∧ (p.pop.2.load p.pop.1).length = p.bufferSize := by
  cases stock : p.buffers with
  | nil =>
      have emptied : p.pop.2.Sized := by
        intro id member
        simp [pop, stock] at member
      exact ⟨emptied, by simp [pop, stock, load]⟩
  | cons top rest =>
      simp only [pop, stock]
      refine ⟨fun id member => sized id ?_, sized top ?_⟩
      · rw [stock]; exact List.mem_cons_of_mem _ member
      · rw [stock]; exact List.mem_cons_self ..

theorem pop_length (p : BufferPool) :
    p.pop.2.buffers.length = p.buffers.length - 1 := by
  unfold pop; split <;> simp [*]

/-- `pop` hands out a pooled address or a new one, and nothing else changes hands. -/
theorem pop_count (p : BufferPool) (id : Nat) :
    (p.pop.2.buffers.count id + (if p.pop.1 = id then 1 else 0) = p.buffers.count id ∧
      p.pop.2.heap.length = p.heap.length) ∨
    (p.pop.2.buffers.count id = p.buffers.count id ∧ p.pop.1 = p.heap.length ∧
      p.pop.2.heap.length = p.heap.length + 1) := by
  cases stock : p.buffers with
  | nil => right; simp [pop, stock]
  | cons top rest => left; simp [pop, stock, List.count_cons]

theorem store_load_ne {p : BufferPool} {id other : Nat} (bytes : List UInt8) (ne : other ≠ id) :
    (p.store id bytes).load other = p.load other := by
  simp only [load, store, List.getElem?_set_ne (Ne.symm ne)]

theorem store_load {p : BufferPool} {id : Nat} (bytes : List UInt8) (stored : id < p.heap.length) :
    (p.store id bytes).load id = bytes := by
  simp only [load, store, List.getElem?_set_self stored, Option.getD_some]

end BufferPool

end Portrelay.Relay
