/-
# Relay.Socket -- what the forwarding loops see of their two sockets

A direction of a relayed connection reads one TCP stream and writes another.
The kernel and the peers are the environment: they decide how many bytes a call
moves, when a stream ends and which calls fail.  Here is the record of what they
did (`Source`, `Destination`) and the completed calls the loops react to (`Io`).
-/
import Mathlib.Data.List.Basic

namespace Portrelay.Relay

set_option autoImplicit false

/-- The `io::ErrorKind`s the relay produces or looks at. -/
inductive ErrorKind
  | brokenPipe
  | notConnected
  | timedOut
  | writeZero
  | unsupported
  | other
  deriving DecidableEq, Repr

/-- An `io::Error`: one reported by the operating system (or by Tokio), or one
made by the relay with a text of its own. -/
inductive IoError
  | os (kind : ErrorKind)
  | custom (kind : ErrorKind) (message : String)
  deriving DecidableEq, Repr

def IoError.kind : IoError → ErrorKind
  | .os kind => kind
  | .custom kind _ => kind

/-- The read side of a socket: the bytes completed reads have handed out, and
whether a read into a non-empty slice has returned 0. -/
structure Source where
  produced : List UInt8
  eof : Bool
  deriving DecidableEq, Repr

/-- The write side of a socket: the bytes it has accepted, and how many it had
accepted at each call that shut it down. -/
structure Destination where
  delivered : List UInt8
  shutdowns : List Nat
  deriving DecidableEq, Repr

def Source.fresh : Source := ⟨[], false⟩

def Destination.fresh : Destination := ⟨[], []⟩

/-- A read into a slice of `capacity` bytes that completed with `bytes`.  A read
into an empty slice returns 0 whatever the stream holds; a read of 0 bytes into
a non-empty slice is the end of the stream, and nothing follows it. -/
def Source.read (s : Source) (capacity : Nat) (bytes : List UInt8) : Option Source :=
  if bytes = [] then
    if capacity = 0 then some s else some { s with eof := true }
  else if bytes.length ≤ capacity ∧ s.eof = false then
    some { s with produced := s.produced ++ bytes }
  else none

def Destination.accept (d : Destination) (bytes : List UInt8) : Destination :=
  { d with delivered := d.delivered ++ bytes }

def Destination.shutdown (d : Destination) : Destination :=
  { d with shutdowns := d.shutdowns ++ [d.delivered.length] }

@[simp] theorem Destination.accept_delivered (d : Destination) (bytes : List UInt8) :
    (d.accept bytes).delivered = d.delivered ++ bytes := rfl

@[simp] theorem Destination.accept_shutdowns (d : Destination) (bytes : List UInt8) :
    (d.accept bytes).shutdowns = d.shutdowns := rfl

@[simp] theorem Destination.shutdown_delivered (d : Destination) :
    d.shutdown.delivered = d.delivered := rfl

@[simp] theorem Destination.shutdown_shutdowns (d : Destination) :
    d.shutdown.shutdowns = d.shutdowns ++ [d.delivered.length] := rfl

/-- A call of a forwarding loop that has completed.  `taken` and `given` are
`Ok`, with the bytes moved out of the source and the number moved into the
destination; `shutdown` carries what shutdown(2) itself returned. -/
inductive Io
  | taken (bytes : List UInt8)
  | takeFailed (error : IoError)
  | given (count : Nat)
  | giveFailed (error : IoError)
  | shutdown (outcome : Except IoError Unit)
  deriving DecidableEq

/-- Everything the specification of one direction says about its two sockets:
what went out is a prefix of what came in, the write side is shut down at most
once, and only when the stream has ended and all of it has been delivered. -/
structure Faithful (source : Source) (destination : Destination) : Prop where
  isPrefix : destination.delivered <+: source.produced
  sealed : destination.shutdowns ≠ [] →
    source.eof = true ∧ destination.delivered = source.produced ∧
      destination.shutdowns = [destination.delivered.length]

theorem Source.read_empty_eq_some {s t : Source} {capacity : Nat} (pos : 0 < capacity)
    (done : s.read capacity [] = some t) : t = { s with eof := true } := by
  simp only [Source.read, if_true, Nat.ne_of_gt pos, if_false, Option.some.injEq] at done
  exact done.symm

theorem Source.read_eq_some {s t : Source} {capacity : Nat} {bytes : List UInt8}
    (some_bytes : bytes ≠ []) (done : s.read capacity bytes = some t) :
    bytes.length ≤ capacity ∧ s.eof = false ∧ t = { s with produced := s.produced ++ bytes } := by
  simp only [Source.read, some_bytes, if_false] at done
  split at done
  · rename_i fits
    exact ⟨fits.1, fits.2, (Option.some.inj done).symm⟩
  · cases done

end Portrelay.Relay
