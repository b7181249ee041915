/-
# Metrics.RelayMetrics -- the counters of a relay, one atomic update at a time

Each `fetch_add` of `src/metrics.rs` is a `MetricUpdate`, and each method of
`RelayMetrics` is the list of updates it makes, in its order: other tasks run
between two of them.  The counters are natural numbers: what is proved of them is
about runs in which no cell passes 2^64, where `AtomicU64::fetch_add` wraps.  That
is out of reach of the connections and bytes of a run, and of the microseconds that
a histogram sums up as long as they add up to less than 2^64.  The gauge is an
integer, so that an underflow would be seen.

A `Meter` is a counter with what each update adds to it.
-/
import Mathlib.Algebra.GroupWithZero.Nat
import Mathlib.Algebra.BigOperators.Group.List.Basic

namespace Portrelay.Metrics

set_option autoImplicit false

def DURATION_BUCKETS_MILLIS : List Nat :=
  [1, 5, 10, 25, 50, 100, 250, 500, 1_000, 5_000, 30_000, 300_000]

def U64_MAX : Nat := 2 ^ 64 - 1

structure Histogram where
  buckets : List Nat
  count : Nat
  sumMicros : Nat
  deriving DecidableEq, Repr

inductive HistogramUpdate
  | bucket (index : Nat)
  | count
  | sumMicros (micros : Nat)
  deriving DecidableEq, Repr

namespace Histogram

def new : Histogram :=
  ⟨List.replicate DURATION_BUCKETS_MILLIS.length 0, 0, 0⟩

def apply (h : Histogram) : HistogramUpdate → Histogram
  | .bucket index => { h with buckets := h.buckets.modify index (· + 1) }
  | .count => { h with count := h.count + 1 }
  | .sumMicros micros => { h with sumMicros := h.sumMicros + micros }

theorem apply_buckets (h : Histogram) (u : HistogramUpdate) (k : Nat) :
    (h.apply u).buckets[k]? = h.buckets[k]?.map (· + if u = .bucket k then 1 else 0) := by
  cases u with
  | bucket index =>
      simp only [apply, List.getElem?_modify, HistogramUpdate.bucket.injEq]
      congr 1
      funext value
      split <;> rfl
  | count => simp [apply]
  | sumMicros micros => simp [apply]

theorem apply_count (h : Histogram) (u : HistogramUpdate) :
    (h.apply u).count = h.count + if u = .count then 1 else 0 := by
  cases u with
  | count => rfl
  | _ => rfl

/-- The first bucket a duration in nanoseconds fits into. -/
def bucketOf (nanos : Nat) : Option Nat :=
  let millis := min (nanos / 1_000_000) U64_MAX
  DURATION_BUCKETS_MILLIS.findIdx? fun bound => decide (millis ≤ bound)

/-- `observe`: that bucket, if any, then the count, then the sum. -/
def observe (nanos : Nat) : List HistogramUpdate :=
  (bucketOf nanos).toList.map .bucket ++ [.count, .sumMicros (min (nanos / 1_000) U64_MAX)]

end Histogram

structure RelayMetrics where
  activeConnections : Int
  connectionsAccepted : Nat
  connectionsRejected : Nat
  connectionsClosed : Nat
  upstreamConnectFailures : Nat
  upstreamConnectTimeouts : Nat
  idleTimeouts : Nat
  bytesClientToUpstream : Nat
  bytesUpstreamToClient : Nat
  connectionDuration : Histogram
  upstreamConnectDuration : Histogram
  deriving DecidableEq, Repr

inductive MetricUpdate
  | addActive
  | subActive
  | addAccepted
  | addRejected
  | addClosed
  | addUpstreamFailures
  | addUpstreamTimeouts
  | addIdleTimeouts
  | addClientToUpstream (bytes : Nat)
  | addUpstreamToClient (bytes : Nat)
  | connectionDuration (update : HistogramUpdate)
  | upstreamConnectDuration (update : HistogramUpdate)
  deriving DecidableEq, Repr

namespace RelayMetrics

def new : RelayMetrics :=
  ⟨0, 0, 0, 0, 0, 0, 0, 0, 0, .new, .new⟩

def apply (m : RelayMetrics) : MetricUpdate → RelayMetrics
  | .addActive => { m with activeConnections := m.activeConnections + 1 }
  | .subActive => { m with activeConnections := m.activeConnections - 1 }
  | .addAccepted => { m with connectionsAccepted := m.connectionsAccepted + 1 }
  | .addRejected => { m with connectionsRejected := m.connectionsRejected + 1 }
  | .addClosed => { m with connectionsClosed := m.connectionsClosed + 1 }
  | .addUpstreamFailures => { m with upstreamConnectFailures := m.upstreamConnectFailures + 1 }
  | .addUpstreamTimeouts => { m with upstreamConnectTimeouts := m.upstreamConnectTimeouts + 1 }
  | .addIdleTimeouts => { m with idleTimeouts := m.idleTimeouts + 1 }
  | .addClientToUpstream bytes =>
      { m with bytesClientToUpstream := m.bytesClientToUpstream + bytes }
  | .addUpstreamToClient bytes =>
      { m with bytesUpstreamToClient := m.bytesUpstreamToClient + bytes }
  | .connectionDuration update =>
      { m with connectionDuration := m.connectionDuration.apply update }
  | .upstreamConnectDuration update =>
      { m with upstreamConnectDuration := m.upstreamConnectDuration.apply update }

def accepted : List MetricUpdate := [.addAccepted, .addActive]

def rejected : List MetricUpdate := [.addRejected]

def closed (duration clientToUpstream upstreamToClient : Nat) : List MetricUpdate :=
  [.subActive, .addClosed, .addClientToUpstream clientToUpstream,
    .addUpstreamToClient upstreamToClient] ++
    (Histogram.observe duration).map .connectionDuration

def upstreamFailure : List MetricUpdate := [.addUpstreamFailures]

def upstreamTimeout : List MetricUpdate := [.addUpstreamTimeouts]

def idleTimeout : List MetricUpdate := [.addIdleTimeouts]

end RelayMetrics

/-- What a list of updates weighs. -/
def total (w : MetricUpdate → Nat) (updates : List MetricUpdate) : Nat := (updates.map w).sum

@[simp] theorem total_nil (w : MetricUpdate → Nat) : total w [] = 0 := rfl

@[simp] theorem total_cons (w : MetricUpdate → Nat) (u : MetricUpdate) (updates : List MetricUpdate) :
    total w (u :: updates) = w u + total w updates := by
  simp [total]

@[simp] theorem total_append (w : MetricUpdate → Nat) (front back : List MetricUpdate) :
    total w (front ++ back) = total w front + total w back := by
  simp [total]

/-- A counter, and what each update adds to it. -/
structure Meter where
  read : RelayMetrics → Nat
  weight : MetricUpdate → Nat
  apply : ∀ m u, read (m.apply u) = read m + weight u
  new : read .new = 0

namespace Meter

def accepted : Meter where
  read := RelayMetrics.connectionsAccepted
  weight | .addAccepted => 1 | _ => 0
  apply m u := by cases u <;> rfl
  new := rfl

def rejected : Meter where
  read := RelayMetrics.connectionsRejected
  weight | .addRejected => 1 | _ => 0
  apply m u := by cases u <;> rfl
  new := rfl

def closed : Meter where
  read := RelayMetrics.connectionsClosed
  weight | .addClosed => 1 | _ => 0
  apply m u := by cases u <;> rfl
  new := rfl

def clientToUpstream : Meter where
  read := RelayMetrics.bytesClientToUpstream
  weight | .addClientToUpstream bytes => bytes | _ => 0
  apply m u := by cases u <;> rfl
  new := rfl

def upstreamToClient : Meter where
  read := RelayMetrics.bytesUpstreamToClient
  weight | .addUpstreamToClient bytes => bytes | _ => 0
  apply m u := by cases u <;> rfl
  new := rfl

/-- The number of observations of `connection_duration`. -/
def durations : Meter where
  read m := m.connectionDuration.count
  weight | .connectionDuration .count => 1 | _ => 0
  apply m u := by
    cases u with
    | connectionDuration update => cases update <;> rfl
    | _ => rfl
  new := rfl

end Meter

/-- The updates a connection task makes on its way out. -/
def MetricUpdate.Closing : MetricUpdate → Prop
  | .addActive => False
  | .addAccepted => False
  | .addRejected => False
  | .upstreamConnectDuration _ => False
  | _ => True

/-- What an update adds to the gauge. -/
def MetricUpdate.raises : MetricUpdate → Nat
  | .addActive => 1
  | _ => 0

/-- What an update takes from the gauge. -/
def MetricUpdate.lowers : MetricUpdate → Nat
  | .subActive => 1
  | _ => 0

theorem RelayMetrics.apply_active (m : RelayMetrics) (u : MetricUpdate) :
    (m.apply u).activeConnections + u.lowers = m.activeConnections + u.raises := by
  cases u <;> simp [RelayMetrics.apply, MetricUpdate.raises, MetricUpdate.lowers]

/-- A weight that the closing calls of a connection, and no other updates of one, add
up to: `value` of the amounts reported. -/
structure Settles (w : MetricUpdate → Nat) (value : Nat × Nat → Nat) : Prop where
  closed : ∀ duration a b, total w (RelayMetrics.closed duration a b) = value (a, b)
  accepted : total w RelayMetrics.accepted = 0
  rejected : total w RelayMetrics.rejected = 0
  upstreamFailure : total w RelayMetrics.upstreamFailure = 0
  upstreamTimeout : total w RelayMetrics.upstreamTimeout = 0
  idleTimeout : total w RelayMetrics.idleTimeout = 0

theorem observe_total (w : MetricUpdate → Nat) (duration : Nat)
    (bucket : ∀ index, w (.connectionDuration (.bucket index)) = 0)
    (sum : ∀ micros, w (.connectionDuration (.sumMicros micros)) = 0) :
    total w ((Histogram.observe duration).map .connectionDuration) =
      w (.connectionDuration .count) := by
  unfold Histogram.observe
  cases Histogram.bucketOf duration with
  | none => simp [sum]
  | some index => simp [bucket, sum]

/-- Such a weight is known by what it gives to the single updates of `closed`. -/
theorem Settles.of_closed {w : MetricUpdate → Nat} {value : Nat × Nat → Nat}
    (bucket : ∀ index, w (.connectionDuration (.bucket index)) = 0)
    (sum : ∀ micros, w (.connectionDuration (.sumMicros micros)) = 0)
    (closed : ∀ a b, w .subActive + w .addClosed + w (.addClientToUpstream a) +
      w (.addUpstreamToClient b) + w (.connectionDuration .count) = value (a, b))
    (others : w .addAccepted + w .addActive + w .addRejected + w .addUpstreamFailures +
      w .addUpstreamTimeouts + w .addIdleTimeouts = 0) : Settles w value := by
  refine ⟨fun duration a b => ?_, ?_, ?_, ?_, ?_, ?_⟩
  · rw [RelayMetrics.closed, total_append, observe_total w duration bucket sum, ← closed]
    simp only [total_cons, total_nil]
    omega
  · simp only [RelayMetrics.accepted, total_cons, total_nil]
    omega
  · simp only [RelayMetrics.rejected, total_cons, total_nil]
    omega
  · simp only [RelayMetrics.upstreamFailure, total_cons, total_nil]
    omega
  · simp only [RelayMetrics.upstreamTimeout, total_cons, total_nil]
    omega
  · simp only [RelayMetrics.idleTimeout, total_cons, total_nil]
    omega

theorem lowers_settles : Settles MetricUpdate.lowers fun _ => 1 :=
  .of_closed (fun _ => rfl) (fun _ => rfl) (fun _ _ => rfl) rfl

theorem closed_settles : Settles Meter.closed.weight fun _ => 1 :=
  .of_closed (fun _ => rfl) (fun _ => rfl) (fun _ _ => rfl) rfl

theorem durations_settles : Settles Meter.durations.weight fun _ => 1 :=
  .of_closed (fun _ => rfl) (fun _ => rfl) (fun _ _ => rfl) rfl

theorem clientToUpstream_settles : Settles Meter.clientToUpstream.weight Prod.fst :=
  .of_closed (fun _ => rfl) (fun _ => rfl) (fun a _ => by simp [Meter.clientToUpstream]) rfl

theorem upstreamToClient_settles : Settles Meter.upstreamToClient.weight Prod.snd :=
  .of_closed (fun _ => rfl) (fun _ => rfl) (fun _ b => by simp [Meter.upstreamToClient]) rfl

theorem closed_closing (duration a b : Nat) :
    ∀ u ∈ RelayMetrics.closed duration a b, u.Closing := by
  intro u member
  rcases List.mem_append.mp member with early | observed
  · simp only [List.mem_cons, List.not_mem_nil, or_false] at early
    rcases early with rfl | rfl | rfl | rfl <;> trivial
  · obtain ⟨update, -, rfl⟩ := List.mem_map.mp observed
    trivial

end Portrelay.Metrics
