/-
# Metrics.Buckets -- what the buckets of a histogram count

`observe` adds a duration to the first bucket it fits into, after cutting it to whole
milliseconds, and `render` prints running sums.

* `cumulative_firstUnder` -- the running sums of counts by first bound count what is at
  most each bound.
* `buckets_exact_iff` -- every bucket counts the durations up to its label, if and only if
  none is above a bound by less than a millisecond.
-/
import Portrelay.Metrics.Render

namespace Portrelay.Metrics

open Portrelay.Theory Portrelay.Theory.Exposition

set_option autoImplicit false

/-! ## Counting by the first bound -/

/-- How many values have each bound for the first they do not exceed. -/
def firstUnder (bounds values : List Nat) : List Nat :=
  (List.range bounds.length).map fun k =>
    values.countP fun value => decide (bounds.findIdx? (fun bound => decide (value ≤ bound)) = some k)

theorem firstUnder_cons (bound : Nat) (bounds values : List Nat) :
    firstUnder (bound :: bounds) values =
      values.countP (fun value => decide (value ≤ bound)) ::
        firstUnder bounds (values.filter fun value => !decide (value ≤ bound)) := by
  rw [firstUnder, List.length_cons, List.range_succ_eq_map, List.map_cons, List.map_map, firstUnder]
  congr 1
  · apply List.countP_congr
    intro value _
    by_cases fits : value ≤ bound <;> simp [List.findIdx?_cons, fits]
  · apply List.map_congr_left
    intro k _
    rw [Function.comp_apply, List.countP_filter]
    apply List.countP_congr
    intro value _
    by_cases fits : value ≤ bound <;> simp [List.findIdx?_cons, fits]

/-- Those up to a bound are those up to a lower one and the others up to it. -/
theorem countP_le_split {lower higher : Nat} (le : lower ≤ higher) (values : List Nat) :
    values.countP (fun value => decide (value ≤ higher)) =
      values.countP (fun value => decide (value ≤ lower)) +
        (values.filter fun value => !decide (value ≤ lower)).countP
          fun value => decide (value ≤ higher) := by
  induction values with
  | nil => rfl
  | cons value values ih =>
      by_cases low : value ≤ lower
      · have high : value ≤ higher := Nat.le_trans low le
        simp only [List.countP_cons, List.filter_cons, low, high, decide_true, Bool.not_true,
          if_true, ih]
        simp only [Bool.false_eq_true, if_false]
        omega
      · simp only [List.countP_cons, List.filter_cons, low, decide_false, Bool.not_false, if_true, ih]
        simp only [Bool.false_eq_true, if_false]
        omega

/-- The running sums count the values up to each bound. -/
theorem cumulative_firstUnder {bounds : List Nat} (sorted : bounds.Pairwise (· ≤ ·))
    (before : Nat) (values : List Nat) :
    cumulative before (firstUnder bounds values) =
      bounds.map fun bound => before + values.countP fun value => decide (value ≤ bound) := by
  induction bounds generalizing before values with
  | nil => rfl
  | cons bound bounds ih =>
      obtain ⟨least, sorted⟩ := List.pairwise_cons.mp sorted
      rw [firstUnder_cons, cumulative, ih sorted, List.map_cons, List.cons_inj_right]
      apply List.map_congr_left
      intro higher member
      rw [countP_le_split (least higher member) values, Nat.add_assoc]

/-! ## After any interleaving of observations -/

namespace Histogram

theorem foldl_buckets (updates : List HistogramUpdate) (h : Histogram) (k : Nat) :
    (updates.foldl apply h).buckets[k]? =
      h.buckets[k]?.map (· + updates.count (.bucket k)) := by
  induction updates generalizing h with
  | nil => simp
  | cons u updates ih =>
      rw [List.foldl_cons, ih, apply_buckets, Option.map_map]
      congr 1
      funext value
      simp only [Function.comp_apply, List.count_cons, beq_iff_eq]
      omega

theorem foldl_count (updates : List HistogramUpdate) (h : Histogram) :
    (updates.foldl apply h).count = h.count + updates.count .count := by
  induction updates generalizing h with
  | nil => rfl
  | cons u updates ih =>
      rw [List.foldl_cons, ih, apply_count, List.count_cons]
      simp only [beq_iff_eq]
      omega

/-- What `observe` compares with the bounds. -/
def millis (nanos : Nat) : Nat := min (nanos / 1_000_000) U64_MAX

theorem count_observe_bucket (durations : List Nat) (k : Nat) :
    (durations.flatMap observe).count (.bucket k) =
      durations.countP fun nanos => decide (bucketOf nanos = some k) := by
  induction durations with
  | nil => rfl
  | cons nanos durations ih =>
      rw [List.flatMap_cons, List.count_append, ih, List.countP_cons, observe, List.count_append]
      cases bucketOf nanos with
      | none => simp
      | some own => simp [List.count_cons, Nat.add_comm]

theorem count_observe_count (durations : List Nat) :
    (durations.flatMap observe).count .count = durations.length := by
  induction durations with
  | nil => rfl
  | cons nanos durations ih =>
      rw [List.flatMap_cons, List.count_append, ih, List.length_cons, observe, List.count_append]
      cases bucketOf nanos with
      | none => simp [Nat.add_comm]
      | some own => simp [Nat.add_comm]

/-- What a histogram holds once these durations are observed, in whatever order their
updates were made. -/
theorem observed_buckets {updates : List HistogramUpdate} {durations : List Nat}
    (interleaved : updates.Perm (durations.flatMap observe)) :
    (updates.foldl apply .new).buckets =
      firstUnder DURATION_BUCKETS_MILLIS (durations.map millis) := by
  apply List.ext_getElem?
  intro k
  rw [foldl_buckets, interleaved.count_eq, count_observe_bucket, new, firstUnder,
    List.getElem?_replicate, List.getElem?_map]
  by_cases inside : k < DURATION_BUCKETS_MILLIS.length
  · rw [if_pos inside, List.getElem?_range inside, Option.map_some, Option.map_some, Nat.zero_add,
      List.countP_map]
    rfl
  · have past : (List.range DURATION_BUCKETS_MILLIS.length)[k]? = none := by
      apply List.getElem?_eq_none
      rw [List.length_range]
      omega
    rw [if_neg inside, past, Option.map_none, Option.map_none]

theorem observed_count {updates : List HistogramUpdate} {durations : List Nat}
    (interleaved : updates.Perm (durations.flatMap observe)) :
    (updates.foldl apply .new).count = durations.length := by
  rw [foldl_count, interleaved.count_eq, count_observe_count]
  exact Nat.zero_add _

end Histogram

/-! ## What is printed -/

/-- A duration is at most what a label says in seconds. -/
def upTo (le : List Char) (nanos : Nat) : Bool :=
  match parseValue le with
  | some bound => decide (nanos * 10 ^ bound.decimals ≤ bound.mantissa * 1_000_000_000)
  | none => false

/-- The lines of a histogram whose buckets count what their labels say. -/
def exactRows (metricName : List Char) (durations : List Nat) (sumMicros : Nat) : List Row :=
  (DURATION_BUCKETS_MILLIS.map fun bound =>
    ⟨metricName ++ "_bucket".toList, some (secondsString bound),
      ⟨durations.countP (upTo (secondsString bound)), 0⟩⟩) ++
  [⟨metricName ++ "_bucket".toList, some "+Inf".toList, ⟨durations.length, 0⟩⟩,
    ⟨metricName ++ "_sum".toList, none, ⟨sumSeconds sumMicros, 6⟩⟩,
    ⟨metricName ++ "_count".toList, none, ⟨durations.length, 0⟩⟩]

/-- The label of a bucket is its bound in seconds. -/
theorem upTo_secondsString {bound : Nat} (member : bound ∈ DURATION_BUCKETS_MILLIS) (nanos : Nat) :
    upTo (secondsString bound) nanos = decide (nanos ≤ bound * 1_000_000) := by
  have read : ∀ bound ∈ DURATION_BUCKETS_MILLIS,
      parseValue (secondsString bound) = some ⟨bound / 1_000, 0⟩ ∧ bound % 1_000 = 0 ∨
      parseValue (secondsString bound) = some ⟨bound, 3⟩ := by
    decide +kernel
  rcases read bound member with ⟨seconds, whole⟩ | millis
  · rw [upTo, seconds, decide_eq_decide]
    show nanos * 10 ^ 0 ≤ bound / 1_000 * 1_000_000_000 ↔ _
    omega
  · rw [upTo, millis, decide_eq_decide]
    show nanos * 10 ^ 3 ≤ bound * 1_000_000_000 ↔ _
    omega

/-- A bucket counts what is less than a millisecond above its bound, too. -/
theorem printed_finite {updates : List HistogramUpdate} {durations : List Nat}
    (interleaved : updates.Perm (durations.flatMap Histogram.observe)) :
    (updates.foldl Histogram.apply .new).printed.finite = DURATION_BUCKETS_MILLIS.map fun bound =>
      durations.countP fun nanos => decide (nanos < (bound + 1) * 1_000_000) := by
  have sorted : DURATION_BUCKETS_MILLIS.Pairwise (· ≤ ·) := by decide
  have small : ∀ bound ∈ DURATION_BUCKETS_MILLIS, bound < U64_MAX := by decide
  rw [Histogram.printed, Histogram.observed_buckets interleaved, cumulative_firstUnder sorted]
  apply List.map_congr_left
  intro bound member
  rw [Nat.zero_add, List.countP_map]
  apply List.countP_congr
  intro nanos _
  have fits := small bound member
  rw [Function.comp_apply, decide_eq_true_iff, decide_eq_true_iff, Histogram.millis]
  omega

/-- Of running sums `count`, the lines are exact iff each is what its label admits. -/
theorem rows_eq_exactRows_iff (metricName : List Char) (durations : List Nat) {p : Printed}
    {count : Nat → Nat} (finite : p.finite = DURATION_BUCKETS_MILLIS.map count)
    (inf : p.inf = durations.length) (total : p.count = durations.length) :
    p.rows metricName = exactRows metricName durations p.sumMicros ↔
      ∀ bound ∈ DURATION_BUCKETS_MILLIS, count bound = durations.countP (upTo (secondsString bound)) := by
  have pairs : DURATION_BUCKETS_MILLIS.zip (DURATION_BUCKETS_MILLIS.map count) =
      DURATION_BUCKETS_MILLIS.map fun bound => (bound, count bound) := by
    rw [← List.zip_map', List.map_id']
  rw [Printed.rows, exactRows, finite, inf, total, List.append_left_inj, pairs, List.map_map,
    List.map_inj_left]
  refine forall_congr' fun bound => forall_congr' fun _ => ?_
  simp only [Function.comp_apply, Row.mk.injEq, Value.mk.injEq, true_and, and_true]

/-- Two conditions of which one implies the other hold of as many elements iff they agree. -/
theorem countP_eq_iff {α : Type} {p q : α → Bool} {xs : List α}
    (imp : ∀ x ∈ xs, p x = true → q x = true) :
    xs.countP q = xs.countP p ↔ ∀ x ∈ xs, q x = true → p x = true := by
  induction xs with
  | nil => simp
  | cons x xs ih =>
      have le := List.countP_mono_left fun y member => imp y (List.mem_cons_of_mem x member)
      have first := imp x List.mem_cons_self
      rw [List.forall_mem_cons, ← ih fun y member => imp y (List.mem_cons_of_mem x member),
        List.countP_cons, List.countP_cons]
      cases here : p x with
      | true =>
          rw [first here]
          simp
      | false =>
          cases q x with
          | true =>
              simp
              omega
          | false => simp

/-- Every bucket counts the observed durations that its label admits, and the last bucket
and the count all of them, if and only if no duration is above a bound by less than a
millisecond. -/
theorem buckets_exact_iff (metricName : List Char) (durations : List Nat)
    (updates : List HistogramUpdate)
    (interleaved : updates.Perm (durations.flatMap Histogram.observe)) :
    (updates.foldl Histogram.apply .new).printed.rows metricName =
        exactRows metricName durations (updates.foldl Histogram.apply .new).sumMicros ↔
      ∀ nanos ∈ durations, ∀ bound ∈ DURATION_BUCKETS_MILLIS,
        ¬ (bound * 1_000_000 < nanos ∧ nanos < (bound + 1) * 1_000_000) := by
  have count := Histogram.observed_count interleaved
  have each : ∀ bound ∈ DURATION_BUCKETS_MILLIS,
      durations.countP (fun nanos => decide (nanos < (bound + 1) * 1_000_000)) =
        durations.countP (upTo (secondsString bound)) ↔
      ∀ nanos ∈ durations, ¬ (bound * 1_000_000 < nanos ∧ nanos < (bound + 1) * 1_000_000) := by
    intro bound member
    rw [countP_eq_iff]
    · refine forall_congr' fun nanos => forall_congr' fun _ => ?_
      rw [upTo_secondsString member, decide_eq_true_iff, decide_eq_true_iff]
      omega
    · intro nanos _
      rw [upTo_secondsString member, decide_eq_true_iff, decide_eq_true_iff]
      omega
  have lines := rows_eq_exactRows_iff metricName durations (printed_finite interleaved) count count
  refine lines.trans ?_
  constructor
  · intro exactly nanos observed bound member
    exact (each bound member).mp (exactly bound member) nanos observed
  · intro apart bound member
    exact (each bound member).mpr fun nanos observed => apart nanos observed bound member

theorem buckets_exact_iff_edge :
    ((Histogram.observe 1_000_000).foldl Histogram.apply .new).printed.rows "m".toList =
        exactRows "m".toList [1_000_000]
          ((Histogram.observe 1_000_000).foldl Histogram.apply .new).sumMicros ↔
      ∀ nanos ∈ [1_000_000], ∀ bound ∈ DURATION_BUCKETS_MILLIS,
        ¬ (bound * 1_000_000 < nanos ∧ nanos < (bound + 1) * 1_000_000) :=
  buckets_exact_iff "m".toList [1_000_000] (Histogram.observe 1_000_000) (List.Perm.refl _)

/-- A duration of 1.5 ms is counted as one of at most 1 ms. -/
theorem cut_millisecond :
    ⟨"m_bucket".toList, some "0.001".toList, ⟨1, 0⟩⟩ ∈
        ((Histogram.observe 1_500_000).foldl Histogram.apply .new).printed.rows "m".toList ∧
      [1_500_000].countP (upTo "0.001".toList) = 0 := by
  decide +kernel

end Portrelay.Metrics
