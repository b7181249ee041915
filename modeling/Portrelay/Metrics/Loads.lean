/-
# Metrics.Loads -- a render as the atomic loads it makes

`MetricsRegistry::render` reads each relay's counters one atomic load at a time
(`RelayMetrics.cells`) and prints what it loaded (`scrapedSamples`).

* `scrapedSamples_cells` -- loads that nothing comes between print the registry's samples.
* `scrapedSamples_noLess` -- loads that have not gone down print no smaller a sample, the
  gauge apart.
-/
import Portrelay.Metrics.PrintedSum
import Portrelay.Metrics.HistogramRace

namespace Portrelay.Metrics

open Portrelay.Theory Portrelay.Theory.Exposition

set_option autoImplicit false

/-! ## The loads of a relay -/

/-- What `RelayMetrics::render` loads after the gauge. -/
def RelayMetrics.counters (m : RelayMetrics) : List Nat :=
  [m.connectionsAccepted, m.connectionsRejected, m.connectionsClosed, m.upstreamConnectFailures,
    m.upstreamConnectTimeouts, m.idleTimeouts, m.bytesClientToUpstream, m.bytesUpstreamToClient] ++
  m.connectionDuration.cells ++ m.upstreamConnectDuration.cells

/-- What `RelayMetrics::render` loads, in its order. -/
def RelayMetrics.cells (m : RelayMetrics) : List Nat := m.activeU64 :: m.counters

/-- How many cells a relay has. -/
def RELAY_CELLS : Nat := 39

/-- The rows printed from a relay's loads. -/
def scrapedRows (loads : List Nat) : List Row :=
  ((counterNames.zip (loads.take 9)).map fun (name, value) => ⟨name, none, ⟨value, 0⟩⟩) ++
  (printed ((loads.drop 9).take 15)).toList.flatMap
    (·.rows "portrelay_connection_duration_seconds".toList) ++
  (printed (loads.drop 24)).toList.flatMap
    (·.rows "portrelay_upstream_connect_duration_seconds".toList)

/-- The samples printed from all relays' loads, one relay after the other. -/
def scrapedSamples : List (List Char) → List Nat → List Sample
  | [], _ => []
  | name :: names, loads =>
      (scrapedRows (loads.take RELAY_CELLS)).map (Row.sample name) ++
        scrapedSamples names (loads.drop RELAY_CELLS)

/-! ## Loads with nothing between them -/

/-- The histograms have all their buckets. -/
def RelayMetrics.Wide (m : RelayMetrics) : Prop :=
  m.connectionDuration.buckets.length = 12 ∧ m.upstreamConnectDuration.buckets.length = 12

theorem Histogram.cells_length (h : Histogram) (wide : h.buckets.length = 12) :
    h.cells.length = 15 := by
  rw [Histogram.cells, List.length_append, wide]
  rfl

theorem Histogram.printed_cells (h : Histogram) (wide : h.buckets.length = 12) :
    Metrics.printed h.cells = some h.printed := by
  have front : h.cells.take 12 = h.buckets := List.take_left' wide
  have back : h.cells.drop 12 = [h.count, h.sumMicros, h.count] := List.drop_left' wide
  have width : DURATION_BUCKETS_MILLIS.length = 12 := rfl
  simp only [Metrics.printed, width, front, back]
  rfl

namespace RelayMetrics

theorem cells_length {m : RelayMetrics} (wide : m.Wide) : m.cells.length = RELAY_CELLS := by
  simp only [cells, counters, List.length_cons, List.length_append, List.length_nil,
    Histogram.cells_length _ wide.1, Histogram.cells_length _ wide.2, RELAY_CELLS]

theorem new_wide : new.Wide := ⟨rfl, rfl⟩

theorem apply_wide {m : RelayMetrics} (wide : m.Wide) (u : MetricUpdate) : (m.apply u).Wide := by
  have kept : ∀ (h : Histogram) (u : HistogramUpdate),
      (h.apply u).buckets.length = h.buckets.length := by
    intro h u
    cases u with
    | bucket index => exact List.length_modify _ _ _
    | count => rfl
    | sumMicros micros => rfl
  cases u with
  | connectionDuration update => exact ⟨(kept _ update).trans wide.1, wide.2⟩
  | upstreamConnectDuration update => exact ⟨wide.1, (kept _ update).trans wide.2⟩
  | _ => exact wide

theorem scrapedRows_cells {m : RelayMetrics} (wide : m.Wide) : scrapedRows m.cells = m.rows := by
  have first := Histogram.cells_length _ wide.1
  have durations : (m.cells.drop 9).take 15 = m.connectionDuration.cells := List.take_left' first
  have connects : m.cells.drop 24 = m.upstreamConnectDuration.cells := by
    show (m.connectionDuration.cells ++ m.upstreamConnectDuration.cells).drop 15 = _
    exact List.drop_left' first
  rw [scrapedRows, durations, connects, Histogram.printed_cells _ wide.1,
    Histogram.printed_cells _ wide.2]
  simp only [Option.toList_some, List.flatMap_cons, List.flatMap_nil, List.append_nil]
  rfl

end RelayMetrics

/-- A render that nothing interrupts is `MetricsRegistry::render` as one step. -/
theorem scrapedSamples_cells (registry : MetricsRegistry)
    (wide : ∀ relay ∈ registry.relays, relay.metrics.Wide) :
    scrapedSamples (registry.relays.map (·.name)) (registry.relays.flatMap (·.metrics.cells)) =
      registry.samples := by
  rw [MetricsRegistry.samples]
  generalize registry.relays = relays at wide
  induction relays with
  | nil => rfl
  | cons relay relays ih =>
      have own := wide relay List.mem_cons_self
      have width := RelayMetrics.cells_length own
      rw [List.map_cons, List.flatMap_cons, List.flatMap_cons, scrapedSamples,
        List.take_left' width, List.drop_left' width, RelayMetrics.scrapedRows_cells own,
        ih fun other member => wide other (List.mem_cons_of_mem _ member)]

/-! ## Loads that have not gone down -/

/-- The same series, and no smaller a value unless it is the gauge. -/
structure NoLess (old new : Sample) : Prop where
  name : old.name = new.name
  labels : old.labels = new.labels
  decimals : old.value.decimals = new.value.decimals
  value : old.name ≠ "portrelay_active_connections".toList →
    old.value.mantissa ≤ new.value.mantissa

theorem cumulative_le {old new : List Nat} (le : List.Forall₂ (· ≤ ·) old new) {before before' : Nat}
    (less : before ≤ before') :
    List.Forall₂ (· ≤ ·) (cumulative before old) (cumulative before' new) := by
  induction le generalizing before before' with
  | nil => exact .nil
  | cons first _ ih => exact .cons (Nat.add_le_add less first) (ih (Nat.add_le_add less first))

theorem noLess_row (relay name : List Char) (le : Option (List Char)) (decimals : Nat) {old new : Nat}
    (less : old ≤ new) :
    NoLess (Row.sample relay ⟨name, le, ⟨old, decimals⟩⟩)
      (Row.sample relay ⟨name, le, ⟨new, decimals⟩⟩) :=
  ⟨rfl, rfl, rfl, fun _ => less⟩

theorem buckets_noLess {old new : List Nat} (le : List.Forall₂ (· ≤ ·) old new)
    (relay metricName : List Char) (bounds : List Nat) :
    List.Forall₂ NoLess
      (((bounds.zip old).map fun (bound, value) =>
        (⟨metricName ++ "_bucket".toList, some (secondsString bound), ⟨value, 0⟩⟩ : Row)).map
          (Row.sample relay))
      (((bounds.zip new).map fun (bound, value) =>
        (⟨metricName ++ "_bucket".toList, some (secondsString bound), ⟨value, 0⟩⟩ : Row)).map
          (Row.sample relay)) := by
  induction le generalizing bounds with
  | nil =>
      rw [List.zip_nil_right]
      exact .nil
  | cons first _ ih =>
      cases bounds with
      | nil => exact .nil
      | cons bound bounds => exact .cons (noLess_row relay _ _ 0 first) (ih bounds)

/-- The rows of two prints of one histogram. -/
theorem Printed.rows_noLess {p q : Printed} (finite : List.Forall₂ (· ≤ ·) p.finite q.finite)
    (inf : p.inf ≤ q.inf) (sum : p.sumMicros ≤ q.sumMicros) (count : p.count ≤ q.count)
    (relay metricName : List Char) :
    List.Forall₂ NoLess ((p.rows metricName).map (Row.sample relay))
      ((q.rows metricName).map (Row.sample relay)) := by
  rw [Printed.rows, Printed.rows, List.map_append, List.map_append]
  refine List.rel_append (buckets_noLess finite relay metricName _) ?_
  exact .cons (noLess_row relay _ _ 0 inf) (.cons (noLess_row relay _ _ 6 (sumSeconds_le sum))
    (.cons (noLess_row relay _ _ 0 count) .nil))

theorem printed_noLess {old new : List Nat} (le : List.Forall₂ (· ≤ ·) old new)
    (all : old.length = 15) (relay metricName : List Char) :
    List.Forall₂ NoLess
      (((printed old).toList.flatMap (·.rows metricName)).map (Row.sample relay))
      (((printed new).toList.flatMap (·.rows metricName)).map (Row.sample relay)) := by
  have width : DURATION_BUCKETS_MILLIS.length = 12 := rfl
  have all' : new.length = 15 := le.length_eq ▸ all
  obtain ⟨inf, sum, count, back⟩ := List.length_eq_three.mp (show (old.drop 12).length = 3 by
    rw [List.length_drop, all])
  obtain ⟨inf', sum', count', back'⟩ := List.length_eq_three.mp (show (new.drop 12).length = 3 by
    rw [List.length_drop, all'])
  have last := List.forall₂_drop 12 le
  rw [back, back'] at last
  simp only [List.forall₂_cons, List.forall₂_nil_left_iff, and_true] at last
  have shown : printed old = some ⟨cumulative 0 (old.take 12), inf, sum, count⟩ := by
    simp only [printed, width, back]
  have shown' : printed new = some ⟨cumulative 0 (new.take 12), inf', sum', count'⟩ := by
    simp only [printed, width, back']
  rw [shown, shown']
  simp only [Option.toList_some, List.flatMap_cons, List.flatMap_nil, List.append_nil]
  exact Printed.rows_noLess (cumulative_le (List.forall₂_take 12 le) (Nat.le_refl 0)) last.1 last.2.1
    last.2.2 relay metricName

/-- The counters of two prints of one relay. -/
theorem counters_noLess {old new : List Nat} (le : List.Forall₂ (· ≤ ·) old new) (relay : List Char)
    (names : List (List Char)) :
    List.Forall₂ NoLess
      (((names.zip old).map fun (name, value) => (⟨name, none, ⟨value, 0⟩⟩ : Row)).map
        (Row.sample relay))
      (((names.zip new).map fun (name, value) => (⟨name, none, ⟨value, 0⟩⟩ : Row)).map
        (Row.sample relay)) := by
  induction le generalizing names with
  | nil =>
      rw [List.zip_nil_right]
      exact .nil
  | cons first _ ih =>
      cases names with
      | nil => exact .nil
      | cons name names => exact .cons (noLess_row relay name none 0 first) (ih names)

theorem scrapedRows_noLess {gauge gauge' : Nat} {old new : List Nat}
    (le : List.Forall₂ (· ≤ ·) old new) (all : old.length = 38) (relay : List Char) :
    List.Forall₂ NoLess ((scrapedRows (gauge :: old)).map (Row.sample relay))
      ((scrapedRows (gauge' :: new)).map (Row.sample relay)) := by
  rw [scrapedRows, scrapedRows]
  simp only [List.map_append]
  refine List.rel_append (List.rel_append ?_ ?_) ?_
  · exact .cons ⟨rfl, rfl, rfl, fun other => absurd rfl other⟩
      (counters_noLess (List.forall₂_take 8 le) relay counterNames.tail)
  · exact printed_noLess (List.forall₂_take 15 (List.forall₂_drop 8 le))
      (by rw [List.length_take, List.length_drop, all]; rfl) relay _
  · exact printed_noLess (List.forall₂_drop 23 le) (by rw [List.length_drop, all]) relay _

/-- Loads of all relays that are no smaller, the gauges apart. -/
theorem scrapedSamples_noLess (names : List (List Char)) {old new : List Nat}
    (all : old.length = RELAY_CELLS * names.length) (all' : new.length = RELAY_CELLS * names.length)
    (le : ∀ p v w, old[p]? = some v → new[p]? = some w → p % RELAY_CELLS ≠ 0 → v ≤ w) :
    List.Forall₂ NoLess (scrapedSamples names old) (scrapedSamples names new) := by
  induction names generalizing old new with
  | nil => exact .nil
  | cons name names ih =>
      have shape : ∀ {loads : List Nat}, loads.length = RELAY_CELLS * (name :: names).length →
          (loads.take RELAY_CELLS).length = RELAY_CELLS ∧
            (loads.drop RELAY_CELLS).length = RELAY_CELLS * names.length := by
        intro loads all
        rw [List.length_cons, Nat.mul_add, Nat.mul_one] at all
        rw [List.length_take, List.length_drop, all]
        exact ⟨Nat.min_eq_left (Nat.le_add_left _ _), Nat.add_sub_cancel _ _⟩
      have own : List.Forall₂ NoLess
          ((scrapedRows (old.take RELAY_CELLS)).map (Row.sample name))
          ((scrapedRows (new.take RELAY_CELLS)).map (Row.sample name)) := by
        obtain ⟨gauge, counters, here⟩ := List.exists_cons_of_length_eq_add_one
          (show (old.take RELAY_CELLS).length = 38 + 1 from (shape all).1)
        obtain ⟨gauge', counters', here'⟩ := List.exists_cons_of_length_eq_add_one
          (show (new.take RELAY_CELLS).length = 38 + 1 from (shape all').1)
        have length := (shape all).1
        have length' := (shape all').1
        rw [here, List.length_cons] at length
        rw [here', List.length_cons] at length'
        rw [here, here']
        refine scrapedRows_noLess ?_ (Nat.succ.inj length) name
        rw [List.forall₂_iff_get]
        refine ⟨(Nat.succ.inj length).trans (Nat.succ.inj length').symm, ?_⟩
        intro c inside inside'
        have at_ : ∀ {loads : List Nat} {gauge : Nat} {counters : List Nat},
            loads.take RELAY_CELLS = gauge :: counters → ∀ inside : c < counters.length,
              loads[c + 1]? = some (counters.get ⟨c, inside⟩) := by
          intro loads gauge counters here inside
          have small : c + 1 < RELAY_CELLS := by
            have most := congrArg List.length here
            rw [List.length_take, List.length_cons] at most
            omega
          rw [← List.getElem?_take_of_lt small, here, List.getElem?_cons_succ]
          exact List.getElem?_eq_getElem inside
        have small : c + 1 < RELAY_CELLS := Nat.lt_of_lt_of_eq (Nat.succ_lt_succ inside) length
        refine le (c + 1) _ _ (at_ here inside) (at_ here' inside') ?_
        rw [Nat.mod_eq_of_lt small]
        exact Nat.succ_ne_zero c
      rw [scrapedSamples, scrapedSamples]
      refine List.rel_append own (ih (shape all).2 (shape all').2 ?_)
      intro p v w read read' counter
      rw [List.getElem?_drop] at read read'
      refine le (RELAY_CELLS + p) v w read read' ?_
      rwa [Nat.add_mod_left]

end Portrelay.Metrics
