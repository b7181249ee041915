/-
# Metrics.Families -- whether the metric families are in groups

`MetricsRegistry::render` writes the HELP and TYPE lines of all families first and then the
samples relay by relay.

* `metadata_once`, `samples_typed` -- each family has one HELP and one TYPE line, and each
  sample is of one of these families.
* `grouped_iff` -- the families are in groups, if and only if there are no relays.
-/
import Portrelay.Metrics.Render
import Portrelay.Theory.Families

namespace Portrelay.Metrics

open Portrelay.Theory Portrelay.Theory.Exposition

set_option autoImplicit false

theorem metadata_once : (metricMetadata.map Prod.fst).Nodup := by
  unfold metricMetadata
  repeat rw [String.toList_ofList]
  decide +kernel

/-- Every sample of every relay is of a family that has a TYPE line. -/
theorem samples_typed (registry : MetricsRegistry) :
    ∀ sample ∈ registry.samples, ∃ entry ∈ metricMetadata,
      OfMetric entry.1 entry.2.2 sample.name := by
  have each : ∀ key ∈ rowKeys, ∃ entry ∈ metricMetadata, OfMetric entry.1 entry.2.2 key.1 := by
    unfold rowKeys counterNames histogramKeys metricMetadata OfMetric
    repeat rw [String.toList_ofList]
    decide +kernel
  intro sample member
  obtain ⟨relay, -, among⟩ := List.mem_flatMap.mp member
  obtain ⟨row, listed, rfl⟩ := List.mem_map.mp among
  exact each row.key (relay.metrics.keys_sublist.subset (List.mem_map_of_mem listed))

/-- The samples of a relay start with a gauge. -/
theorem rows_head (m : RelayMetrics) : ∃ value rest,
    m.rows = ⟨"portrelay_active_connections".toList, none, value⟩ :: rest := by
  exact ⟨⟨m.activeU64, 0⟩, _, rfl⟩

/-- Where the metadata comes first, the first sample follows the TYPE line of another
metric. -/
theorem not_grouped_of_relay (relay : NamedMetrics) (relays : List NamedMetrics) :
    ¬ Grouped (MetricsRegistry.lines ⟨relay :: relays⟩) := by
  intro grouped
  obtain ⟨value, rest, first⟩ := rows_head relay.metrics
  have other : ¬ OfMetric "portrelay_upstream_connect_duration_seconds".toList
      "histogram".toList "portrelay_active_connections".toList := by
    decide
  have owned : Owned none (metadataLines ++ (MetricsRegistry.samples ⟨relay :: relays⟩).map .sample) :=
    grouped.owned none
  rw [MetricsRegistry.samples, List.flatMap_cons, first] at owned
  obtain ⟨⟨metric, current, own⟩, -⟩ : (∃ metric ∈ some
      ("portrelay_upstream_connect_duration_seconds".toList, "histogram".toList),
      OfMetric metric.1 metric.2 "portrelay_active_connections".toList) ∧ _ := owned
  cases current
  exact other own

/-- The families of the rendered text form groups, if and only if no relay has samples. -/
theorem grouped_iff (registry : MetricsRegistry) :
    (∃ lines, parse registry.render = some lines ∧ Grouped lines) ↔ registry.relays = [] := by
  have read : parse registry.render = some registry.lines := by
    rw [MetricsRegistry.render_eq_write]
    exact parse_write registry.lines_wellFormed
  rw [read]
  constructor
  · rintro ⟨lines, same, grouped⟩
    cases same
    obtain ⟨relays⟩ := registry
    cases relays with
    | nil => rfl
    | cons relay relays => exact absurd grouped (not_grouped_of_relay relay relays)
  · intro none_
    refine ⟨registry.lines, rfl, ?_⟩
    rw [MetricsRegistry.lines, MetricsRegistry.samples, none_, List.flatMap_nil, List.map_nil,
      List.append_nil]
    exact grouped_of_metadata metadata_once

/-- One relay that has done nothing. -/
theorem families_split :
    ¬ ∃ lines, parse (MetricsRegistry.render ⟨[.new "default".toList]⟩) = some lines ∧
      Grouped lines := by
  rintro ⟨lines, read, grouped⟩
  rw [MetricsRegistry.render_eq_write, parse_write (MetricsRegistry.lines_wellFormed _)] at read
  cases read
  exact not_grouped_of_relay (.new "default".toList) [] grouped

end Portrelay.Metrics
