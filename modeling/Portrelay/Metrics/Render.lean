/-
# Metrics.Render -- MetricsRegistry::render

The text of the metrics endpoint, piece by piece as `src/metrics.rs` writes it, and the
exposition lines it stands for (`MetricsRegistry.lines`).  A text is a list of characters.

* `escapeLabel_eq` -- three replacements over the whole string escape each character.
* `render_eq_write` -- the text is the lines written out.
* `samples_distinct` -- no two samples share a name and labels.
* `exposition_round_trip` -- reading the text gives back the lines.
-/
import Portrelay.Theory.Double
import Portrelay.Theory.Exposition
import Portrelay.Metrics.RelayMetrics

namespace Portrelay.Metrics

open Portrelay.Theory Portrelay.Theory.Exposition

set_option autoImplicit false

/-! ## The text -/

/-- `str::replace` of a character. -/
def replace (char : Char) (text value : List Char) : List Char :=
  value.flatMap fun c => if c = char then text else [c]

def escapeLabel (value : List Char) : List Char :=
  replace '\n' ['\\', 'n'] (replace '"' ['\\', '"'] (replace '\\' ['\\', '\\'] value))

def secondsString (milliseconds : Nat) : List Char :=
  if milliseconds % 1_000 = 0 then Nat.toDigits 10 (milliseconds / 1_000)
  else Value.write ⟨((Double.ofNat milliseconds).divNat 1_000).fixed 3, 3⟩

/-- `sum_micros as f64 / 1_000_000.0`, in units of its sixth place. -/
def sumSeconds (sumMicros : Nat) : Nat := ((Double.ofNat sumMicros).divNat 1_000_000).fixed 6

/-- The running sums of the loaded buckets. -/
def cumulative (before : Nat) : List Nat → List Nat
  | [] => []
  | bucket :: rest => (before + bucket) :: cumulative (before + bucket) rest

/-- The values of a printed histogram. -/
structure Printed where
  finite : List Nat
  inf : Nat
  sumMicros : Nat
  count : Nat
  deriving DecidableEq, Repr

/-- `"{name}{{relay=\"{label}\"}} {value}"` -/
def sampleLine (name label value : List Char) : List Char :=
  name ++ "\x7brelay=\"".toList ++ label ++ "\"\x7d ".toList ++ value ++ ['\n']

/-- `"{name}_bucket{{relay=\"{label}\",le=\"{le}\"}} {value}"` -/
def bucketLine (name label le : List Char) (value : Nat) : List Char :=
  name ++ "_bucket\x7brelay=\"".toList ++ label ++ "\",le=\"".toList ++ le ++ "\"\x7d ".toList ++
    Nat.toDigits 10 value ++ ['\n']

def Printed.render (p : Printed) (metricName relayLabel : List Char) : List Char :=
  ((DURATION_BUCKETS_MILLIS.zip p.finite).flatMap fun (bound, value) =>
    bucketLine metricName relayLabel (secondsString bound) value) ++
  bucketLine metricName relayLabel "+Inf".toList p.inf ++
  sampleLine (metricName ++ "_sum".toList) relayLabel (Value.write ⟨sumSeconds p.sumMicros, 6⟩) ++
  sampleLine (metricName ++ "_count".toList) relayLabel (Nat.toDigits 10 p.count)

/-- What a render prints while no other task runs. -/
def Histogram.printed (h : Histogram) : Printed :=
  ⟨cumulative 0 h.buckets, h.count, h.sumMicros, h.count⟩

def Histogram.render (h : Histogram) (metricName relayLabel : List Char) : List Char :=
  h.printed.render metricName relayLabel

/-- The gauge as the `u64` it is stored in. -/
def RelayMetrics.activeU64 (m : RelayMetrics) : Nat := (m.activeConnections % 2 ^ 64).toNat

def RelayMetrics.render (m : RelayMetrics) (label : List Char) : List Char :=
  sampleLine "portrelay_active_connections".toList label (Nat.toDigits 10 m.activeU64) ++
  sampleLine "portrelay_connections_accepted_total".toList label
    (Nat.toDigits 10 m.connectionsAccepted) ++
  sampleLine "portrelay_connections_rejected_total".toList label
    (Nat.toDigits 10 m.connectionsRejected) ++
  sampleLine "portrelay_connections_closed_total".toList label
    (Nat.toDigits 10 m.connectionsClosed) ++
  sampleLine "portrelay_upstream_connect_failures_total".toList label
    (Nat.toDigits 10 m.upstreamConnectFailures) ++
  sampleLine "portrelay_upstream_connect_timeouts_total".toList label
    (Nat.toDigits 10 m.upstreamConnectTimeouts) ++
  sampleLine "portrelay_idle_timeouts_total".toList label (Nat.toDigits 10 m.idleTimeouts) ++
  sampleLine "portrelay_bytes_client_to_upstream_total".toList label
    (Nat.toDigits 10 m.bytesClientToUpstream) ++
  sampleLine "portrelay_bytes_upstream_to_client_total".toList label
    (Nat.toDigits 10 m.bytesUpstreamToClient) ++
  m.connectionDuration.render "portrelay_connection_duration_seconds".toList label ++
  m.upstreamConnectDuration.render "portrelay_upstream_connect_duration_seconds".toList label

def renderHelpType (name help metricType : List Char) : List Char :=
  "# HELP ".toList ++ name ++ ' ' :: help ++ ['\n'] ++
    "# TYPE ".toList ++ name ++ ' ' :: metricType ++ ['\n']

/-- The arguments of the calls in `render_metric_metadata`. -/
def metricMetadata : List (List Char × List Char × List Char) :=
  [("portrelay_active_connections".toList, "Active proxied TCP connections.".toList,
      "gauge".toList),
    ("portrelay_connections_accepted_total".toList, "Accepted proxied TCP connections.".toList,
      "counter".toList),
    ("portrelay_connections_rejected_total".toList,
      "Connections rejected by admission limits.".toList, "counter".toList),
    ("portrelay_connections_closed_total".toList, "Closed proxied TCP connections.".toList,
      "counter".toList),
    ("portrelay_upstream_connect_failures_total".toList, "Upstream connection failures.".toList,
      "counter".toList),
    ("portrelay_upstream_connect_timeouts_total".toList, "Upstream connection timeouts.".toList,
      "counter".toList),
    ("portrelay_idle_timeouts_total".toList, "Connections closed by idle timeout.".toList,
      "counter".toList),
    ("portrelay_bytes_client_to_upstream_total".toList,
      "Bytes copied from clients to upstreams.".toList, "counter".toList),
    ("portrelay_bytes_upstream_to_client_total".toList,
      "Bytes copied from upstreams to clients.".toList, "counter".toList),
    ("portrelay_connection_duration_seconds".toList, "Proxied TCP connection duration.".toList,
      "histogram".toList),
    ("portrelay_upstream_connect_duration_seconds".toList,
      "Upstream TCP connection duration.".toList, "histogram".toList)]

def renderMetricMetadata : List Char :=
  metricMetadata.flatMap fun (name, help, metricType) => renderHelpType name help metricType

/-- A relay's metrics under its name, with the label made from it once. -/
structure NamedMetrics where
  name : List Char
  label : List Char
  metrics : RelayMetrics
  escaped : label = escapeLabel name

def NamedMetrics.new (name : List Char) : NamedMetrics := ⟨name, escapeLabel name, .new, rfl⟩

structure MetricsRegistry where
  relays : List NamedMetrics

def MetricsRegistry.render (registry : MetricsRegistry) : List Char :=
  renderMetricMetadata ++ registry.relays.flatMap fun relay => relay.metrics.render relay.label

/-! ## The lines it stands for -/

/-- What a sample shows of a relay: its metric, its bucket if it is one, and its value. -/
structure Row where
  name : List Char
  le : Option (List Char)
  value : Value
  deriving DecidableEq, Repr

/-- The sample of relay `relay` that shows a row. -/
def Row.sample (relay : List Char) (row : Row) : Sample :=
  ⟨row.name, ("relay".toList, relay) :: (row.le.map fun le => ("le".toList, le)).toList, row.value⟩

def Printed.rows (p : Printed) (metricName : List Char) : List Row :=
  ((DURATION_BUCKETS_MILLIS.zip p.finite).map fun (bound, value) =>
    ⟨metricName ++ "_bucket".toList, some (secondsString bound), ⟨value, 0⟩⟩) ++
  [⟨metricName ++ "_bucket".toList, some "+Inf".toList, ⟨p.inf, 0⟩⟩,
    ⟨metricName ++ "_sum".toList, none, ⟨sumSeconds p.sumMicros, 6⟩⟩,
    ⟨metricName ++ "_count".toList, none, ⟨p.count, 0⟩⟩]

def RelayMetrics.rows (m : RelayMetrics) : List Row :=
  [⟨"portrelay_active_connections".toList, none, ⟨m.activeU64, 0⟩⟩,
    ⟨"portrelay_connections_accepted_total".toList, none, ⟨m.connectionsAccepted, 0⟩⟩,
    ⟨"portrelay_connections_rejected_total".toList, none, ⟨m.connectionsRejected, 0⟩⟩,
    ⟨"portrelay_connections_closed_total".toList, none, ⟨m.connectionsClosed, 0⟩⟩,
    ⟨"portrelay_upstream_connect_failures_total".toList, none, ⟨m.upstreamConnectFailures, 0⟩⟩,
    ⟨"portrelay_upstream_connect_timeouts_total".toList, none, ⟨m.upstreamConnectTimeouts, 0⟩⟩,
    ⟨"portrelay_idle_timeouts_total".toList, none, ⟨m.idleTimeouts, 0⟩⟩,
    ⟨"portrelay_bytes_client_to_upstream_total".toList, none, ⟨m.bytesClientToUpstream, 0⟩⟩,
    ⟨"portrelay_bytes_upstream_to_client_total".toList, none, ⟨m.bytesUpstreamToClient, 0⟩⟩] ++
  m.connectionDuration.printed.rows "portrelay_connection_duration_seconds".toList ++
  m.upstreamConnectDuration.printed.rows "portrelay_upstream_connect_duration_seconds".toList

def metadataLines : List Line :=
  metricMetadata.flatMap fun (name, help, metricType) => [.help name help, .kind name metricType]

namespace MetricsRegistry

/-- Every relay's rows, under its own name. -/
def samples (registry : MetricsRegistry) : List Sample :=
  registry.relays.flatMap fun relay => relay.metrics.rows.map (Row.sample relay.name)

def lines (registry : MetricsRegistry) : List Line :=
  metadataLines ++ registry.samples.map .sample

end MetricsRegistry

/-! ## The text is the lines -/

theorem replace_append (char : Char) (text front back : List Char) :
    replace char text (front ++ back) = replace char text front ++ replace char text back := by
  simp only [replace, List.flatMap_append]

theorem escapeLabel_singleton (c : Char) : escapeLabel [c] = escapeChar c := by
  unfold escapeChar
  by_cases slash : c = '\\'
  · subst slash
    rfl
  · by_cases quote : c = '"'
    · subst quote
      rfl
    · by_cases newline : c = '\n'
      · subst newline
        rfl
      · simp only [escapeLabel, replace, List.flatMap_cons, List.flatMap_nil, List.append_nil, slash,
          quote, newline, if_false]

/-- No replacement meets the output of an earlier one: the backslashes come first. -/
theorem escapeLabel_eq (value : List Char) : escapeLabel value = escape value := by
  induction value with
  | nil => rfl
  | cons c value ih =>
      have first : escapeLabel ([c] ++ value) = escapeLabel [c] ++ escapeLabel value := by
        simp only [escapeLabel, replace_append]
      show escapeLabel ([c] ++ value) = _
      rw [first, escapeLabel_singleton, ih, escape, escape, List.flatMap_cons]

/-- The bounds need no escaping. -/
theorem escape_secondsString : ∀ bound ∈ DURATION_BUCKETS_MILLIS,
    escape (secondsString bound) = secondsString bound := by
  decide +kernel

theorem write_digits (n : Nat) : Value.write ⟨n, 0⟩ = Nat.toDigits 10 n := rfl

theorem sampleLine_eq (relay name : List Char) (value : Value) :
    sampleLine name (escapeLabel relay) value.write =
      (Row.sample relay ⟨name, none, value⟩).write ++ ['\n'] := by
  have opening : "\x7brelay=\"".toList = '{' :: ("relay".toList ++ ['=', '"']) := rfl
  have closing : "\"\x7d ".toList = ['"', '}', ' '] := rfl
  show _ = name ++ '{' :: ("relay".toList ++ '=' :: '"' :: (escape relay ++ ['"']) ++ ['}']) ++
    ' ' :: value.write ++ ['\n']
  rw [sampleLine, escapeLabel_eq, opening, closing]
  simp only [List.append_assoc, List.cons_append, List.nil_append]

theorem bucketLine_eq (relay metricName : List Char) {le : List Char} (plain : escape le = le)
    (value : Nat) :
    bucketLine metricName (escapeLabel relay) le value =
      (Row.sample relay ⟨metricName ++ "_bucket".toList, some le, ⟨value, 0⟩⟩).write ++ ['\n'] := by
  have opening : "_bucket\x7brelay=\"".toList =
      "_bucket".toList ++ '{' :: ("relay".toList ++ ['=', '"']) := rfl
  have between : "\",le=\"".toList = '"' :: ',' :: ("le".toList ++ ['=', '"']) := rfl
  have closing : "\"\x7d ".toList = ['"', '}', ' '] := rfl
  show _ = (metricName ++ "_bucket".toList) ++ '{' :: (("relay".toList ++ '=' :: '"' ::
    (escape relay ++ ['"'])) ++ ',' :: ("le".toList ++ '=' :: '"' :: (escape le ++ ['"'])) ++ ['}']) ++
      ' ' :: Value.write ⟨value, 0⟩ ++ ['\n']
  rw [bucketLine, escapeLabel_eq, opening, between, closing, plain]
  simp only [List.append_assoc, List.cons_append, List.nil_append, write_digits]

/-- What rows of relay `relay` are written as. -/
def writeRows (relay : List Char) (rows : List Row) : List Char :=
  write (rows.map fun row => .sample (row.sample relay))

theorem writeRows_append (relay : List Char) (front back : List Row) :
    writeRows relay (front ++ back) = writeRows relay front ++ writeRows relay back := by
  simp only [writeRows, List.map_append, write_append]

theorem writeRows_cons (relay : List Char) (row : Row) (rest : List Row) :
    writeRows relay (row :: rest) = (row.sample relay).write ++ ['\n'] ++ writeRows relay rest := rfl

theorem Printed.render_eq (p : Printed) (metricName relay : List Char) :
    p.render metricName (escapeLabel relay) = writeRows relay (p.rows metricName) := by
  have buckets : ∀ pairs : List (Nat × Nat), (∀ pair ∈ pairs, pair.1 ∈ DURATION_BUCKETS_MILLIS) →
      (pairs.flatMap fun (bound, value) =>
        bucketLine metricName (escapeLabel relay) (secondsString bound) value) =
      writeRows relay (pairs.map fun (bound, value) =>
        ⟨metricName ++ "_bucket".toList, some (secondsString bound), ⟨value, 0⟩⟩) := by
    intro pairs bounds
    induction pairs with
    | nil => rfl
    | cons pair pairs ih =>
        obtain ⟨bound, value⟩ := pair
        have plain := escape_secondsString bound (bounds _ List.mem_cons_self)
        have later := ih fun other member => bounds other (List.mem_cons_of_mem _ member)
        simp only [List.flatMap_cons, List.map_cons, writeRows_cons, later,
          bucketLine_eq relay metricName plain]
  have bounds : ∀ pair ∈ DURATION_BUCKETS_MILLIS.zip p.finite, pair.1 ∈ DURATION_BUCKETS_MILLIS :=
    fun pair member => (List.of_mem_zip member).1
  have inf : escape "+Inf".toList = "+Inf".toList := rfl
  have total := sampleLine_eq relay (metricName ++ "_count".toList) ⟨p.count, 0⟩
  rw [write_digits] at total
  rw [Printed.render, Printed.rows, writeRows_append, buckets _ bounds,
    bucketLine_eq relay metricName inf, sampleLine_eq, total]
  simp only [writeRows_cons, List.append_assoc]
  rfl

theorem RelayMetrics.render_eq (m : RelayMetrics) (relay : List Char) :
    m.render (escapeLabel relay) = writeRows relay m.rows := by
  have counter : ∀ name value, sampleLine name (escapeLabel relay) (Nat.toDigits 10 value) =
      (Row.sample relay ⟨name, none, ⟨value, 0⟩⟩).write ++ ['\n'] :=
    fun name value => sampleLine_eq relay name ⟨value, 0⟩
  simp only [RelayMetrics.render, RelayMetrics.rows, writeRows_append, writeRows_cons, counter,
    Histogram.render, Printed.render_eq, List.append_assoc]
  rfl

theorem renderHelpType_eq (name help metricType : List Char) :
    renderHelpType name help metricType = write [.help name help, .kind name metricType] := by
  have shape : ∀ helpSign typeSign : List Char,
      helpSign ++ name ++ ' ' :: help ++ ['\n'] ++ typeSign ++ name ++ ' ' :: metricType ++ ['\n'] =
      (helpSign ++ name ++ ' ' :: help) ++ ['\n'] ++
        ((typeSign ++ name ++ ' ' :: metricType) ++ ['\n'] ++ []) := by
    intro helpSign typeSign
    simp only [List.append_assoc, List.append_nil]
  exact shape ['#', ' ', 'H', 'E', 'L', 'P', ' '] ['#', ' ', 'T', 'Y', 'P', 'E', ' ']

theorem metadata_eq : renderMetricMetadata = write metadataLines := by
  have each : ∀ entries : List (List Char × List Char × List Char),
      (entries.flatMap fun (name, help, metricType) => renderHelpType name help metricType) =
        write (entries.flatMap fun (name, help, metricType) =>
          [.help name help, .kind name metricType]) := by
    intro entries
    induction entries with
    | nil => rfl
    | cons entry entries ih =>
        obtain ⟨name, help, metricType⟩ := entry
        rw [List.flatMap_cons, List.flatMap_cons, ih, write_append]
        show renderHelpType name help metricType ++ _ = _
        rw [renderHelpType_eq]
  exact each metricMetadata

theorem MetricsRegistry.render_eq_write (registry : MetricsRegistry) :
    registry.render = write registry.lines := by
  have relays : (registry.relays.flatMap fun relay => relay.metrics.render relay.label) =
      write (registry.samples.map .sample) := by
    unfold MetricsRegistry.samples
    induction registry.relays with
    | nil => rfl
    | cons relay relays ih =>
        have shape : (relay.metrics.rows.map (Row.sample relay.name)).map Line.sample =
            relay.metrics.rows.map fun row => .sample (row.sample relay.name) := by
          rw [List.map_map]
          rfl
        rw [List.flatMap_cons, List.flatMap_cons, List.map_append, ih, relay.escaped,
          RelayMetrics.render_eq, writeRows, shape, write_append]
  rw [MetricsRegistry.render, metadata_eq, relays, MetricsRegistry.lines, write_append]

/-! ## What is read back -/

theorem metadata_wellFormed : ∀ line ∈ metadataLines, line.WellFormed := by
  have each : ∀ entry ∈ metricMetadata, isName entry.1 = true ∧ '\\' ∉ entry.2.1 ∧
      '\n' ∉ entry.2.1 ∧ entry.2.2 ∈ types := by
    -- the kernel reads a literal at once, and its `toList` byte by byte
    unfold metricMetadata types
    repeat rw [String.toList_ofList]
    decide +kernel
  intro line member
  obtain ⟨entry, listed, among⟩ := List.mem_flatMap.mp member
  obtain ⟨named, noSlash, noNewline, known⟩ := each entry listed
  rcases List.mem_cons.mp among with rfl | second
  · exact ⟨named, noSlash, noNewline⟩
  · obtain rfl := List.mem_singleton.mp second
    exact ⟨named, known⟩

/-- The series of a relay: the metric and, of a bucket, its bound. -/
def Row.key (row : Row) : List Char × Option (List Char) := (row.name, row.le)

/-- The series of a histogram that prints all its buckets. -/
def histogramKeys (metricName : List Char) : List (List Char × Option (List Char)) :=
  (DURATION_BUCKETS_MILLIS.map fun bound =>
    (metricName ++ "_bucket".toList, some (secondsString bound))) ++
  [(metricName ++ "_bucket".toList, some "+Inf".toList), (metricName ++ "_sum".toList, none),
    (metricName ++ "_count".toList, none)]

theorem map_zip_sublist {α β γ : Type} (f : α → γ) (as : List α) (bs : List β) :
    ((as.zip bs).map fun pair => f pair.1).Sublist (as.map f) := by
  induction as generalizing bs with
  | nil => exact List.Sublist.slnil
  | cons a as ih =>
      cases bs with
      | nil => exact List.nil_sublist _
      | cons b bs => exact (ih bs).cons_cons (f a)

theorem Printed.keys_sublist (p : Printed) (metricName : List Char) :
    ((p.rows metricName).map Row.key).Sublist (histogramKeys metricName) := by
  have buckets := map_zip_sublist (fun bound =>
    (metricName ++ "_bucket".toList, some (secondsString bound))) DURATION_BUCKETS_MILLIS p.finite
  rw [Printed.rows, List.map_append, List.map_map]
  exact buckets.append (List.Sublist.refl _)

/-- The counters of `RelayMetrics.rows`. -/
def counterNames : List (List Char) :=
  ["portrelay_active_connections".toList, "portrelay_connections_accepted_total".toList,
    "portrelay_connections_rejected_total".toList, "portrelay_connections_closed_total".toList,
    "portrelay_upstream_connect_failures_total".toList,
    "portrelay_upstream_connect_timeouts_total".toList, "portrelay_idle_timeouts_total".toList,
    "portrelay_bytes_client_to_upstream_total".toList,
    "portrelay_bytes_upstream_to_client_total".toList]

def rowKeys : List (List Char × Option (List Char)) :=
  (counterNames.map fun name => (name, none)) ++
  histogramKeys "portrelay_connection_duration_seconds".toList ++
  histogramKeys "portrelay_upstream_connect_duration_seconds".toList

theorem rowKeys_nodup : rowKeys.Nodup := by
  unfold rowKeys counterNames histogramKeys
  repeat rw [String.toList_ofList]
  decide +kernel

theorem rowKeys_named : ∀ key ∈ rowKeys, isName key.1 = true := by
  unfold rowKeys counterNames histogramKeys
  repeat rw [String.toList_ofList]
  decide +kernel

namespace RelayMetrics

theorem keys_sublist (m : RelayMetrics) : (m.rows.map Row.key).Sublist rowKeys := by
  rw [rows, List.map_append, List.map_append]
  exact ((List.Sublist.refl _).append (m.connectionDuration.printed.keys_sublist _)).append
    (m.upstreamConnectDuration.printed.keys_sublist _)

theorem rows_named (m : RelayMetrics) {row : Row} (member : row ∈ m.rows) :
    isName row.name = true :=
  rowKeys_named row.key (m.keys_sublist.subset (List.mem_map_of_mem member))

end RelayMetrics

theorem Row.sample_wellFormed {row : Row} (named : isName row.name = true) (relay : List Char) :
    (Line.sample (row.sample relay)).WellFormed := by
  refine ⟨named, fun label member => ?_⟩
  rcases List.mem_cons.mp member with rfl | bucket
  · rfl
  · obtain ⟨le, -, rfl⟩ := Option.map_eq_some_iff.mp (Option.mem_toList.mp bucket)
    rfl

/-- The labels of a sample say whose it is and which bucket. -/
theorem Row.key_of_sameSeries {row other : Row} {relay relay' : List Char}
    (same : (row.sample relay).SameSeries (other.sample relay')) :
    relay = relay' ∧ row.key = other.key := by
  obtain ⟨name, labels⟩ := same
  have named : "relay".toList ≠ "le".toList := by decide
  have relays : relay = relay' := by
    rcases List.mem_cons.mp ((labels ("relay".toList, relay)).mp List.mem_cons_self) with own | le
    · exact (Prod.mk.inj own).2
    · obtain ⟨bound, -, equal⟩ := Option.map_eq_some_iff.mp (Option.mem_toList.mp le)
      exact absurd (Prod.mk.inj equal).1.symm named
  have bound : ∀ le, ("le".toList, le) ∈ (row.sample relay).labels ↔ row.le = some le := by
    intro le
    simp [sample]
  have bound' : ∀ le, ("le".toList, le) ∈ (other.sample relay').labels ↔ other.le = some le := by
    intro le
    simp [sample]
  have les : row.le = other.le :=
    Option.ext fun le => (bound le).symm.trans ((labels _).trans (bound' le))
  exact ⟨relays, Prod.ext name les⟩

namespace MetricsRegistry

theorem lines_wellFormed (registry : MetricsRegistry) :
    ∀ line ∈ registry.lines, line.WellFormed := by
  intro line member
  rcases List.mem_append.mp member with metadata | sample
  · exact metadata_wellFormed line metadata
  · obtain ⟨sample, among, rfl⟩ := List.mem_map.mp sample
    obtain ⟨relay, -, row⟩ := List.mem_flatMap.mp among
    obtain ⟨row, listed, rfl⟩ := List.mem_map.mp row
    exact Row.sample_wellFormed (relay.metrics.rows_named listed) relay.name

/-- Relays of different names never show the same series. -/
theorem samples_distinct (registry : MetricsRegistry)
    (distinct : (registry.relays.map (·.name)).Nodup) :
    registry.samples.Pairwise fun s t => ¬ s.SameSeries t := by
  rw [samples, List.pairwise_flatMap]
  constructor
  · intro relay _
    rw [List.pairwise_map]
    have keys := relay.metrics.keys_sublist.nodup rowKeys_nodup
    rw [List.nodup_iff_pairwise_ne, List.pairwise_map] at keys
    exact keys.imp fun different same => different (Row.key_of_sameSeries same).2
  · rw [List.nodup_iff_pairwise_ne, List.pairwise_map] at distinct
    refine distinct.imp fun different s here t there same => ?_
    obtain ⟨row, -, rfl⟩ := List.mem_map.mp here
    obtain ⟨other, -, rfl⟩ := List.mem_map.mp there
    exact different (Row.key_of_sameSeries same).1

/-- The samples labelled with a relay's name are that relay's rows. -/
theorem samples_of_relay (registry : MetricsRegistry)
    (distinct : (registry.relays.map (·.name)).Nodup) {relay : NamedMetrics}
    (member : relay ∈ registry.relays) :
    registry.samples.filter (fun s => s.labels.lookup "relay".toList = some relay.name) =
      relay.metrics.rows.map (Row.sample relay.name) := by
  have label : ∀ (other : NamedMetrics) (rows : List Row),
      (rows.map (Row.sample other.name)).filter
        (fun s => s.labels.lookup "relay".toList = some relay.name) =
      if other.name = relay.name then rows.map (Row.sample other.name) else [] := by
    intro other rows
    have own : ∀ row : Row, (row.sample other.name).labels.lookup "relay".toList =
        some other.name := fun row => List.lookup_cons_self
    split
    · rename_i same
      refine List.filter_eq_self.mpr fun sample among => ?_
      obtain ⟨row, -, rfl⟩ := List.mem_map.mp among
      rw [own, same, decide_eq_true rfl]
    · rename_i different
      refine List.filter_eq_nil_iff.mpr fun sample among => ?_
      obtain ⟨row, -, rfl⟩ := List.mem_map.mp among
      rw [own, decide_eq_true_iff, Option.some_inj]
      exact different
  rw [samples, List.filter_flatMap]
  simp only [label]
  generalize registry.relays = relays at distinct member
  induction relays with
  | nil => cases member
  | cons first relays ih =>
      rw [List.map_cons, List.nodup_cons] at distinct
      rw [List.flatMap_cons]
      rcases List.mem_cons.mp member with rfl | later
      · have others : (relays.flatMap fun other =>
            if other.name = relay.name then other.metrics.rows.map (Row.sample other.name)
            else []) = [] := by
          refine List.flatMap_eq_nil_iff.mpr fun other among => if_neg fun same => ?_
          exact distinct.1 (same ▸ List.mem_map_of_mem among)
        rw [others, if_pos rfl, List.append_nil]
      · have different : first.name ≠ relay.name := fun same =>
          distinct.1 (same ▸ List.mem_map_of_mem later)
        rw [if_neg different, List.nil_append, ih distinct.2 later]

/-- Reading the rendered text gives the metadata and the samples of each relay under its own
name, one line each, and no two of them are one series. -/
theorem exposition_round_trip (registry : MetricsRegistry)
    (distinct : (registry.relays.map (·.name)).Nodup) :
    parse registry.render = some (metadataLines ++ registry.samples.map .sample) ∧
    (∀ relay ∈ registry.relays,
      registry.samples.filter (fun s => s.labels.lookup "relay".toList = some relay.name) =
        relay.metrics.rows.map (Row.sample relay.name)) ∧
    registry.samples.Pairwise fun s t => ¬ s.SameSeries t := by
  refine ⟨?_, fun relay member => registry.samples_of_relay distinct member,
    registry.samples_distinct distinct⟩
  rw [render_eq_write]
  exact parse_write registry.lines_wellFormed

theorem exposition_round_trip_quoted :
    let registry : MetricsRegistry := ⟨[.new "a\\\"\n".toList, .new "a\\\\n".toList]⟩
    parse registry.render = some (metadataLines ++ registry.samples.map .sample) ∧
    (∀ relay ∈ registry.relays,
      registry.samples.filter (fun s => s.labels.lookup "relay".toList = some relay.name) =
        relay.metrics.rows.map (Row.sample relay.name)) ∧
    registry.samples.Pairwise fun s t => ¬ s.SameSeries t :=
  exposition_round_trip ⟨[.new "a\\\"\n".toList, .new "a\\\\n".toList]⟩ (by decide)

end MetricsRegistry

end Portrelay.Metrics
