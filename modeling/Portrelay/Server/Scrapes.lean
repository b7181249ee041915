/-
# Server.Scrapes -- scrapes of a running server

Any number of renders of the registry, each one atomic load after the other, with steps of
the listeners, of the connection tasks and of the other renders between any two loads.  As
everywhere, no cell passes 2^64: a counter that wraps falls.

* `cells_rise` -- a step of the server lowers no cell but a gauge.
* `scrapes_ordered` -- a scrape that begins after another has ended shows no smaller a
  sample, the gauge apart, and no fewer connections accepted than the other showed closed.
* `scrape_quiet` -- a scrape of a server at rest prints its registry.
-/
import Portrelay.Theory.Scan
import Portrelay.Metrics.Loads
import Portrelay.Server.Accounting

namespace Portrelay.Server

open Portrelay.Theory Portrelay.Metrics

set_option autoImplicit false

namespace ServerState

/-- The cell in position `p` of a scrape: the relays' cells, one relay after the other. -/
def cell (s : ServerState) (p : Nat) : Option Nat :=
  s.relays[p / RELAY_CELLS]?.bind fun b => b.metrics.cells[p % RELAY_CELLS]?

/-- A server and the scrapes of it. -/
def scraping (settings : Settings) : Machine (Scanned ServerState Nat) (ScanLabel ServerLabel) :=
  (machine settings).scanning cell

/-- The gauge may fall. -/
def Rising (p : Nat) (old new : Nat) : Prop := p % RELAY_CELLS ≠ 0 → old ≤ new

end ServerState

/-! ## Cells rise -/

theorem Histogram.apply_le (h : Histogram) (u : HistogramUpdate) :
    List.Forall₂ (· ≤ ·) h.cells (h.apply u).cells := by
  have buckets : ∀ (values : List Nat) (k : Nat),
      List.Forall₂ (· ≤ ·) values (values.modify k (· + 1)) := by
    intro values
    induction values with
    | nil =>
        intro k
        rw [List.modify_nil]
        exact .nil
    | cons value values ih =>
        intro k
        cases k with
        | zero => exact .cons (Nat.le_succ value) (List.forall₂_refl values)
        | succ k => exact .cons (Nat.le_refl value) (ih k)
  cases u with
  | bucket index => exact List.rel_append (buckets h.buckets index) (List.forall₂_refl _)
  | count =>
      exact List.rel_append (List.forall₂_refl h.buckets)
        (.cons (Nat.le_succ _) (.cons (Nat.le_refl _) (.cons (Nat.le_succ _) .nil)))
  | sumMicros micros =>
      exact List.rel_append (List.forall₂_refl h.buckets)
        (.cons (Nat.le_refl _) (.cons (Nat.le_add_right _ _) (.cons (Nat.le_refl _) .nil)))

theorem RelayMetrics.apply_le (m : RelayMetrics) (u : MetricUpdate) :
    List.Forall₂ (· ≤ ·) m.counters (m.apply u).counters := by
  cases u with
  | connectionDuration update =>
      exact List.rel_append (List.rel_append (List.forall₂_refl _) (Histogram.apply_le _ update))
        (List.forall₂_refl _)
  | upstreamConnectDuration update =>
      exact List.rel_append (List.forall₂_refl _) (Histogram.apply_le _ update)
  | _ =>
      refine List.rel_append (List.rel_append ?_ (List.forall₂_refl _)) (List.forall₂_refl _)
      simp [RelayMetrics.apply]

theorem BoundRelay.after_counters (b : BoundRelay) (effect : Effect) :
    List.Forall₂ (· ≤ ·) b.metrics.counters (b.after effect).metrics.counters := by
  cases effect with
  | update u => exact RelayMetrics.apply_le b.metrics u
  | _ => exact List.forall₂_refl _

/-- The counter behind a cell is in its place. -/
theorem cell_of_counters {old new : RelayMetrics}
    (le : List.Forall₂ (· ≤ ·) old.counters new.counters) {c v : Nat}
    (found : old.cells[c]? = some v) :
    ∃ w, new.cells[c]? = some w ∧ (c ≠ 0 → v ≤ w) := by
  cases c with
  | zero => exact ⟨new.activeU64, rfl, fun counter => absurd rfl counter⟩
  | succ c =>
      rw [RelayMetrics.cells, List.getElem?_cons_succ] at found
      obtain ⟨inside, rfl⟩ := List.getElem?_eq_some_iff.mp found
      have inside' : c < new.counters.length := le.length_eq ▸ inside
      refine ⟨new.counters[c], ?_, fun _ => ?_⟩
      · rw [RelayMetrics.cells, List.getElem?_cons_succ]
        exact List.getElem?_eq_getElem inside'
      · exact le.get inside inside'

namespace ServerState

variable {settings : Settings}

theorem cells_rise (settings : Settings) : (machine settings).Rises cell Rising := by
  refine ⟨fun _ _ _ => Nat.le_refl _, fun _ _ _ _ first second counter =>
    Nat.le_trans (first counter) (second counter), ?_⟩
  intro s label t p v stepped found
  obtain ⟨b, bound, loaded⟩ := Option.bind_eq_some_iff.mp found
  have moved : ∃ b', t.relays[p / RELAY_CELLS]? = some b' ∧
      List.Forall₂ (· ≤ ·) b.metrics.counters b'.metrics.counters := by
    cases step_at stepped (p / RELAY_CELLS) with
    | elsewhere same _ => exact ⟨b, same.trans bound, List.forall₂_refl _⟩
    | @listener b' after event effect found' moved bound' tasks =>
        obtain rfl := Option.some.inj (bound.symm.trans found')
        exact ⟨_, bound', BoundRelay.after_counters { b with listener := after } effect⟩
    | @task u after event effect member moved bound' tasks =>
        rw [bound, Option.map_some] at bound'
        exact ⟨_, bound', BoundRelay.after_counters b effect⟩
  obtain ⟨b', bound', le⟩ := moved
  obtain ⟨w, loaded', less⟩ := cell_of_counters le loaded
  exact ⟨w, Option.bind_eq_some_iff.mpr ⟨b', bound', loaded'⟩, less⟩

/-- A complete scrape. -/
def Scraped (settings : Settings) (loads : List Nat) : Prop :=
  loads.length = RELAY_CELLS * settings.relays.length

/-! ## A server at rest -/

/-- The relays' metrics under their names. -/
def registry (names : List (List Char)) (s : ServerState) : MetricsRegistry :=
  ⟨List.zipWith (fun name b => { NamedMetrics.new name with metrics := b.metrics }) names s.relays⟩

/-- The cells of all relays. -/
def cells (s : ServerState) : List Nat := s.relays.flatMap (·.metrics.cells)

theorem registry_eq {names : List (List Char)} {s : ServerState}
    (named : names.length = s.relays.length) :
    (s.registry names).relays.map (·.name) = names ∧
      (s.registry names).relays.flatMap (·.metrics.cells) = s.cells := by
  unfold registry cells
  generalize s.relays = relays at named
  induction names generalizing relays with
  | nil =>
      obtain rfl := List.length_eq_zero_iff.mp named.symm
      exact ⟨rfl, rfl⟩
  | cons name names ih =>
      cases relays with
      | nil => cases named
      | cons b relays =>
          obtain ⟨names_, cells_⟩ := ih relays (Nat.succ.inj named)
          constructor
          · exact congrArg (name :: ·) names_
          · exact congrArg (b.metrics.cells ++ ·) cells_

theorem registry_mem {names : List (List Char)} {s : ServerState} {relay : NamedMetrics}
    (member : relay ∈ (s.registry names).relays) : ∃ b ∈ s.relays, b.metrics = relay.metrics := by
  unfold registry at member
  generalize s.relays = relays at member ⊢
  induction names generalizing relays with
  | nil => cases member
  | cons name names ih =>
      cases relays with
      | nil => cases member
      | cons b relays =>
          rcases List.mem_cons.mp member with rfl | later
          · exact ⟨b, List.mem_cons_self, rfl⟩
          · obtain ⟨other, among, same⟩ := ih relays later
            exact ⟨other, List.mem_cons_of_mem _ among, same⟩

theorem reachable_wide {s : ServerState} (reached : (machine settings).Reachable s) :
    ∀ (relay : Nat) (b : BoundRelay), s.relays[relay]? = some b → b.metrics.Wide := by
  have after : ∀ (b : BoundRelay) effect, b.metrics.Wide → (b.after effect).metrics.Wide := by
    intro b effect wide
    cases effect with
    | update u => exact RelayMetrics.apply_wide wide u
    | _ => exact wide
  refine (machine settings).invariant (P := fun s => ∀ (relay : Nat) (b : BoundRelay),
    s.relays[relay]? = some b → b.metrics.Wide) ?_ ?_ reached
  · rintro s rfl relay b found
    obtain ⟨spec, -, rfl⟩ := List.mem_map.mp (List.mem_of_getElem? found)
    exact RelayMetrics.new_wide
  · intro s label t _ wide stepped relay b found
    cases step_at stepped relay with
    | elsewhere same _ => exact wide relay b (same ▸ found)
    | @listener b' listener event effect found' moved bound tasks =>
        obtain rfl := Option.some.inj (bound.symm.trans found)
        exact after { b' with listener } effect (wide relay b' found')
    | task member moved bound tasks =>
        rw [bound] at found
        obtain ⟨b', found', rfl⟩ := Option.map_eq_some_iff.mp found
        exact after b' _ (wide relay b' found')

/-- The cells by position are the cells in a row. -/
theorem cell_eq {s : ServerState} (wide : ∀ b ∈ s.relays, b.metrics.Wide) (p : Nat) :
    s.cell p = s.cells[p]? := by
  unfold cell cells
  generalize s.relays = relays at wide
  induction relays generalizing p with
  | nil => rfl
  | cons b relays ih =>
      have width := RelayMetrics.cells_length (wide b List.mem_cons_self)
      have others : ∀ other ∈ relays, other.metrics.Wide :=
        fun other member => wide other (List.mem_cons_of_mem _ member)
      rw [List.flatMap_cons]
      rcases Nat.lt_or_ge p RELAY_CELLS with own | other
      · rw [Nat.div_eq_of_lt own, Nat.mod_eq_of_lt own, List.getElem?_append_left (width ▸ own)]
        rfl
      · obtain ⟨q, rfl⟩ := Nat.exists_eq_add_of_le other
        have next : (RELAY_CELLS + q) / RELAY_CELLS = q / RELAY_CELLS + 1 := by
          rw [Nat.add_div_left q (by decide)]
        rw [next, Nat.add_mod_left, List.getElem?_cons_succ, ih q others,
          List.getElem?_append_right (by omega), width, Nat.add_sub_cancel_left]

/-- A scrape that nothing comes between is complete, and prints the registry. -/
theorem scrape_quiet {s : Scanned ServerState Nat} (reached : (scraping settings).Reachable s)
    (names : List (List Char)) (named : names.length = settings.relays.length) :
    ∃ loads t, (scraping settings).exec s
        (.scan :: List.replicate (RELAY_CELLS * settings.relays.length) (.read s.scans.length)) =
        some t ∧
      t.shared = s.shared ∧ t.scans[s.scans.length]? = some loads ∧ Scraped settings loads ∧
      scrapedSamples names loads = (s.shared.registry names).samples := by
  have server := Machine.reachable_shared reached
  have wide : ∀ b ∈ s.shared.relays, b.metrics.Wide := by
    intro b member
    obtain ⟨relay, found⟩ := List.mem_iff_getElem?.mp member
    exact reachable_wide server relay b found
  have all : s.shared.cells.length = RELAY_CELLS * settings.relays.length := by
    rw [← relays_length server, cells]
    generalize s.shared.relays = relays at wide
    induction relays with
    | nil => rfl
    | cons b relays ih =>
        rw [List.flatMap_cons, List.length_append, List.length_cons,
          RelayMetrics.cells_length (wide b List.mem_cons_self),
          ih fun other member => wide other (List.mem_cons_of_mem _ member), Nat.mul_add, Nat.mul_one,
          Nat.add_comm]
  have empty : (s.scans ++ [[]])[s.scans.length]? = some [] := List.getElem?_concat_length
  have ran : (scraping settings).exec ⟨s.shared, s.scans ++ [[]]⟩
      (List.replicate s.shared.cells.length (.read s.scans.length)) =
      some ⟨s.shared, (s.scans ++ [[]]).set s.scans.length s.shared.cells⟩ := by
    refine Machine.exec_reads (s := ⟨s.shared, s.scans ++ [[]]⟩) empty s.shared.cells ?_
    intro i v read
    rw [List.length_nil, Nat.zero_add]
    exact (cell_eq wide i).trans read
  refine ⟨s.shared.cells, ⟨s.shared, (s.scans ++ [[]]).set s.scans.length s.shared.cells⟩, ?_, rfl,
    List.getElem?_set_self (List.getElem?_eq_some_iff.mp empty).1, all, ?_⟩
  · rw [Machine.exec_cons, ← all]
    exact ran
  · obtain ⟨names_, cells_⟩ := registry_eq (named.trans (relays_length server).symm)
    rw [← scrapedSamples_cells, names_, cells_]
    intro relay member
    obtain ⟨b, among, same⟩ := registry_mem member
    exact same ▸ wide b among

/-! ## Scrapes in order -/

/-- Connections are counted when they are accepted and, later, when they are closed. -/
theorem closed_le {s : ServerState} (reached : (machine settings).Reachable s) {relay : Nat}
    {b : BoundRelay} (found : s.relays[relay]? = some b) :
    b.metrics.connectionsClosed ≤ b.metrics.connectionsAccepted := by
  have books := reachable_books reached relay b found
  have settled := books.settled Meter.closed (fun _ => 1) 1 closed_settles
  have each : Task.recorded (fun _ => 1) 1 = fun _ => 1 := funext Task.recorded_one
  rw [each] at settled
  have closed : Meter.closed.read b.metrics = b.metrics.connectionsClosed := rfl
  have admitted := books.admitted
  omega

/-- The position of a relay's cell in a scrape. -/
def position (relay c : Nat) : Nat := RELAY_CELLS * relay + c

theorem cell_position {s : ServerState} {relay : Nat} {b : BoundRelay}
    (found : s.relays[relay]? = some b) {c : Nat} (small : c < RELAY_CELLS) :
    s.cell (position relay c) = b.metrics.cells[c]? := by
  have quotient : position relay c / RELAY_CELLS = relay := by
    rw [position, Nat.mul_add_div (by decide), Nat.div_eq_of_lt small, Nat.add_zero]
  have rest : position relay c % RELAY_CELLS = c := by
    rw [position, Nat.mul_add_mod, Nat.mod_eq_of_lt small]
  rw [cell, quotient, rest, found]
  rfl

theorem scrapes_ordered {m t : Scanned ServerState Nat} {labels : List (ScanLabel ServerLabel)}
    (reached : (scraping settings).Reachable m) (ran : (scraping settings).exec m labels = some t)
    {early late : Nat} {old new : List Nat} (ended : m.scans[early]? = some old)
    (complete : Scraped settings old) (began : m.scans.length ≤ late)
    (found : t.scans[late]? = some new) (complete' : Scraped settings new)
    (names : List (List Char)) (named : names.length = settings.relays.length) :
    List.Forall₂ NoLess (scrapedSamples names old) (scrapedSamples names new) ∧
    ∀ relay < settings.relays.length, ∃ closed accepted,
      old[position relay 3]? = some closed ∧ new[position relay 1]? = some accepted ∧
        closed ≤ accepted := by
  have rise := cells_rise settings
  constructor
  · refine scrapedSamples_noLess names (named ▸ complete) (named ▸ complete') ?_
    intro p v w read read' counter
    exact rise.scans_le reached ran ended began found read read' counter
  · intro relay inside
    have within : ∀ c, c < RELAY_CELLS → position relay c < RELAY_CELLS * settings.relays.length := by
      intro c small
      have next : RELAY_CELLS * (relay + 1) ≤ RELAY_CELLS * settings.relays.length :=
        Nat.mul_le_mul_left _ inside
      rw [Nat.mul_add, Nat.mul_one] at next
      exact Nat.lt_of_lt_of_le (Nat.add_lt_add_left small _) next
    have read : position relay 3 < old.length := complete ▸ within 3 (by decide)
    have read' : position relay 1 < new.length := complete' ▸ within 1 (by decide)
    refine ⟨old[position relay 3], new[position relay 1], List.getElem?_eq_getElem read,
      List.getElem?_eq_getElem read', ?_⟩
    -- from the earlier load up to the state between, across its books, and on to the later load
    obtain ⟨closed, here, below⟩ := rise.reachable_behind reached early old ended _ _
      (List.getElem?_eq_getElem read)
    obtain ⟨b, bound, -⟩ := Option.bind_eq_some_iff.mp here
    have atRelay : position relay 3 / RELAY_CELLS = relay := by
      rw [position, Nat.mul_add_div (by decide)]
      rfl
    rw [atRelay] at bound
    rw [cell_position bound (by decide)] at here
    have closedCell : b.metrics.connectionsClosed = closed := Option.some.inj here
    have accepted : m.shared.cell (position relay 1) = some b.metrics.connectionsAccepted :=
      cell_position bound (by decide)
    have above := (rise.since_exec ran).ahead late new began found _ _
      (List.getElem?_eq_getElem read') _ accepted
    have counter : ∀ c, c < RELAY_CELLS → c ≠ 0 → position relay c % RELAY_CELLS ≠ 0 := by
      intro c small some_
      rw [position, Nat.mul_add_mod, Nat.mod_eq_of_lt small]
      exact some_
    calc old[position relay 3]
        ≤ closed := below (counter 3 (by decide) (by decide))
      _ = b.metrics.connectionsClosed := closedCell.symm
      _ ≤ b.metrics.connectionsAccepted := closed_le (Machine.reachable_shared reached) bound
      _ ≤ new[position relay 1] := above (counter 1 (by decide) (by decide))

set_option maxRecDepth 8000 in
/-- A scrape, a client that is accepted, and another scrape. -/
theorem scrapes_ordered_accept :
    ∃ (m t : Scanned ServerState Nat) (old new : List Nat),
      (scraping twoRelays).exec ⟨start twoRelays, []⟩
        (.scan :: List.replicate 78 (.read 0)) = some m ∧
      (scraping twoRelays).exec m
        (.own (.listener 0 .accept) :: List.replicate 10 (.own (.listener 0 .next)) ++
          .scan :: List.replicate 78 (.read 1)) = some t ∧
      m.scans[0]? = some old ∧ t.scans[1]? = some new ∧ new[position 0 1]? = some 1 ∧
      List.Forall₂ NoLess (scrapedSamples ["a".toList, "b".toList] old)
        (scrapedSamples ["a".toList, "b".toList] new) := by
  have reaches :
      ∃ (m t : Scanned ServerState Nat) (old new : List Nat),
        (scraping twoRelays).exec ⟨start twoRelays, []⟩
          (.scan :: List.replicate 78 (.read 0)) = some m ∧
        (scraping twoRelays).exec m
          (.own (.listener 0 .accept) :: List.replicate 10 (.own (.listener 0 .next)) ++
            .scan :: List.replicate 78 (.read 1)) = some t ∧
        m.scans[0]? = some old ∧ t.scans[1]? = some new ∧ new[position 0 1]? = some 1 ∧
        m.scans.length = 1 ∧ old.length = 78 ∧ new.length = 78 :=
    ⟨_, _, _, _, rfl, rfl, rfl, rfl, rfl, rfl, rfl, rfl⟩
  obtain ⟨m, t, old, new, first, second, ended, found, accepted, one, complete, complete'⟩ := reaches
  have reached := ((scraping twoRelays).reachable_iff_exec m).mpr
    ⟨⟨start twoRelays, []⟩, _, ⟨rfl, rfl⟩, first⟩
  exact ⟨m, t, old, new, first, second, ended, found, accepted,
    (scrapes_ordered reached second ended complete (Nat.le_of_eq one) found complete' _ rfl).1⟩

end ServerState

end Portrelay.Server
