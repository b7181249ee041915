/-
# Metrics.HistogramRace -- observations during a render

`Histogram::observe` is three atomic updates and `Histogram::render` fifteen atomic
loads; other tasks run between any two of them.  A `Race` is one render with any number
of observations around it: a render only reads, so one stands for each of many.

* `Inv` -- what the counters and the loaded values are, in numbers of observations,
  kept by `step_inv`.
* `rendered_valid_iff` -- the printed histogram is valid in every run, but for the
  observations that a render catches between their bucket and their count.
-/
import Portrelay.Theory.Machine
import Portrelay.Theory.Tally
import Portrelay.Metrics.Render

namespace Portrelay.Metrics

open Portrelay.Theory

set_option autoImplicit false

/-! ## What render loads and prints -/

/-- What `render` loads, in its order. -/
def Histogram.cells (h : Histogram) : List Nat :=
  h.buckets ++ [h.count, h.sumMicros, h.count]

/-- What is printed from the loaded values, once all are loaded. -/
def printed (loads : List Nat) : Option Printed :=
  match loads.drop DURATION_BUCKETS_MILLIS.length with
  | [inf, sumMicros, count] =>
      some ⟨cumulative 0 (loads.take DURATION_BUCKETS_MILLIS.length), inf, sumMicros, count⟩
  | _ => none

/-- The rules of a Prometheus histogram. -/
structure Printed.Valid (p : Printed) : Prop where
  monotone : p.finite.Pairwise (· ≤ ·)
  last : ∀ last ∈ p.finite.getLast?, last ≤ p.inf
  total : p.inf = p.count

theorem cumulative_ge (before : Nat) (buckets : List Nat) :
    ∀ value ∈ cumulative before buckets, before ≤ value := by
  induction buckets generalizing before with
  | nil =>
      intro value member
      cases member
  | cons bucket rest ih =>
      intro value member
      rcases List.mem_cons.mp member with rfl | later
      · exact Nat.le_add_right before bucket
      · exact Nat.le_trans (Nat.le_add_right before bucket) (ih _ value later)

theorem cumulative_monotone (before : Nat) (buckets : List Nat) :
    (cumulative before buckets).Pairwise (· ≤ ·) := by
  induction buckets generalizing before with
  | nil => exact List.Pairwise.nil
  | cons bucket rest ih => exact List.Pairwise.cons (cumulative_ge _ rest) (ih _)

theorem cumulative_last (before : Nat) {buckets : List Nat} (some_ : buckets ≠ []) :
    (cumulative before buckets).getLast? = some (before + buckets.sum) := by
  induction buckets generalizing before with
  | nil => exact absurd rfl some_
  | cons bucket rest ih =>
      cases rest with
      | nil => rfl
      | cons next rest =>
          have later := ih (before + bucket) (List.cons_ne_nil next rest)
          simp only [cumulative, List.getLast?_cons_cons, List.sum_cons] at later ⊢
          rw [later]
          congr 1
          omega

theorem printed_length {loads : List Nat} {p : Printed} (found : printed loads = some p) :
    loads.length = 15 := by
  unfold printed at found
  split at found
  · rename_i inf sumMicros count rest
    have length := congrArg List.length rest
    simp only [List.length_drop, List.length_cons, List.length_nil, DURATION_BUCKETS_MILLIS] at length
    omega
  · cases found

/-- The last load, and what is then printed. -/
theorem printed_last {loads : List Nat} (last : loads.length = 14) (count : Nat) :
    ∃ inf sumMicros, loads[12]? = some inf ∧
      printed (loads ++ [count]) = some ⟨cumulative 0 (loads.take 12), inf, sumMicros, count⟩ := by
  have two : (loads.drop 12).length = 2 := by rw [List.length_drop, last]
  obtain ⟨inf, sumMicros, rest⟩ := List.length_eq_two.mp two
  refine ⟨inf, sumMicros, ?_, ?_⟩
  · have first : (loads.drop 12)[0]? = loads[12 + 0]? := List.getElem?_drop
    rw [rest] at first
    exact first.symm
  · have width : DURATION_BUCKETS_MILLIS.length = 12 := rfl
    have fits : 12 ≤ loads.length := by omega
    simp only [printed, width, List.drop_append_of_le_length fits, rest,
      List.take_append_of_le_length fits, List.cons_append, List.nil_append]

theorem valid_iff {loads : List Nat} (some_ : loads ≠ []) (inf sumMicros count : Nat) :
    (Printed.mk (cumulative 0 loads) inf sumMicros count).Valid ↔ loads.sum ≤ inf ∧ inf = count := by
  have last := cumulative_last 0 some_
  rw [Nat.zero_add] at last
  constructor
  · intro valid
    exact ⟨valid.last _ (by simp only [last, Option.mem_some_iff]), valid.total⟩
  · rintro ⟨le, total⟩
    refine ⟨cumulative_monotone 0 loads, fun value member => ?_, total⟩
    simp only [last, Option.mem_some_iff] at member
    exact member ▸ le

/-! ## Observations and a render -/

/-- A call of `observe`.  `bucketAt` and `countAt` are for the statements alone: how many
loads the render had made when the call updated its bucket, and the count. -/
structure Observation where
  nanos : Nat
  rest : List HistogramUpdate
  bucketAt : Option Nat
  countAt : Option Nat

namespace Observation

def start (nanos : Nat) : Observation := ⟨nanos, Histogram.observe nanos, none, none⟩

/-- The next update of the call. -/
def step (o : Observation) (loads : Nat) : Option (Observation × HistogramUpdate) :=
  match o.rest with
  | [] => none
  | .bucket index :: rest => some ({ o with rest, bucketAt := some loads }, .bucket index)
  | .count :: rest => some ({ o with rest, countAt := some loads }, .count)
  | .sumMicros micros :: rest => some ({ o with rest }, .sumMicros micros)

/-- The call has updated bucket `k`. -/
def inBucket (k : Nat) (o : Observation) : Bool :=
  o.bucketAt.isSome && decide (Histogram.bucketOf o.nanos = some k)

/-- The call's bucket update came before the load of its bucket, among the first
`loads` loads. -/
def shown (loads : Nat) (o : Observation) : Bool :=
  match Histogram.bucketOf o.nanos, o.bucketAt with
  | some k, some early => decide (k < loads) && decide (early ≤ k)
  | _, _ => false

/-- The call's count update came before the load in position `position`. -/
def countedBy (position : Nat) (o : Observation) : Bool :=
  match o.countAt with
  | some early => decide (early ≤ position)
  | none => false

end Observation

/-- The histogram, the calls of `observe`, and the values that `render` has loaded. -/
structure Race where
  histogram : Histogram
  observations : List Observation
  loads : List Nat

inductive RaceLabel
  | observe (nanos : Nat)
  | update (index : Nat)
  | load
  deriving DecidableEq

namespace Race

def step (s : Race) : RaceLabel → Option Race
  | .observe nanos => some { s with observations := s.observations ++ [.start nanos] }
  | .update index =>
      match s.observations[index]? with
      | none => none
      | some o =>
          (o.step s.loads.length).map fun after =>
            { s with
              histogram := s.histogram.apply after.2
              observations := s.observations.set index after.1 }
  | .load => (s.histogram.cells[s.loads.length]?).map fun value => { s with loads := s.loads ++ [value] }

def start : Race := ⟨.new, [], []⟩

def machine : Machine Race RaceLabel := ⟨fun s => s = start, step⟩

/-- A histogram that has been printed is valid. -/
def PrintsValid (s : Race) : Prop := ∀ p, printed s.loads = some p → p.Valid

end Race

/-! ## The invariant -/

theorem bucketOf_lt {nanos k : Nat} (found : Histogram.bucketOf nanos = some k) : k < 12 :=
  (List.findIdx?_eq_some_iff_findIdx_eq.mp found).1

namespace Observation

/-- What is left of a call, with what it has recorded. -/
def Ok (o : Observation) : Prop :=
  ∃ micros,
    (o.rest = (Histogram.bucketOf o.nanos).toList.map .bucket ++ [.count, .sumMicros micros] ∧
      o.bucketAt = none ∧ o.countAt = none) ∨
    (o.rest = [.count, .sumMicros micros] ∧ o.countAt = none) ∨ o.rest = [.sumMicros micros] ∨
      o.rest = []

theorem start_ok (nanos : Nat) : (start nanos).Ok := ⟨_, Or.inl ⟨rfl, rfl, rfl⟩⟩

/-- What the next update of a call is, and what it records of it. -/
inductive Stepped (loads : Nat) (o : Observation) : Observation → HistogramUpdate → Prop
  | bucket {k : Nat} {rest : List HistogramUpdate} (own : Histogram.bucketOf o.nanos = some k)
      (first : o.bucketAt = none) :
      Stepped loads o { o with rest, bucketAt := some loads } (.bucket k)
  | count {rest : List HistogramUpdate} (first : o.countAt = none) :
      Stepped loads o { o with rest, countAt := some loads } .count
  | sum {rest : List HistogramUpdate} {micros : Nat} :
      Stepped loads o { o with rest } (.sumMicros micros)

theorem step_stepped {o after : Observation} {loads : Nat} {u : HistogramUpdate} (ok : o.Ok)
    (stepped : o.step loads = some (after, u)) : Stepped loads o after u ∧ after.Ok := by
  obtain ⟨micros, ⟨rest, first, uncounted⟩ | ⟨rest, uncounted⟩ | rest | rest⟩ := ok
  · cases bucket : Histogram.bucketOf o.nanos with
    | none =>
        rw [bucket] at rest
        simp only [step, rest, Option.toList_none, List.map_nil, List.nil_append] at stepped
        cases stepped
        exact ⟨.count uncounted, micros, Or.inr (Or.inr (Or.inl rfl))⟩
    | some k =>
        rw [bucket] at rest
        simp only [step, rest, Option.toList_some, List.map_cons, List.map_nil,
          List.cons_append, List.nil_append] at stepped
        cases stepped
        exact ⟨.bucket bucket first, micros, Or.inr (Or.inl ⟨rfl, uncounted⟩)⟩
  · simp only [step, rest] at stepped
    cases stepped
    exact ⟨.count uncounted, micros, Or.inr (Or.inr (Or.inl rfl))⟩
  · simp only [step, rest] at stepped
    cases stepped
    exact ⟨.sum, micros, Or.inr (Or.inr (Or.inr rfl))⟩
  · simp only [step, rest] at stepped
    cases stepped

/-- A call records no more loads than there have been. -/
def Timely (loads : Nat) (o : Observation) : Prop :=
  (∀ early, o.bucketAt = some early → early ≤ loads) ∧
    ∀ early, o.countAt = some early → early ≤ loads

theorem start_timely (nanos loads : Nat) : (start nanos).Timely loads := by
  constructor
  · intro early at_
    cases at_
  · intro early at_
    cases at_

theorem Timely.mono {o : Observation} {loads more : Nat} (timely : o.Timely loads)
    (le : loads ≤ more) : o.Timely more :=
  ⟨fun early at_ => Nat.le_trans (timely.1 early at_) le,
    fun early at_ => Nat.le_trans (timely.2 early at_) le⟩

theorem Stepped.timely {o after : Observation} {loads : Nat} {u : HistogramUpdate}
    (timely : o.Timely loads) (moved : Stepped loads o after u) : after.Timely loads := by
  cases moved with
  | bucket own first => exact ⟨fun early at_ => by cases at_; exact Nat.le_refl _, timely.2⟩
  | count first => exact ⟨timely.1, fun early at_ => by cases at_; exact Nat.le_refl _⟩
  | sum => exact timely

/-- An update shows in its bucket or in the count, and never in what is loaded already. -/
theorem Stepped.inBucket {o after : Observation} {loads : Nat} {u : HistogramUpdate}
    (moved : Stepped loads o after u) (k : Nat) :
    (after.inBucket k).toNat = (o.inBucket k).toNat + if u = .bucket k then 1 else 0 := by
  cases moved with
  | @bucket k' rest own first =>
      by_cases same : k' = k <;> simp [Observation.inBucket, own, first, same]
  | count first => simp [Observation.inBucket]
  | sum => simp [Observation.inBucket]

theorem Stepped.counted {o after : Observation} {loads : Nat} {u : HistogramUpdate}
    (moved : Stepped loads o after u) :
    after.countAt.isSome.toNat = o.countAt.isSome.toNat + if u = .count then 1 else 0 := by
  cases moved with
  | bucket own first => simp
  | count first => simp [first]
  | sum => simp

theorem Stepped.shown {o after : Observation} {loads : Nat} {u : HistogramUpdate}
    (moved : Stepped loads o after u) : after.shown loads = o.shown loads := by
  cases moved with
  | @bucket k rest own first =>
      simp only [Observation.shown, own, first]
      by_cases early : k < loads
      · have late : ¬ loads ≤ k := by omega
        simp [late]
      · simp [early]
  | count first => rfl
  | sum => rfl

theorem Stepped.countedBy {o after : Observation} {loads position : Nat} {u : HistogramUpdate}
    (moved : Stepped loads o after u) (past : position < loads) :
    after.countedBy position = o.countedBy position := by
  cases moved with
  | bucket own first => rfl
  | count first =>
      simp only [Observation.countedBy, first, decide_eq_false_iff_not]
      omega
  | sum => rfl

end Observation

namespace Race

/-- The counters and the loaded values, in numbers of observations. -/
structure Inv (s : Race) : Prop where
  width : s.histogram.buckets.length = 12
  ok : ∀ o ∈ s.observations, o.Ok
  timely : ∀ o ∈ s.observations, o.Timely s.loads.length
  buckets : ∀ k < 12, s.histogram.buckets[k]? = some (s.observations.countP (·.inBucket k))
  count : s.histogram.count = s.observations.countP (·.countAt.isSome)
  finite : (s.loads.take 12).sum = s.observations.countP (·.shown s.loads.length)
  inf : ∀ value, s.loads[12]? = some value → value = s.observations.countP (·.countedBy 12)
  total : ∀ value, s.loads[14]? = some value → value = s.observations.countP (·.countedBy 14)

theorem start_inv : start.Inv := by
  refine ⟨rfl, fun o member => ?_, fun o member => ?_, fun k inside => ?_, rfl, rfl,
    fun value found => ?_, fun value found => ?_⟩
  · cases member
  · cases member
  · simp only [start, Histogram.new, List.getElem?_replicate, List.countP_nil]
    exact if_pos inside
  · cases found
  · cases found

theorem observe_inv {s : Race} (inv : s.Inv) (nanos : Nat) :
    ({ s with observations := s.observations ++ [.start nanos] } : Race).Inv := by
  -- a call that has updated nothing is in none of the numbers
  have shown : (Observation.start nanos).shown s.loads.length = false := by
    unfold Observation.shown
    cases Histogram.bucketOf (Observation.start nanos).nanos <;> rfl
  refine ⟨inv.width, fun o member => ?_, fun o member => ?_, fun k inside => ?_, ?_, ?_,
    fun value found => ?_, fun value found => ?_⟩
  · rcases List.mem_append.mp member with old | new
    · exact inv.ok o old
    · rw [List.mem_singleton.mp new]
      exact Observation.start_ok nanos
  · rcases List.mem_append.mp member with old | new
    · exact inv.timely o old
    · rw [List.mem_singleton.mp new]
      exact Observation.start_timely nanos _
  · rw [inv.buckets k inside, List.countP_append]
    rfl
  · rw [inv.count, List.countP_append]
    rfl
  · rw [inv.finite, List.countP_append, List.countP_singleton, shown]
    rfl
  · rw [inv.inf value found, List.countP_append]
    rfl
  · rw [inv.total value found, List.countP_append]
    rfl

theorem update_inv {s : Race} {index : Nat} {o after : Observation} {u : HistogramUpdate}
    (inv : s.Inv) (found : s.observations[index]? = some o)
    (stepped : o.step s.loads.length = some (after, u)) :
    ({ s with
        histogram := s.histogram.apply u
        observations := s.observations.set index after } : Race).Inv := by
  have member := List.mem_of_getElem? found
  obtain ⟨moved, ok⟩ := Observation.step_stepped (inv.ok o member) stepped
  have same : ∀ p : Observation → Bool, p after = p o →
      (s.observations.set index after).countP p = s.observations.countP p := by
    intro p agree
    have changed := countP_set p after found
    rw [agree] at changed
    omega
  refine ⟨?_, fun o' member' => ?_, fun o' member' => ?_, fun k inside => ?_, ?_, ?_,
    fun value loaded => ?_, fun value loaded => ?_⟩
  · cases u with
    | bucket k => exact (List.length_modify _ _ _).trans inv.width
    | count => exact inv.width
    | sumMicros micros => exact inv.width
  · rcases List.mem_or_eq_of_mem_set member' with old | rfl
    · exact inv.ok o' old
    · exact ok
  · rcases List.mem_or_eq_of_mem_set member' with old | rfl
    · exact inv.timely o' old
    · exact moved.timely (inv.timely o member)
  · have changed := countP_set (·.inBucket k) after found
    have own := moved.inBucket k
    show (s.histogram.apply u).buckets[k]? =
      some ((s.observations.set index after).countP (·.inBucket k))
    rw [Histogram.apply_buckets, inv.buckets k inside, Option.map_some]
    congr 1
    omega
  · have changed := countP_set (fun o => o.countAt.isSome) after found
    have own := moved.counted
    show (s.histogram.apply u).count =
      (s.observations.set index after).countP fun o => o.countAt.isSome
    rw [Histogram.apply_count, inv.count]
    omega
  · exact inv.finite.trans (same _ moved.shown).symm
  · have past : 12 < s.loads.length := (List.getElem?_eq_some_iff.mp loaded).1
    exact (inv.inf value loaded).trans (same _ (moved.countedBy past)).symm
  · have past : 14 < s.loads.length := (List.getElem?_eq_some_iff.mp loaded).1
    exact (inv.total value loaded).trans (same _ (moved.countedBy past)).symm

theorem shown_succ {loads : Nat} {o : Observation} (timely : o.Timely loads) :
    (o.shown (loads + 1)).toNat = (o.shown loads).toNat + (o.inBucket loads).toNat := by
  unfold Observation.shown Observation.inBucket
  cases own : Histogram.bucketOf o.nanos with
  | none => simp
  | some k =>
      cases at_ : o.bucketAt with
      | none => simp
      | some early =>
          have bound := timely.1 early at_
          rcases Nat.lt_trichotomy k loads with before | rfl | after
          · have now : k < loads + 1 := by omega
            have other : k ≠ loads := by omega
            simp [before, now, other]
          · simp [bound]
          · have later : ¬ k < loads + 1 := by omega
            have yet : ¬ k < loads := by omega
            have other : k ≠ loads := by omega
            simp [later, yet, other]

/-- A bucket that is loaded shows the calls that have updated it. -/
theorem countP_shown_succ {loads : Nat} {observations : List Observation}
    (timely : ∀ o ∈ observations, o.Timely loads) :
    observations.countP (·.shown (loads + 1)) =
      observations.countP (·.shown loads) + observations.countP (·.inBucket loads) := by
  induction observations with
  | nil => rfl
  | cons o rest ih =>
      have others := ih fun o member => timely o (List.mem_cons_of_mem _ member)
      have first := shown_succ (timely o List.mem_cons_self)
      simp only [List.countP_cons, others]
      cases now : o.shown (loads + 1) <;> cases before : o.shown loads <;>
        cases own : o.inBucket loads <;> simp [now, before, own] at first ⊢ <;> omega

/-- No call is of a bucket past the twelfth load. -/
theorem inBucket_past {loads : Nat} (past : 12 ≤ loads) (o : Observation) :
    o.inBucket loads = false := by
  unfold Observation.inBucket
  have other : ¬ Histogram.bucketOf o.nanos = some loads := by
    intro own
    have inside := bucketOf_lt own
    omega
  simp [other]

/-- Every call that has counted is among those counted by now. -/
theorem countP_countedBy {loads : Nat} {observations : List Observation}
    (timely : ∀ o ∈ observations, o.Timely loads) :
    observations.countP (·.countAt.isSome) = observations.countP (·.countedBy loads) := by
  refine List.countP_congr fun o member => ?_
  unfold Observation.countedBy
  cases at_ : o.countAt with
  | none => simp
  | some early => simp [(timely o member).2 early at_]

theorem cells_eq_some {s : Race} (inv : s.Inv) {position value : Nat}
    (found : s.histogram.cells[position]? = some value) :
    position < 15 ∧ (position < 12 → value = s.observations.countP (·.inBucket position)) ∧
      (position = 12 ∨ position = 14 → value = s.observations.countP (·.countAt.isSome)) := by
  have width := inv.width
  have bound : position < s.histogram.cells.length := (List.getElem?_eq_some_iff.mp found).1
  simp only [Histogram.cells, List.length_append, width, List.length_cons, List.length_nil] at bound
  refine ⟨bound, fun inside => ?_, fun at_ => ?_⟩
  · rw [Histogram.cells, List.getElem?_append_left (by omega), inv.buckets position inside] at found
    exact (Option.some.inj found).symm
  · rw [Histogram.cells, List.getElem?_append_right (by omega), width] at found
    rw [← inv.count]
    rcases at_ with rfl | rfl
    · exact (Option.some.inj found).symm
    · exact (Option.some.inj found).symm

theorem load_inv {s : Race} {value : Nat} (inv : s.Inv)
    (found : s.histogram.cells[s.loads.length]? = some value) :
    ({ s with loads := s.loads ++ [value] } : Race).Inv := by
  obtain ⟨-, bucket, counted⟩ := cells_eq_some inv found
  have length : (s.loads ++ [value]).length = s.loads.length + 1 := List.length_append
  -- the values in the positions of the two count loads
  have at_ : ∀ position shown, (s.loads ++ [value])[position]? = some shown →
      s.loads[position]? = some shown ∨ position = s.loads.length ∧ shown = value := by
    intro position shown loaded
    rcases Nat.lt_or_ge position s.loads.length with old | new
    · rw [List.getElem?_append_left old] at loaded
      exact Or.inl loaded
    · have last : position < s.loads.length + 1 := length ▸ (List.getElem?_eq_some_iff.mp loaded).1
      obtain rfl : position = s.loads.length := by omega
      rw [List.getElem?_concat_length] at loaded
      exact Or.inr ⟨rfl, (Option.some.inj loaded).symm⟩
  refine ⟨inv.width, inv.ok, fun o member => ?_, inv.buckets, inv.count, ?_, ?_, ?_⟩
  · exact (inv.timely o member).mono (length ▸ Nat.le_succ _)
  · show ((s.loads ++ [value]).take 12).sum = s.observations.countP (·.shown (s.loads ++ [value]).length)
    rw [length, countP_shown_succ inv.timely, ← inv.finite]
    rcases Nat.lt_or_ge s.loads.length 12 with inside | past
    · rw [← bucket inside, List.take_of_length_le (by omega), List.take_of_length_le (by omega),
        List.sum_append]
      rfl
    · have none : s.observations.countP (·.inBucket s.loads.length) = 0 :=
        List.countP_eq_zero.mpr fun o _ => by rw [inBucket_past past]; exact Bool.false_ne_true
      rw [none, List.take_append_of_le_length past]
      rfl
  · intro shown loaded
    rcases at_ 12 shown loaded with old | ⟨here, rfl⟩
    · exact inv.inf shown old
    · rw [counted (Or.inl here.symm), countP_countedBy inv.timely, ← here]
  · intro shown loaded
    rcases at_ 14 shown loaded with old | ⟨here, rfl⟩
    · exact inv.total shown old
    · rw [counted (Or.inr here.symm), countP_countedBy inv.timely, ← here]

theorem step_inv {s t : Race} {label : RaceLabel} (inv : s.Inv) (stepped : s.step label = some t) :
    t.Inv := by
  cases label with
  | observe nanos =>
      obtain rfl := Option.some.inj stepped
      exact observe_inv inv nanos
  | update index =>
      simp only [step] at stepped
      split at stepped <;> [cases stepped; skip]
      rename_i o found
      obtain ⟨⟨after, u⟩, moved, rfl⟩ := Option.map_eq_some_iff.mp stepped
      exact update_inv inv found moved
  | load =>
      obtain ⟨value, found, rfl⟩ := Option.map_eq_some_iff.mp stepped
      exact load_inv inv found

/-! ## When the printed histogram is valid -/

/-- At its last load, the render has caught no more calls between their bucket and their
count than it has missed the bucket of, and none has counted between its two loads of the
count. -/
structure Calm (s : Race) : Prop where
  between : s.observations.countP (fun o => o.shown s.loads.length && !o.countedBy 12) ≤
    s.observations.countP (fun o => o.countedBy 12 && !o.shown s.loads.length)
  late : ∀ o ∈ s.observations, ∀ early, o.countAt = some early → early ≤ 12

/-- The step is not the last load of a render that is not calm. -/
def FinishesCalm (s : Race) (label : RaceLabel) : Prop :=
  label = .load → s.loads.length = 14 → s.Calm

theorem shown_le_iff (s : Race) :
    s.observations.countP (·.shown s.loads.length) ≤ s.observations.countP (·.countedBy 12) ↔
      s.observations.countP (fun o => o.shown s.loads.length && !o.countedBy 12) ≤
        s.observations.countP (fun o => o.countedBy 12 && !o.shown s.loads.length) := by
  have both := countP_add_countP (·.shown s.loads.length) (·.countedBy 12) s.observations
  omega

theorem counted_eq_iff (s : Race) :
    s.observations.countP (·.countedBy 12) = s.observations.countP (·.countAt.isSome) ↔
      ∀ o ∈ s.observations, ∀ early, o.countAt = some early → early ≤ 12 := by
  have both := countP_add_countP (fun o : Observation => o.countAt.isSome) (·.countedBy 12)
    s.observations
  have inside : s.observations.countP (fun o => o.countedBy 12 && !o.countAt.isSome) = 0 := by
    refine List.countP_eq_zero.mpr fun o _ => ?_
    unfold Observation.countedBy
    cases o.countAt <;> simp
  have none : s.observations.countP (fun o => o.countAt.isSome && !o.countedBy 12) = 0 ↔
      ∀ o ∈ s.observations, ∀ early, o.countAt = some early → early ≤ 12 := by
    rw [List.countP_eq_zero]
    refine forall_congr' fun o => forall_congr' fun _ => ?_
    unfold Observation.countedBy
    cases at_ : o.countAt <;> simp
  rw [← none]
  omega

/-- What the last load prints is valid exactly if the render was calm. -/
theorem last_load_valid {s : Race} (inv : s.Inv) {count : Nat}
    (found : s.histogram.cells[s.loads.length]? = some count) (last : s.loads.length = 14) :
    (∀ p, printed (s.loads ++ [count]) = some p → p.Valid) ↔ s.Calm := by
  obtain ⟨inf, sumMicros, infAt, prints⟩ := printed_last last count
  have counted := (cells_eq_some inv found).2.2 (Or.inr last)
  have finite : s.loads.take 12 ≠ [] := by
    intro empty
    have length := congrArg List.length empty
    simp only [List.length_take, List.length_nil] at length
    omega
  rw [prints]
  simp only [Option.some.injEq, forall_eq']
  rw [valid_iff finite, inv.finite, inv.inf inf infAt, counted, shown_le_iff, counted_eq_iff]
  exact ⟨fun calm => ⟨calm.1, calm.2⟩, fun calm => ⟨calm.between, calm.late⟩⟩

theorem step_valid_iff {s t : Race} {label : RaceLabel} (inv : s.Inv) (valid : s.PrintsValid)
    (stepped : s.step label = some t) : t.PrintsValid ↔ FinishesCalm s label := by
  cases label with
  | observe nanos =>
      obtain rfl := Option.some.inj stepped
      refine iff_of_true valid ?_
      intro same
      cases same
  | update index =>
      simp only [step] at stepped
      split at stepped <;> [cases stepped; skip]
      obtain ⟨after, -, rfl⟩ := Option.map_eq_some_iff.mp stepped
      refine iff_of_true valid ?_
      intro same
      cases same
  | load =>
      obtain ⟨count, found, rfl⟩ := Option.map_eq_some_iff.mp stepped
      by_cases last : s.loads.length = 14
      · have exactly := last_load_valid inv found last
        exact ⟨fun after _ _ => exactly.mp after, fun calm => exactly.mpr (calm rfl last)⟩
      · refine iff_of_true (fun p prints => ?_) (fun _ here => absurd here last)
        have length := printed_length prints
        simp only [List.length_append, List.length_singleton] at length
        omega

/-- In every run, a printed histogram is valid iff the render was calm at its last load. -/
theorem rendered_valid_iff (labels : List RaceLabel) :
    machine.Along PrintsValid start labels ↔ machine.Guarded FinishesCalm start labels := by
  refine machine.along_iff_guarded (fun _ _ _ inv stepped => step_inv inv stepped)
    (fun _ _ _ inv valid stepped => step_valid_iff inv valid stepped) start_inv ?_
  intro p prints
  cases prints

/-- The render runs while an observation of a millisecond is between its two updates. -/
theorem torn_histogram :
    ¬ machine.Along PrintsValid start
      (.observe 1_000_000 :: .update 0 :: List.replicate 15 .load) := by
  have reaches : ∃ s p, machine.exec start
      (.observe 1_000_000 :: .update 0 :: List.replicate 15 .load) = some s ∧
      printed s.loads = some p ∧ p.finite.getLast? = some 1 ∧ p.inf = 0 := ⟨_, _, rfl, rfl, rfl, rfl⟩
  obtain ⟨s, p, ran, prints, last, inf⟩ := reaches
  intro along
  have le := (along.last ran p prints).last 1 last
  rw [inf] at le
  exact absurd le (by decide)

end Race

end Portrelay.Metrics
