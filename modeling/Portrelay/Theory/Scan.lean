/-
# Theory.Scan -- readers that visit the cells of a running machine one at a time

`Machine.scanning` adds readers to a machine: each reads its next cell when its turn comes,
and the machine and the other readers move between two reads.  What a scan has read is the
list of the values it found.

* `exec_shared` -- the readers do not disturb the machine.
* `exec_reads` -- a scan that nothing comes between reads the cells as they are.
* `Rises.scans_le` -- for cells that only rise: a scan that begins after another has ended
  reads no smaller a value.
-/
import Portrelay.Theory.Machine

namespace Portrelay.Theory

set_option autoImplicit false

universe u v

/-- A machine's state, and what each reader has read. -/
structure Scanned (σ : Type u) (β : Type u) where
  shared : σ
  scans : List (List β)

inductive ScanLabel (α : Type v)
  | own (a : α)
  | scan
  | read (scan : Nat)

namespace Machine

variable {σ : Type u} {α : Type v} {β : Type u} (M : Machine σ α) (cell : σ → Nat → Option β)

def scanStep (s : Scanned σ β) : ScanLabel α → Option (Scanned σ β)
  | .own a => (M.step s.shared a).map fun t => { s with shared := t }
  | .scan => some { s with scans := s.scans ++ [[]] }
  | .read scan =>
      match s.scans[scan]? with
      | none => none
      | some loads =>
          (cell s.shared loads.length).map fun value =>
            { s with scans := s.scans.set scan (loads ++ [value]) }

def scanning : Machine (Scanned σ β) (ScanLabel α) :=
  ⟨fun s => M.init s.shared ∧ s.scans = [], M.scanStep cell⟩

inductive ScanStepped (s : Scanned σ β) : ScanLabel α → Scanned σ β → Prop
  | own {a : α} {t : σ} (moved : M.step s.shared a = some t) :
      ScanStepped s (.own a) { s with shared := t }
  | scan : ScanStepped s .scan { s with scans := s.scans ++ [[]] }
  | read {scan : Nat} {loads : List β} {value : β} (found : s.scans[scan]? = some loads)
      (here : cell s.shared loads.length = some value) :
      ScanStepped s (.read scan) { s with scans := s.scans.set scan (loads ++ [value]) }

variable {M cell}

theorem scanStep_stepped {s t : Scanned σ β} {label : ScanLabel α}
    (stepped : (M.scanning cell).step s label = some t) : M.ScanStepped cell s label t := by
  cases label with
  | own a =>
      obtain ⟨u, moved, rfl⟩ := Option.map_eq_some_iff.mp stepped
      exact .own moved
  | scan =>
      obtain rfl := Option.some.inj stepped
      exact .scan
  | read scan =>
      simp only [scanning, scanStep] at stepped
      split at stepped
      · cases stepped
      · next loads found =>
          obtain ⟨value, here, rfl⟩ := Option.map_eq_some_iff.mp stepped
          exact .read found here

/-- The machine's own steps of a run. -/
def ownLabel : ScanLabel α → Option α
  | .own a => some a
  | _ => none

theorem exec_shared {s t : Scanned σ β} {labels : List (ScanLabel α)}
    (ran : (M.scanning cell).exec s labels = some t) :
    M.exec s.shared (labels.filterMap ownLabel) = some t.shared := by
  refine (M.scanning cell).exec_filterMap M Scanned.shared ownLabel ?_ ran
  intro s a t stepped
  cases scanStep_stepped stepped with
  | own moved => exact moved
  | scan => rfl
  | read found here => rfl

theorem reachable_shared {s : Scanned σ β} (reached : (M.scanning cell).Reachable s) :
    M.Reachable s.shared := by
  obtain ⟨start, labels, initial, ran⟩ := ((M.scanning cell).reachable_iff_exec s).mp reached
  exact Reachable.exec (.start initial.1) (exec_shared ran)

/-- How a cell's values may follow one another, and that they do. -/
structure Rises (M : Machine σ α) (cell : σ → Nat → Option β) (R : Nat → β → β → Prop) : Prop where
  refl : ∀ p v, R p v v
  trans : ∀ p u v w, R p u v → R p v w → R p u w
  step : ∀ s a t p v, M.step s a = some t → cell s p = some v → ∃ w, cell t p = some w ∧ R p v w

section

variable {R : Nat → β → β → Prop}

/-- Every value read is one its cell has risen from. -/
def Behind (R : Nat → β → β → Prop) (cell : σ → Nat → Option β) (s : σ) (loads : List β) : Prop :=
  ∀ p v, loads[p]? = some v → ∃ now, cell s p = some now ∧ R p v now

/-- Every value read is one its cell has risen to. -/
def Ahead (R : Nat → β → β → Prop) (cell : σ → Nat → Option β) (s : σ) (loads : List β) : Prop :=
  ∀ p v, loads[p]? = some v → ∀ before, cell s p = some before → R p before v

def Risen (R : Nat → β → β → Prop) (cell : σ → Nat → Option β) (s t : σ) : Prop :=
  ∀ p v, cell s p = some v → ∃ w, cell t p = some w ∧ R p v w

theorem Rises.behind (rises : Rises M cell R) {s t : σ} {a : α} {loads : List β}
    (behind : Behind R cell s loads) (stepped : M.step s a = some t) : Behind R cell t loads := by
  intro p v read
  obtain ⟨now, here, less⟩ := behind p v read
  obtain ⟨after, there, risen⟩ := rises.step s a t p now stepped here
  exact ⟨after, there, rises.trans p v now after less risen⟩

theorem Rises.risen (rises : Rises M cell R) {s t u : σ} {a : α} (risen : Risen R cell s t)
    (stepped : M.step t a = some u) : Risen R cell s u := by
  intro p v here
  obtain ⟨now, there, less⟩ := risen p v here
  obtain ⟨after, later, more⟩ := rises.step t a u p now stepped there
  exact ⟨after, later, rises.trans p v now after less more⟩

theorem getElem?_concat {loads : List β} {value v : β} {p : Nat}
    (found : (loads ++ [value])[p]? = some v) :
    loads[p]? = some v ∨ p = loads.length ∧ v = value := by
  rcases Nat.lt_or_ge p loads.length with inside | outside
  · rw [List.getElem?_append_left inside] at found
    exact Or.inl found
  · rw [List.getElem?_append_right outside] at found
    have last : p - loads.length = 0 := by
      by_contra more
      rw [List.getElem?_eq_none (by rw [List.length_singleton]; omega)] at found
      cases found
    rw [last] at found
    exact Or.inr ⟨by omega, (Option.some.inj found).symm⟩

/-- What a step does to what one reader has read. -/
theorem step_scan {s t : Scanned σ β} {label : ScanLabel α}
    (stepped : (M.scanning cell).step s label = some t) {scan : Nat} {loads : List β}
    (found : t.scans[scan]? = some loads) :
    s.scans[scan]? = some loads ∨ s.scans.length ≤ scan ∧ loads = [] ∨
      ∃ before value, s.scans[scan]? = some before ∧ cell s.shared before.length = some value ∧
        loads = before ++ [value] ∧ t.shared = s.shared := by
  cases scanStep_stepped stepped with
  | own moved => exact Or.inl found
  | scan =>
      rcases getElem?_concat found with before | ⟨here, none_⟩
      · exact Or.inl before
      · exact Or.inr (Or.inl ⟨by omega, none_⟩)
  | @read other before value found' here =>
      by_cases same : other = scan
      · subst same
        have inside := (List.getElem?_eq_some_iff.mp found').1
        have loaded : loads = before ++ [value] := by
          have set := List.getElem?_set_self (a := before ++ [value]) inside
          exact Option.some.inj (found.symm.trans set)
        exact Or.inr (Or.inr ⟨before, value, found', here, loaded, rfl⟩)
      · have kept := List.getElem?_set_ne (l := s.scans) (a := before ++ [value]) same
        exact Or.inl (kept.symm.trans found)

theorem step_shared {s t : Scanned σ β} {label : ScanLabel α}
    (stepped : (M.scanning cell).step s label = some t) :
    t.shared = s.shared ∨ ∃ a, M.step s.shared a = some t.shared := by
  cases scanStep_stepped stepped with
  | own moved => exact Or.inr ⟨_, moved⟩
  | scan => exact Or.inl rfl
  | read found here => exact Or.inl rfl

theorem step_scans_length {s t : Scanned σ β} {label : ScanLabel α}
    (stepped : (M.scanning cell).step s label = some t) : s.scans.length ≤ t.scans.length := by
  cases scanStep_stepped stepped with
  | own moved => exact Nat.le_refl _
  | scan =>
      rw [List.length_append]
      exact Nat.le_add_right _ _
  | read found here =>
      exact Nat.le_of_eq List.length_set.symm

/-- In every run all that was read is behind. -/
theorem Rises.reachable_behind (rises : Rises M cell R) {s : Scanned σ β}
    (reached : (M.scanning cell).Reachable s) :
    ∀ (scan : Nat) (loads : List β), s.scans[scan]? = some loads → Behind R cell s.shared loads := by
  refine (M.scanning cell).invariant (P := fun s => ∀ (scan : Nat) (loads : List β),
    s.scans[scan]? = some loads → Behind R cell s.shared loads) ?_ ?_ reached
  · rintro s ⟨-, none_⟩ scan loads found
    rw [none_] at found
    cases found
  · intro s label t _ behind stepped scan loads found
    have kept : ∀ {loads : List β}, Behind R cell s.shared loads → Behind R cell t.shared loads := by
      intro loads behind
      rcases step_shared stepped with same | ⟨a, moved⟩
      · rw [same]
        exact behind
      · exact rises.behind behind moved
    rcases step_scan stepped found with before | ⟨-, rfl⟩ | ⟨before, value, found', here, rfl, same⟩
    · exact kept (behind scan loads before)
    · intro p v read
      cases read
    · intro p v read
      rcases getElem?_concat read with early | ⟨rfl, rfl⟩
      · exact kept (behind scan before found') p v early
      · rw [same]
        exact ⟨v, here, rises.refl _ v⟩

/-- What the readers that began after `m` have read is ahead of `m`. -/
structure Since (R : Nat → β → β → Prop) (cell : σ → Nat → Option β) (m s : Scanned σ β) : Prop where
  risen : Risen R cell m.shared s.shared
  more : m.scans.length ≤ s.scans.length
  ahead : ∀ (scan : Nat) (loads : List β), m.scans.length ≤ scan → s.scans[scan]? = some loads →
    Ahead R cell m.shared loads

theorem Rises.since_refl (rises : Rises M cell R) (m : Scanned σ β) : Since R cell m m := by
  refine ⟨fun p v here => ⟨v, here, rises.refl p v⟩, Nat.le_refl _, ?_⟩
  intro scan loads new found
  rw [List.getElem?_eq_none new] at found
  cases found

theorem Rises.since_step (rises : Rises M cell R) {m s t : Scanned σ β} {label : ScanLabel α}
    (since : Since R cell m s) (stepped : (M.scanning cell).step s label = some t) :
    Since R cell m t := by
  refine ⟨?_, Nat.le_trans since.more (step_scans_length stepped), ?_⟩
  · rcases step_shared stepped with same | ⟨a, moved⟩
    · rw [same]
      exact since.risen
    · exact rises.risen since.risen moved
  · intro scan loads new found
    rcases step_scan stepped found with before | ⟨-, rfl⟩ | ⟨before, value, found', here, rfl, -⟩
    · exact since.ahead scan loads new before
    · intro p v read
      cases read
    · intro p v read then_ was
      rcases getElem?_concat read with early | ⟨rfl, rfl⟩
      · exact since.ahead scan before new found' p v early then_ was
      · obtain ⟨now, there, risen⟩ := since.risen _ then_ was
        obtain rfl := Option.some.inj (here.symm.trans there)
        exact risen

theorem Rises.since_exec (rises : Rises M cell R) {m t : Scanned σ β} {labels : List (ScanLabel α)}
    (ran : (M.scanning cell).exec m labels = some t) : Since R cell m t :=
  ((M.scanning cell).along_of_kept (fun _ _ _ since stepped => rises.since_step since stepped)
    (rises.since_refl m) labels).last ran

/-- A scan that began when another had ended reads no less. -/
theorem Rises.scans_le (rises : Rises M cell R) {m t : Scanned σ β}
    (reached : (M.scanning cell).Reachable m) {labels : List (ScanLabel α)}
    (ran : (M.scanning cell).exec m labels = some t) {early late : Nat} {old new : List β}
    (ended : m.scans[early]? = some old) (began : m.scans.length ≤ late)
    (found : t.scans[late]? = some new) {p : Nat} {v w : β} (read : old[p]? = some v)
    (read' : new[p]? = some w) : R p v w := by
  obtain ⟨now, here, risen⟩ := rises.reachable_behind reached early old ended p v read
  have ahead := (rises.since_exec ran).ahead late new began found p w read' now here
  exact rises.trans p v now w risen ahead

/-- A scan that nothing comes between reads what the cells are. -/
theorem exec_reads {s : Scanned σ β} {scan : Nat} {loads : List β}
    (found : s.scans[scan]? = some loads) (values : List β)
    (here : ∀ i v, values[i]? = some v → cell s.shared (loads.length + i) = some v) :
    (M.scanning cell).exec s (List.replicate values.length (.read scan)) =
      some { s with scans := s.scans.set scan (loads ++ values) } := by
  induction values generalizing s loads with
  | nil =>
      obtain ⟨inside, same⟩ := List.getElem?_eq_some_iff.mp found
      rw [List.append_nil, ← same, List.set_getElem_self]
      rfl
  | cons value values ih =>
      have inside := (List.getElem?_eq_some_iff.mp found).1
      have first := here 0 value rfl
      have stepped : (M.scanning cell).step s (.read scan) =
          some { s with scans := s.scans.set scan (loads ++ [value]) } := by
        simp only [scanning, scanStep, found]
        rw [show cell s.shared loads.length = some value from first]
        rfl
      have found' : (s.scans.set scan (loads ++ [value]))[scan]? = some (loads ++ [value]) :=
        List.getElem?_set_self inside
      have later := ih (s := { s with scans := s.scans.set scan (loads ++ [value]) }) found' (by
        intro i v read
        rw [List.length_append, List.length_singleton, Nat.add_assoc, Nat.add_comm 1 i]
        exact here (i + 1) v read)
      rw [List.length_cons, List.replicate_succ, exec_cons, stepped, Option.bind_some, later,
        List.set_set, List.append_assoc, List.singleton_append]

end

end Machine

end Portrelay.Theory
