/-
# Theory.Slices -- bounded slices, windows, lines and trimming of lists

Slices that fail where an index is out of range, as in languages that check them.

* `slice_middle` -- the middle of three parts is the slice between their lengths.
* `mem_windows` -- the windows of a list are its infixes of that length.
* `Trims.trim_eq` -- what a list trims to is one list, the one `trim` computes.
-/
import Mathlib.Data.List.Infix
import Mathlib.Data.List.TakeWhile

namespace Portrelay.Theory

set_option autoImplicit false

universe u

variable {α : Type u}

/-! ## Slices -/

/-- `xs[start..stop]` -/
def slice (xs : List α) (start stop : Nat) : Option (List α) :=
  if start ≤ stop ∧ stop ≤ xs.length then some ((xs.take stop).drop start) else none

/-- `xs[..stop]` -/
def sliceTo (xs : List α) (stop : Nat) : Option (List α) := slice xs 0 stop

/-- `xs[start..]` -/
def sliceFrom (xs : List α) (start : Nat) : Option (List α) := slice xs start xs.length

theorem slice_middle (front middle back : List α) :
    slice (front ++ middle ++ back) front.length (front.length + middle.length) = some middle := by
  have inside : front.length ≤ front.length + middle.length ∧
      front.length + middle.length ≤ (front ++ middle ++ back).length := by
    simp only [List.length_append]
    omega
  rw [slice, if_pos inside, ← List.length_append, List.take_left, List.drop_left]

theorem sliceTo_eq (xs : List α) (stop : Nat) (inside : stop ≤ xs.length) :
    sliceTo xs stop = some (xs.take stop) := by
  rw [sliceTo, slice, if_pos ⟨Nat.zero_le _, inside⟩, List.drop_zero]

theorem sliceFrom_eq (xs : List α) (start : Nat) (inside : start ≤ xs.length) :
    sliceFrom xs start = some (xs.drop start) := by
  rw [sliceFrom, slice, if_pos ⟨inside, Nat.le_refl _⟩, List.take_length]

/-! ## Positions -/

/-- What stands behind one element. -/
theorem drop_past (front : List α) (a : α) (back : List α) :
    (front ++ a :: back).drop (front.length + 1) = back := by
  rw [← List.drop_drop, List.drop_left, List.drop_one, List.tail_cons]

theorem beq_eq_false_of_not_mem [BEq α] [LawfulBEq α] {sep : α} {xs : List α} (without : sep ∉ xs) :
    ∀ a ∈ xs, (a == sep) = false := by
  intro a member
  refine beq_eq_false_iff_ne.mpr ?_
  rintro rfl
  exact without member

/-- The first element that satisfies `p`, past a front where none does. -/
theorem findIdx?_past {p : α → Bool} {front : List α} (none_ : ∀ a ∈ front, p a = false) {a : α}
    (found : p a = true) (back : List α) :
    (front ++ a :: back).findIdx? p = some front.length := by
  rw [List.findIdx?_append, List.findIdx?_eq_none_iff.mpr none_, List.findIdx?_cons, if_pos found,
    Option.none_or, Option.map_some, Nat.zero_add]

/-- What stands around the first element that satisfies `p`. -/
theorem findIdx?_parts {p : α → Bool} {xs : List α} {index : Nat}
    (first : xs.findIdx? p = some index) :
    ∃ front a back, xs = front ++ a :: back ∧ (∀ b ∈ front, p b = false) ∧ p a = true ∧
      index = front.length := by
  induction xs generalizing index with
  | nil => cases first
  | cons a rest ih =>
      rw [List.findIdx?_cons] at first
      split at first
      · rename_i found
        exact ⟨[], a, rest, rfl, fun b member => absurd member List.not_mem_nil, found,
          (Option.some.inj first).symm⟩
      · rename_i missed
        obtain ⟨later, second, rfl⟩ := Option.map_eq_some_iff.mp first
        obtain ⟨front, b, back, rfl, none_, found, rfl⟩ := ih second
        refine ⟨a :: front, b, back, rfl, ?_, found, rfl⟩
        intro c member
        rcases List.mem_cons.mp member with rfl | member
        · exact Bool.eq_false_iff.mpr missed
        · exact none_ c member

/-- The last position that satisfies `p`. -/
def rposition (p : α → Bool) (xs : List α) : Option Nat :=
  (xs.reverse.findIdx? p).map fun index => xs.length - 1 - index

theorem rposition_before {p : α → Bool} {back : List α} (none_ : ∀ a ∈ back, p a = false) {a : α}
    (found : p a = true) (front : List α) :
    rposition p (front ++ a :: back) = some front.length := by
  have reversed : (front ++ a :: back).reverse = back.reverse ++ a :: front.reverse := by
    simp only [List.reverse_append, List.reverse_cons, List.append_assoc, List.singleton_append]
  have last := findIdx?_past (fun b member => none_ b (List.mem_reverse.mp member)) found front.reverse
  rw [rposition, reversed, last, Option.map_some, Option.some_inj, List.length_append,
    List.length_cons, List.length_reverse]
  omega

/-- What stands around the last element that satisfies `p`. -/
theorem rposition_parts {p : α → Bool} {xs : List α} {index : Nat}
    (last : rposition p xs = some index) :
    ∃ front a back, xs = front ++ a :: back ∧ (∀ b ∈ back, p b = false) ∧ p a = true ∧
      index = front.length := by
  obtain ⟨first, position, same⟩ := Option.map_eq_some_iff.mp last
  obtain ⟨back, a, front, reversed, none_, found, rfl⟩ := findIdx?_parts position
  have shape : xs = front.reverse ++ a :: back.reverse := by
    rw [← List.reverse_reverse xs, reversed]
    simp only [List.reverse_append, List.reverse_cons, List.append_assoc, List.singleton_append]
  refine ⟨front.reverse, a, back.reverse, shape, ?_, found, ?_⟩
  · intro b member
    exact none_ b (List.mem_reverse.mp member)
  · rw [← same, shape]
    simp only [List.length_append, List.length_reverse, List.length_cons]
    omega

/-- The last separator splits a list in one way. -/
theorem append_cons_inj_last [BEq α] [LawfulBEq α] {sep : α} {front back front' back' : List α}
    (last : sep ∉ back) (last' : sep ∉ back')
    (same : front ++ sep :: back = front' ++ sep :: back') : front = front' ∧ back = back' := by
  have here := rposition_before (beq_eq_false_of_not_mem last) (beq_self_eq_true sep) front
  have there := rposition_before (beq_eq_false_of_not_mem last') (beq_self_eq_true sep) front'
  rw [same, there] at here
  obtain ⟨fronts, rest⟩ := List.append_inj same (Option.some.inj here).symm
  exact ⟨fronts, (List.cons.inj rest).2⟩

theorem rposition_eq_none {p : α → Bool} {xs : List α} (none_ : ∀ a ∈ xs, p a = false) :
    rposition p xs = none := by
  rw [rposition, List.findIdx?_eq_none_iff.mpr fun a member => none_ a (List.mem_reverse.mp member),
    Option.map_none]

/-! ## Windows -/

def windows (size : Nat) : List α → List (List α)
  | [] => []
  | a :: rest =>
      if size ≤ (a :: rest).length then (a :: rest).take size :: windows size rest else []

theorem mem_windows {size : Nat} (some_ : 0 < size) {xs window : List α} :
    window ∈ windows size xs ↔ window.length = size ∧ window <:+: xs := by
  induction xs with
  | nil =>
      refine ⟨fun member => absurd member List.not_mem_nil, fun ⟨length, inside⟩ => ?_⟩
      rw [List.infix_nil] at inside
      subst inside
      exact absurd length.symm some_.ne'
  | cons a rest ih =>
      have short : window.length = size → window <:+: rest → size ≤ (a :: rest).length :=
        fun length inside => by
          have le := inside.length_le
          rw [List.length_cons]
          omega
      have front : ∀ le : size ≤ (a :: rest).length,
          window = (a :: rest).take size ↔ window.length = size ∧ window <+: a :: rest := by
        intro le
        constructor
        · rintro rfl
          exact ⟨List.length_take_of_le le, List.take_prefix _ _⟩
        · rintro ⟨length, within⟩
          rw [← length]
          exact List.prefix_iff_eq_take.mp within
      rw [windows, List.infix_cons_iff]
      split
      · rename_i le
        rw [List.mem_cons, ih, front le]
        tauto
      · rename_i many
        refine ⟨fun member => absurd member List.not_mem_nil, fun ⟨length, inside⟩ => ?_⟩
        rcases inside with within | within
        · have le := within.length_le
          omega
        · exact absurd (short length within) many

/-! ## Lines -/

theorem not_mem_of_mem_splitOn [BEq α] [LawfulBEq α] {sep : α} {xs piece : List α}
    (member : piece ∈ xs.splitOn sep) : sep ∉ piece := by
  induction xs generalizing piece with
  | nil =>
      rw [List.splitOn_nil, List.mem_singleton] at member
      subst member
      exact List.not_mem_nil
  | cons a rest ih =>
      rw [List.splitOn_cons_eq_if_modifyHead] at member
      split at member
      · rcases List.mem_cons.mp member with rfl | later
        · exact List.not_mem_nil
        · exact ih later
      · rename_i other
        obtain ⟨first, others, pieces⟩ := List.exists_cons_of_ne_nil (List.splitOn_ne_nil sep rest)
        rw [pieces, List.modifyHead_cons] at member
        rw [pieces] at ih
        rcases List.mem_cons.mp member with rfl | later
        · rw [List.mem_cons, not_or]
          exact ⟨fun same => other (beq_iff_eq.mpr same.symm), ih List.mem_cons_self⟩
        · exact ih (List.mem_cons_of_mem _ later)

/-! ## Trimming -/

/-- No blank at either end. -/
def Bare (blank : α → Bool) (core : List α) : Prop :=
  (∀ a ∈ core.head?, blank a = false) ∧ ∀ a ∈ core.getLast?, blank a = false

instance (blank : α → Bool) (core : List α) : Decidable (Bare blank core) :=
  inferInstanceAs (Decidable (_ ∧ _))

/-- `core` is `value` without the blanks around it. -/
def Trims (blank : α → Bool) (value core : List α) : Prop :=
  ∃ front back, value = front ++ core ++ back ∧ (∀ a ∈ front, blank a = true) ∧
    (∀ a ∈ back, blank a = true) ∧ Bare blank core

def trim (blank : α → Bool) (value : List α) : List α :=
  ((value.dropWhile blank).reverse.dropWhile blank).reverse

variable {blank : α → Bool}

theorem dropWhile_of_bare {xs : List α} (bare : ∀ a ∈ xs.head?, blank a = false) :
    xs.dropWhile blank = xs := by
  cases xs with
  | nil => rfl
  | cons a rest =>
      have first := bare a rfl
      exact List.dropWhile_cons_of_neg (by rw [first]; exact Bool.false_ne_true)

theorem Trims.trim_eq {value core : List α} (trims : Trims blank value core) :
    trim blank value = core := by
  obtain ⟨front, back, rfl, before, after, first, last⟩ := trims
  rw [trim, List.append_assoc, List.dropWhile_append_of_pos before]
  cases core with
  | nil => rw [List.nil_append, List.dropWhile_eq_nil_iff.mpr after]; rfl
  | cons a rest =>
      have after' : ∀ b ∈ back.reverse, blank b = true :=
        fun b member => after b (List.mem_reverse.mp member)
      have last' : ∀ b ∈ (a :: rest).reverse.head?, blank b = false := by
        rwa [List.head?_reverse]
      have core : (a :: rest ++ back).dropWhile blank = a :: rest ++ back := dropWhile_of_bare first
      rw [core, List.reverse_append, List.dropWhile_append_of_pos after', dropWhile_of_bare last',
        List.reverse_reverse]

/-- What `dropWhile` leaves starts with no blank. -/
theorem head?_dropWhile (xs : List α) : ∀ a ∈ (xs.dropWhile blank).head?, blank a = false := by
  intro a first
  have ends := List.head?_dropWhile_not blank xs
  rw [Option.mem_def.mp first] at ends
  exact ends

theorem trims_trim (blank : α → Bool) (value : List α) : Trims blank value (trim blank value) := by
  have ends : (value.dropWhile blank).reverse.takeWhile blank ++
      (value.dropWhile blank).reverse.dropWhile blank = (value.dropWhile blank).reverse :=
    List.takeWhile_append_dropWhile
  have parts : value.dropWhile blank =
      trim blank value ++ ((value.dropWhile blank).reverse.takeWhile blank).reverse := by
    rw [trim, ← List.reverse_append, ends, List.reverse_reverse]
  refine ⟨value.takeWhile blank, ((value.dropWhile blank).reverse.takeWhile blank).reverse, ?_,
    fun a member => List.mem_takeWhile_imp member,
    fun a member => List.mem_takeWhile_imp (List.mem_reverse.mp member), ?_, ?_⟩
  · rw [List.append_assoc, ← parts, List.takeWhile_append_dropWhile]
  · intro a first
    refine head?_dropWhile value a ?_
    rw [parts, List.head?_append, Option.mem_def.mp first]
    rfl
  · intro a last
    rw [trim, List.getLast?_reverse] at last
    exact head?_dropWhile _ a last

/-- What is not blank is not trimmed away. -/
theorem trim_ne_nil {value : List α} {a : α} (member : a ∈ value) (keeps : blank a = false) :
    trim blank value ≠ [] := by
  intro gone
  obtain ⟨front, back, parts, before, after, -⟩ := trims_trim blank value
  rw [gone, List.append_nil] at parts
  rw [parts] at member
  have blanks : blank a = true := (List.mem_append.mp member).elim (before a) (after a)
  exact Bool.false_ne_true (keeps.symm.trans blanks)

end Portrelay.Theory
