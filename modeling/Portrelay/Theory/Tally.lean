/-
# Theory.Tally -- counting over a list of actors

`tally f xs` adds up `f` over the actors of a system, each of which holds some
amount of a shared resource.  One step of an interleaving changes one actor or
adds one; the two lemmas `tally_set` and `tally_append` say what that does to the
sum in a form that linear arithmetic can use directly.
-/
import Mathlib.Algebra.GroupWithZero.Nat
import Mathlib.Algebra.BigOperators.Group.List.Basic
import Mathlib.Algebra.Ring.Int.Defs

namespace Portrelay.Theory

set_option autoImplicit false

universe u v

variable {α : Type u}

/-- The sum of `f` over the actors. -/
def tally (f : α → Nat) (xs : List α) : Nat := (xs.map f).sum

@[simp] theorem tally_nil (f : α → Nat) : tally f [] = 0 := rfl

@[simp] theorem tally_cons (f : α → Nat) (x : α) (xs : List α) :
    tally f (x :: xs) = f x + tally f xs := by
  simp [tally]

@[simp] theorem tally_append (f : α → Nat) (xs ys : List α) :
    tally f (xs ++ ys) = tally f xs + tally f ys := by
  simp [tally]

/-- Replacing one actor changes the sum by the difference of the two amounts. -/
theorem tally_set (f : α → Nat) {xs : List α} {i : Nat} {x : α} (y : α)
    (found : xs[i]? = some x) : tally f (xs.set i y) + f x = tally f xs + f y := by
  induction xs generalizing i with
  | nil => simp at found
  | cons z xs ih =>
      cases i with
      | zero =>
          simp only [List.getElem?_cons_zero, Option.some.injEq] at found
          subst found
          simp only [List.set_cons_zero, tally_cons]
          omega
      | succ i =>
          simp only [List.getElem?_cons_succ] at found
          have := ih found
          simp only [List.set_cons_succ, tally_cons]
          omega

/-- A change that the amount does not see. -/
theorem tally_modify (f : α → Nat) (xs : List α) (i : Nat) {g : α → α} (same : ∀ x, f (g x) = f x) :
    tally f (xs.modify i g) = tally f xs := by
  induction xs generalizing i with
  | nil => simp
  | cons z xs ih =>
      cases i with
      | zero => simp [same]
      | succ i => simp [ih]

theorem le_tally (f : α → Nat) {xs : List α} {x : α} (member : x ∈ xs) : f x ≤ tally f xs := by
  induction xs with
  | nil => cases member
  | cons z xs ih =>
      rw [tally_cons]
      rcases List.mem_cons.mp member with rfl | member
      · omega
      · have := ih member
        omega

/-- Two different actors together hold no more than all of them. -/
theorem add_le_tally (f : α → Nat) {xs : List α} {i j : Nat} {x y : α} (ne : i ≠ j)
    (atI : xs[i]? = some x) (atJ : xs[j]? = some y) : f x + f y ≤ tally f xs := by
  induction xs generalizing i j with
  | nil => simp at atI
  | cons z xs ih =>
      rw [tally_cons]
      cases i with
      | zero =>
          cases j with
          | zero => exact absurd rfl ne
          | succ j =>
              simp only [List.getElem?_cons_zero, Option.some.injEq] at atI
              simp only [List.getElem?_cons_succ] at atJ
              have := le_tally f (List.mem_of_getElem? atJ)
              rw [atI]
              omega
      | succ i =>
          simp only [List.getElem?_cons_succ] at atI
          cases j with
          | zero =>
              simp only [List.getElem?_cons_zero, Option.some.injEq] at atJ
              have := le_tally f (List.mem_of_getElem? atI)
              rw [atJ]
              omega
          | succ j =>
              simp only [List.getElem?_cons_succ] at atJ
              have := ih (fun same => ne (congrArg Nat.succ same)) atI atJ
              omega

theorem tally_eq_zero_iff (f : α → Nat) (xs : List α) : tally f xs = 0 ↔ ∀ x ∈ xs, f x = 0 := by
  induction xs with
  | nil => simp
  | cons z xs ih => simp [ih]

/-- Actors of a kind of which each holds something are no more than what is held. -/
theorem countP_le_tally {p : α → Bool} {f : α → Nat} {xs : List α}
    (holds : ∀ x ∈ xs, p x = true → 0 < f x) : xs.countP p ≤ tally f xs := by
  induction xs with
  | nil => simp
  | cons z xs ih =>
      have rest := ih fun x member => holds x (List.mem_cons_of_mem z member)
      have first := holds z List.mem_cons_self
      rw [List.countP_cons, tally_cons]
      split
      · have := first ‹_›
        omega
      · omega

/-- If everyone holds one or nothing, what is held is the number of holders. -/
theorem countP_eq_tally {p : α → Bool} {f : α → Nat} {xs : List α}
    (holds : ∀ x ∈ xs, f x = if p x = true then 1 else 0) : xs.countP p = tally f xs := by
  induction xs with
  | nil => rfl
  | cons z xs ih =>
      have rest := ih fun x member => holds x (List.mem_cons_of_mem z member)
      rw [List.countP_cons, tally_cons, holds z List.mem_cons_self, rest, Nat.add_comm]

/-- `countP` after one actor has changed. -/
theorem countP_set (p : α → Bool) {xs : List α} {i : Nat} {x : α} (y : α)
    (found : xs[i]? = some x) :
    (xs.set i y).countP p + (p x).toNat = xs.countP p + (p y).toNat := by
  have holds : ∀ xs : List α, xs.countP p = tally (fun x => (p x).toNat) xs := fun xs =>
    countP_eq_tally fun x _ => by cases p x <;> rfl
  rw [holds, holds]
  exact tally_set (fun x => (p x).toNat) y found

/-- Of two kinds, the one is as large as the other but for those in one only. -/
theorem countP_add_countP (p q : α → Bool) (xs : List α) :
    xs.countP p + xs.countP (fun x => q x && !p x) =
      xs.countP q + xs.countP (fun x => p x && !q x) := by
  induction xs with
  | nil => rfl
  | cons z xs ih =>
      simp only [List.countP_cons]
      cases p z <;> cases q z <;> simp only [Bool.not_true, Bool.not_false, Bool.and_true,
        Bool.and_false, if_true, Bool.false_eq_true, if_false] <;> omega

theorem tally_mono {f g : α → Nat} {xs : List α} (le : ∀ x ∈ xs, f x ≤ g x) :
    tally f xs ≤ tally g xs := by
  induction xs with
  | nil => simp
  | cons z xs ih =>
      have first := le z (by simp)
      have rest := ih fun x member => le x (by simp [member])
      simp only [tally_cons]
      omega

theorem tally_add (f g : α → Nat) (xs : List α) :
    tally (fun x => f x + g x) xs = tally f xs + tally g xs := by
  induction xs with
  | nil => rfl
  | cons z xs ih =>
      simp only [tally_cons]
      omega

/-- Owners, from the number `first` on, each with no more than something of its own and what
its actors have: together they have no more than all. -/
theorem sum_le_owners {β : Type v} {g : β → Int} {h : β → Nat} {f : α → Nat} {owner : α → Nat}
    {xs : List α} {bs : List β} (first : Nat)
    (le : ∀ i b, bs[i]? = some b →
      g b ≤ h b + tally (fun x => if owner x = first + i then f x else 0) xs) :
    (bs.map g).sum ≤ tally h bs + tally (fun x => if first ≤ owner x then f x else 0) xs := by
  induction bs generalizing first with
  | nil =>
      rw [List.map_nil, List.sum_nil, tally_nil]
      omega
  | cons b bs ih =>
      have own := le 0 b rfl
      have others := ih (first + 1) fun i b here => by
        rw [Nat.add_assoc, Nat.add_comm 1 i]
        exact le (i + 1) b here
      have split : tally (fun x => if first ≤ owner x then f x else 0) xs =
          tally (fun x => if owner x = first + 0 then f x else 0) xs +
            tally (fun x => if first + 1 ≤ owner x then f x else 0) xs := by
        rw [← tally_add]
        refine congrArg (fun f => tally f xs) (funext fun x => ?_)
        split_ifs <;> omega
      rw [List.map_cons, List.sum_cons, tally_cons, split]
      omega

theorem tally_range_ite (owner n amount : Nat) :
    tally (fun i => if owner = i then amount else 0) (List.range n) =
      if owner < n then amount else 0 := by
  induction n with
  | zero => rfl
  | succ n ih =>
      rw [List.range_succ, tally_append, ih, tally_cons, tally_nil]
      split_ifs <;> omega

/-- The actors of a kind, counted by their owners. -/
theorem tally_countP_range (owner : α → Nat) (p : α → Bool) (xs : List α) (n : Nat) :
    tally (fun i => xs.countP fun x => owner x == i && p x) (List.range n) =
      xs.countP fun x => decide (owner x < n) && p x := by
  induction xs with
  | nil => exact (tally_eq_zero_iff _ _).mpr fun _ _ => rfl
  | cons x xs ih =>
      have own : tally (fun i => if (owner x == i && p x) = true then 1 else 0) (List.range n) =
          if (decide (owner x < n) && p x) = true then 1 else 0 := by
        have whole := tally_range_ite (owner x) n (if p x then 1 else 0)
        cases holds : p x <;> simpa [holds] using whole
      simp only [List.countP_cons, tally_add, ih, own]

/-- An actor that holds something exists when the sum is positive. -/
theorem exists_pos_of_tally_pos {f : α → Nat} {xs : List α} (pos : 0 < tally f xs) :
    ∃ x ∈ xs, 0 < f x := by
  by_contra none
  have empty : tally f xs = 0 := (tally_eq_zero_iff f xs).mpr fun x member =>
    Nat.eq_zero_of_not_pos fun held => none ⟨x, member, held⟩
  omega

end Portrelay.Theory
