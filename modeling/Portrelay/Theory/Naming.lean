/-
# Theory.Naming -- names for what has none

A list of optional names in which each gap is filled with a name made from its position.
Where the given names differ and so do the made ones, all names differ unless a made name
was also given (`nodup_filled_iff`).
-/
import Mathlib.Data.List.Nodup

namespace Portrelay.Theory

set_option autoImplicit false

universe u

variable {α : Type u} (make : Nat → α)

/-- The names given, and made ones in the gaps, from the position `index`. -/
def filled : Nat → List (Option α) → List α
  | _, [] => []
  | index, given :: rest => given.getD (make index) :: filled (index + 1) rest

variable {make} {index : Nat} {given : List (Option α)}

theorem mem_filled {name : α} :
    name ∈ filled make index given ↔
      some name ∈ given ∨ ∃ k, given[k]? = some none ∧ name = make (index + k) := by
  induction given generalizing index with
  | nil => simp [filled]
  | cons first rest ih =>
      rw [filled, List.mem_cons, ih, List.mem_cons]
      constructor
      · rintro (here | given | ⟨k, gap, made⟩)
        · cases first with
          | none => exact Or.inr ⟨0, rfl, here⟩
          | some first => exact Or.inl (Or.inl (congrArg some here))
        · exact Or.inl (Or.inr given)
        · refine Or.inr ⟨k + 1, gap, ?_⟩
          rw [made, Nat.add_assoc, Nat.add_comm 1 k]
      · rintro ((rfl | given) | ⟨k, gap, made⟩)
        · exact Or.inl rfl
        · exact Or.inr (Or.inl given)
        · cases k with
          | zero =>
              have none_ : first = none := Option.some.inj gap
              exact Or.inl (none_ ▸ made)
          | succ k =>
              refine Or.inr (Or.inr ⟨k, gap, ?_⟩)
              rw [made, Nat.add_assoc, Nat.add_comm 1 k]

/-- All names differ if and only if no gap is filled with a name that is given. -/
theorem nodup_filled_iff (injective : Function.Injective make)
    (distinct : (given.filterMap id).Nodup) :
    (filled make index given).Nodup ↔
      ∀ k, given[k]? = some none → some (make (index + k)) ∉ given := by
  induction given generalizing index with
  | nil => simp [filled]
  | cons first rest ih =>
      have shift : ∀ k, index + 1 + k = index + (k + 1) := by omega
      rw [filled, List.nodup_cons, mem_filled, not_or, not_exists]
      cases first with
      | some name =>
          obtain ⟨new, distinct⟩ : name ∉ rest.filterMap id ∧ (rest.filterMap id).Nodup :=
            List.nodup_cons.mp distinct
          have apart : some name ∉ rest := by
            intro repeated
            apply new
            exact List.mem_filterMap.mpr ⟨some name, repeated, rfl⟩
          rw [ih distinct]
          constructor
          · rintro ⟨⟨-, others⟩, gaps⟩ k gap taken
            cases k with
            | zero => cases gap
            | succ k =>
                rw [← shift] at taken
                rcases List.mem_cons.mp taken with same | later
                · exact others k ⟨gap, (Option.some.inj same).symm⟩
                · exact gaps k gap later
          · intro gaps
            refine ⟨⟨apart, ?_⟩, ?_⟩
            · rintro k ⟨gap, same⟩
              apply gaps (k + 1) gap
              rw [← shift, ← same]
              exact List.mem_cons_self
            · intro k gap taken
              apply gaps (k + 1) gap
              rw [← shift]
              exact List.mem_cons_of_mem _ taken
      | none =>
          have distinct : (rest.filterMap id).Nodup := distinct
          rw [ih distinct]
          constructor
          · rintro ⟨⟨own, -⟩, gaps⟩ k gap taken
            rcases List.mem_cons.mp taken with same | later
            · cases same
            cases k with
            | zero => exact own later
            | succ k =>
                apply gaps k gap
                rw [shift]
                exact later
          · intro gaps
            refine ⟨⟨?_, ?_⟩, ?_⟩
            · intro taken
              exact gaps 0 rfl (List.mem_cons_of_mem _ taken)
            · rintro k ⟨-, same⟩
              have equal := injective same
              omega
            · intro k gap taken
              apply gaps (k + 1) gap
              rw [← shift]
              exact List.mem_cons_of_mem _ taken

end Portrelay.Theory
