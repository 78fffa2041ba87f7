/-
  Foundation/Slots.lean --- tables with a fixed number of slots, some of them taken.
-/
import Mathlib.Data.Fintype.Card

set_option autoImplicit false

namespace AltF.Foundation

section Slots

variable {n : Nat} {α : Type}

/-- The slots of a table that are taken. -/
def taken (table : Fin n → Option α) : Finset (Fin n) :=
  Finset.univ.filter fun i => (table i).isSome

variable {table : Fin n → Option α}

theorem mem_taken {i : Fin n} : i ∈ taken table ↔ table i ≠ none := by
  rw [taken, Finset.mem_filter, Option.isSome_iff_ne_none, and_iff_right (Finset.mem_univ i)]

theorem card_taken_le (table : Fin n → Option α) : (taken table).card ≤ n := by
  have hle := Finset.card_le_univ (taken table)
  rwa [Fintype.card_fin] at hle

/-- Taking a free slot. -/
theorem card_taken_put {i : Fin n} (hfree : table i = none) (a : α) :
    (taken (Function.update table i (some a))).card = (taken table).card + 1 := by
  have hmem : i ∉ taken table := fun h => mem_taken.mp h hfree
  have hinsert : taken (Function.update table i (some a)) = insert i (taken table) := by
    ext j
    rw [Finset.mem_insert, mem_taken, mem_taken]
    by_cases hj : j = i
    · simp [hj]
    · simp [hj]
  rw [hinsert, Finset.card_insert_of_notMem hmem]

/-- Freeing a slot. -/
theorem card_taken_free {i : Fin n} (htaken : table i ≠ none) :
    (taken (Function.update table i none)).card + 1 = (taken table).card := by
  have herase : taken (Function.update table i none) = (taken table).erase i := by
    ext j
    rw [Finset.mem_erase, mem_taken, mem_taken]
    by_cases hj : j = i
    · simp [hj]
    · simp [hj]
  rw [herase, Finset.card_erase_add_one (mem_taken.mpr htaken)]

/-- A table that is not full has a free slot. -/
theorem exists_free (h : (taken table).card < n) : ∃ i, table i = none := by
  by_contra hfull
  have huniv : taken table = Finset.univ :=
    Finset.eq_univ_of_forall fun i => mem_taken.mpr fun hfree => hfull ⟨i, hfree⟩
  rw [huniv, Finset.card_univ, Fintype.card_fin] at h
  exact Nat.lt_irrefl n h

end Slots

end AltF.Foundation
