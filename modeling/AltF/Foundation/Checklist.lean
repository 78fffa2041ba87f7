/-
  Foundation/Checklist.lean --- a list that is worked off from its front.

  What comes is ignored until it is what the list wants next.  So much of the list is done as is
  a subsequence of what came.
-/
import Mathlib.Data.List.Infix

set_option autoImplicit false

namespace AltF.Foundation

variable {α : Type} [DecidableEq α]

/-- What is left to do after `x`. -/
def advance : List α → α → List α
  | [], _ => []
  | y :: todo, x => if x = y then todo else y :: todo

theorem advance_suffix (todo : List α) (x : α) : advance todo x <:+ todo := by
  cases todo with
  | nil => exact List.suffix_rfl
  | cons y todo =>
      rw [advance]
      split
      · exact List.suffix_cons y todo
      · exact List.suffix_rfl

theorem foldl_advance_suffix (todo xs : List α) : xs.foldl advance todo <:+ todo := by
  induction xs generalizing todo with
  | nil => exact List.suffix_rfl
  | cons x xs ih => exact (ih (advance todo x)).trans (advance_suffix todo x)

/-- The first part of a list is done exactly if it is a subsequence of what came. -/
theorem foldl_advance_suffix_iff (done todo xs : List α) :
    xs.foldl advance (done ++ todo) <:+ todo ↔ done.Sublist xs := by
  induction xs generalizing done with
  | nil =>
      rw [List.foldl_nil, List.sublist_nil]
      constructor
      · intro h
        have hlength := h.length_le
        rw [List.length_append] at hlength
        exact List.eq_nil_of_length_eq_zero (by omega)
      · rintro rfl
        exact List.suffix_rfl
  | cons x xs ih =>
      rw [List.foldl_cons]
      cases done with
      | nil =>
          refine iff_of_true ?_ (List.nil_sublist _)
          exact (foldl_advance_suffix _ xs).trans (advance_suffix todo x)
      | cons y done =>
          rw [List.cons_append, advance]
          split
          · rename_i heq
            rw [ih, heq, List.cons_sublist_cons]
          · rename_i hne
            rw [← List.cons_append, ih]
            refine ⟨fun h => h.cons x, fun h => ?_⟩
            rcases List.sublist_cons_iff.mp h with hrest | ⟨r, hr, -⟩
            · exact hrest
            · exact absurd (List.cons.inj hr).1.symm hne

end AltF.Foundation
