/-
  Foundation/Loops.lean --- `while` loops that need not end.

  A loop ends in a state if some number of turns leads there.  A measure that goes down under
  an invariant makes it end; an invariant under which the test holds keeps it from ending.
-/
import Mathlib.Data.Nat.Basic

set_option autoImplicit false

namespace AltF.Foundation

section Loops

variable {σ : Type} (test : σ → Bool) (body : σ → σ)

/-- `while test; do body; done`, with at most so many tests. -/
def whileLoop : Nat → σ → Option σ
  | 0, _ => none
  | n + 1, s => if test s then whileLoop n (body s) else some s

example (s : σ) : whileLoop test body 0 s = none := by rw [whileLoop]

/-- The loop ends in a state. -/
def Ends (s s' : σ) : Prop := ∃ n, whileLoop test body n s = some s'

variable {test body} {s a b : σ}

theorem ends_done (h : test s = false) : Ends test body s s := ⟨1, by simp [whileLoop, h]⟩

theorem ends_turn_iff (h : test s = true) : Ends test body s a ↔ Ends test body (body s) a := by
  constructor
  · rintro ⟨n, hn⟩
    cases n with
    | zero => cases hn
    | succ n =>
        rw [whileLoop, if_pos h] at hn
        exact ⟨n, hn⟩
  · rintro ⟨n, hn⟩
    refine ⟨n + 1, ?_⟩
    rw [whileLoop, if_pos h]
    exact hn

/-- A loop ends in one state only. -/
theorem Ends.unique (ha : Ends test body s a) (hb : Ends test body s b) : a = b := by
  obtain ⟨n, hn⟩ := ha
  induction n generalizing s with
  | zero => cases hn
  | succ n ih =>
      rw [whileLoop] at hn
      split at hn
      · next h => exact ih ((ends_turn_iff h).mp hb) hn
      · next h =>
          obtain rfl := Option.some.inj hn
          obtain ⟨m, hm⟩ := hb
          cases m with
          | zero => cases hm
          | succ m =>
              rw [whileLoop, if_neg h] at hm
              exact Option.some.inj hm

/-- **A loop ends** if every turn keeps an invariant and makes a measure smaller. -/
theorem ends_of_measure (Inv : σ → Prop) (measure : σ → Nat)
    (hturn : ∀ s, Inv s → test s = true → Inv (body s) ∧ measure (body s) < measure s)
    (hs : Inv s) : ∃ a, Ends test body s a := by
  induction hn : measure s using Nat.strong_induction_on generalizing s with
  | _ n ih =>
      by_cases h : test s = true
      · obtain ⟨hinv, hlt⟩ := hturn s hs h
        obtain ⟨a, ha⟩ := ih (measure (body s)) (hn ▸ hlt) hinv rfl
        exact ⟨a, (ends_turn_iff h).mpr ha⟩
      · exact ⟨s, ends_done (Bool.eq_false_iff.mpr h)⟩

/-- **A loop does not end** if an invariant keeps its test true. -/
theorem not_ends (Inv : σ → Prop) (hturn : ∀ s, Inv s → test s = true ∧ Inv (body s))
    (hs : Inv s) : ¬ Ends test body s a := by
  rintro ⟨n, hn⟩
  induction n generalizing s with
  | zero => cases hn
  | succ n ih =>
      obtain ⟨htest, hinv⟩ := hturn s hs
      rw [whileLoop, if_pos htest] at hn
      exact ih hinv hn

end Loops

end AltF.Foundation
