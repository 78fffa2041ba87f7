/-
  Foundation/History.lean --- what a sequence of samples has been through.

  `Since on off` is the temporal operator: an `on` sample, and no `off` sample after it.
  A flag that `on` sets and `off` clears holds it (`run_flag`).  A `Block` is a maximal
  stretch of samples with a property.
-/
import AltF.Foundation.Runs
import Mathlib.Data.List.DropRight
import Mathlib.Data.List.TakeWhile

set_option autoImplicit false

namespace AltF.Foundation

variable {α : Type}

/-! ## Since -/

/-- Some sample was `on`, and none after it was `off`. -/
def Since (on off : α → Prop) (l : List α) : Prop :=
  ∃ p a q, l = p ++ a :: q ∧ on a ∧ ∀ x ∈ q, ¬ off x

section Since

variable {on off : α → Prop}

theorem not_since_nil : ¬ Since on off ([] : List α) := by
  rintro ⟨p, a, q, heq, -⟩
  exact absurd heq.symm (List.append_ne_nil_of_right_ne_nil _ (List.cons_ne_nil a q))

/-- The last sample decides, or leaves it to those in front of it. -/
theorem since_concat {l : List α} {a : α} :
    Since on off (l ++ [a]) ↔ on a ∨ Since on off l ∧ ¬ off a := by
  constructor
  · rintro ⟨p, b, q, heq, hb, hq⟩
    rcases List.eq_nil_or_concat' q with rfl | ⟨q, c, rfl⟩
    · obtain ⟨-, hlast⟩ := List.append_inj' heq rfl
      obtain rfl : a = b := by simpa using hlast
      exact Or.inl hb
    · rw [← List.cons_append, ← List.append_assoc] at heq
      obtain ⟨rfl, hlast⟩ := List.append_inj' heq rfl
      obtain rfl : a = c := by simpa using hlast
      refine Or.inr ⟨⟨p, b, q, rfl, hb, fun x hx => hq x (List.mem_append_left _ hx)⟩, ?_⟩
      exact hq a (List.mem_append_right _ (List.mem_singleton_self a))
  · rintro (ha | ⟨⟨p, b, q, rfl, hb, hq⟩, ha⟩)
    · exact ⟨l, a, [], rfl, ha, fun x hx => absurd hx List.not_mem_nil⟩
    · refine ⟨p, b, q ++ [a], by rw [List.append_assoc, List.cons_append], hb, fun x hx => ?_⟩
      rcases List.mem_append.mp hx with hx | hx
      · exact hq x hx
      · rwa [List.mem_singleton.mp hx]

/-- A flag that `on` sets and `off` clears. -/
theorem run_flag {σ : Type} {step : σ → α → σ} (flag : σ → Bool)
    (hstep : ∀ s a, flag (step s a) = true ↔ on a ∨ flag s = true ∧ ¬ off a) {s : σ}
    (hs : flag s = false) (l : List α) : flag (run step s l) = true ↔ Since on off l := by
  induction l using List.reverseRecOn with
  | nil => exact iff_of_false (by rw [run_nil, hs]; exact Bool.false_ne_true) not_since_nil
  | append_singleton l a ih =>
      rw [run_append, run_cons, run_nil, hstep, ih, since_concat]

end Since

/-! ## Blocks -/

/-- A stretch of samples with a property, between samples without it. -/
structure Block (P : α → Prop) (before during after : List α) : Prop where
  nonempty : during ≠ []
  inside : ∀ x ∈ during, P x
  start : ∀ x ∈ before.getLast?, ¬ P x
  stop : ∀ x ∈ after.head?, ¬ P x

section Block

variable {P : α → Prop} [DecidablePred P]

/-- The samples with a property at the end of a sequence. -/
theorem exists_suffix (l : List α) :
    ∃ p q, l = p ++ q ∧ (∀ x ∈ q, P x) ∧ ∀ x ∈ p.getLast?, ¬ P x := by
  induction l using List.reverseRecOn with
  | nil => exact ⟨[], [], rfl, by simp, by simp⟩
  | append_singleton l a ih =>
      obtain ⟨p, q, rfl, hq, hp⟩ := ih
      by_cases ha : P a
      · refine ⟨p, q ++ [a], by rw [List.append_assoc], fun x hx => ?_, hp⟩
        rcases List.mem_append.mp hx with hx | hx
        · exact hq x hx
        · rwa [List.mem_singleton.mp hx]
      · refine ⟨p ++ q ++ [a], [], by rw [List.append_nil], by simp, fun x hx => ?_⟩
        rw [List.getLast?_concat, Option.mem_some_iff] at hx
        rwa [← hx]

/-- Every sample with the property stands in a block. -/
theorem exists_block {l : List α} {a : α} (hmem : a ∈ l) (ha : P a) :
    ∃ before during after, l = before ++ during ++ after ∧ Block P before during after ∧
      a ∈ during := by
  obtain ⟨l, r, rfl⟩ := List.append_of_mem hmem
  obtain ⟨p, q, rfl, hq, hp⟩ := exists_suffix (P := P) l
  refine ⟨p, q ++ a :: r.takeWhile (P ·), r.dropWhile (P ·), ?_, ⟨by simp, fun x hx => ?_, hp,
    fun x hx => ?_⟩, by simp⟩
  · simp only [List.append_assoc, List.cons_append, List.takeWhile_append_dropWhile]
  · rcases List.mem_append.mp hx with hx | hx
    · exact hq x hx
    · rcases List.mem_cons.mp hx with rfl | hx
      · exact ha
      · exact of_decide_eq_true (List.mem_takeWhile_imp (p := fun x => decide (P x)) hx)
  · have hstop := List.head?_dropWhile_not (P ·) r
    rw [Option.mem_def.mp hx] at hstop
    exact of_decide_eq_false hstop

/-- The last sample with the property. -/
theorem exists_last {l : List α} {a : α} (hmem : a ∈ l) (ha : P a) :
    ∃ p b q, l = p ++ b :: q ∧ P b ∧ ∀ x ∈ q, ¬ P x := by
  obtain ⟨p, q, rfl, hq, hp⟩ := exists_suffix (P := fun x => ¬ P x) l
  rcases List.eq_nil_or_concat' p with rfl | ⟨p, b, rfl⟩
  · exact absurd ha (hq a (by simpa using hmem))
  · refine ⟨p, b, q, by rw [List.append_assoc]; rfl, ?_, hq⟩
    exact not_not.mp (hp b (by rw [List.getLast?_concat]; rfl))

end Block

end AltF.Foundation
