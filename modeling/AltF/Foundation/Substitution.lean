/-
  Foundation/Substitution.lean --- elements replaced by lists, one rule after the other, and
  what is read back of a list of code words.

  Rules that come one after the other are one replacement, if no rule rewrites what an earlier
  one has put in.
-/
import Mathlib.Data.List.Basic

set_option autoImplicit false

namespace AltF.Foundation

variable {α β : Type}

/-! ## Rules -/

section Rules

variable [DecidableEq α]

/-- Each `a` becomes a list. -/
def replaceAll (a : α) (image : List α) (l : List α) : List α :=
  l.flatMap fun x => if x = a then image else [x]

/-- The rules, one after the other. -/
def substitute (rules : List (α × List α)) (l : List α) : List α :=
  rules.foldl (fun l r => replaceAll r.1 r.2 l) l

/-- What the first rule of an element makes of it. -/
def image (rules : List (α × List α)) (x : α) : List α :=
  ((rules.find? fun r => r.1 = x).map Prod.snd).getD [x]

/-- No rule rewrites what an earlier one puts in. -/
def Fresh (rules : List (α × List α)) : Prop := rules.Pairwise fun r r' => r'.1 ∉ r.2

variable {rules : List (α × List α)}

theorem image_of_notMem {x : α} (h : x ∉ rules.map Prod.fst) : image rules x = [x] := by
  have hnone : (rules.find? fun r => r.1 = x) = none := by
    rw [List.find?_eq_none]
    intro r hr hx
    exact h (List.mem_map.mpr ⟨r, hr, of_decide_eq_true hx⟩)
  rw [image, hnone]
  rfl

theorem image_cons_self (x : α) (t : List α) : image ((x, t) :: rules) x = t := by
  have hfirst : (((x, t) :: rules).find? fun r => r.1 = x) = some (x, t) :=
    List.find?_cons_of_pos (decide_eq_true rfl)
  rw [image, hfirst]
  rfl

theorem image_cons_of_ne {a x : α} (h : a ≠ x) (t : List α) :
    image ((a, t) :: rules) x = image rules x := by
  rw [image, List.find?_cons_of_neg (by simpa using h), image]

/-- Rules by a function. -/
theorem image_map (f : α → List α) (l : List α) (x : α) :
    image (l.map fun a => (a, f a)) x = if x ∈ l then f x else [x] := by
  induction l with
  | nil => rfl
  | cons a l ih =>
      rw [List.map_cons]
      by_cases ha : a = x
      · rw [ha, image_cons_self, if_pos List.mem_cons_self]
      · have hmem : x ∈ a :: l ↔ x ∈ l := by
          rw [List.mem_cons, or_iff_right (Ne.symm ha)]
        rw [image_cons_of_ne ha, ih]
        simp only [hmem]

/-- What no rule is about stays. -/
theorem flatMap_image_of_notMem {l : List α} (h : ∀ r ∈ rules, r.1 ∉ l) :
    l.flatMap (image rules) = l := by
  induction l with
  | nil => rfl
  | cons x l ih =>
      have hx : x ∉ rules.map Prod.fst := by
        intro hmem
        obtain ⟨r, hr, rfl⟩ := List.mem_map.mp hmem
        exact h r hr List.mem_cons_self
      rw [List.flatMap_cons, image_of_notMem hx,
        ih fun r hr hmem => h r hr (List.mem_cons_of_mem x hmem), List.singleton_append]

/-- **Fresh rules** replace each element of the list, and nothing else. -/
theorem substitute_eq (h : Fresh rules) (l : List α) :
    substitute rules l = l.flatMap (image rules) := by
  induction rules generalizing l with
  | nil => exact (List.flatMap_singleton' l).symm
  | cons r rules ih =>
      obtain ⟨a, t⟩ := r
      obtain ⟨hfirst, hrest⟩ := List.pairwise_cons.mp h
      have hstep : ∀ x, (if x = a then t else [x]).flatMap (image rules) =
          image ((a, t) :: rules) x := by
        intro x
        by_cases hx : x = a
        · rw [if_pos hx, hx, image_cons_self, flatMap_image_of_notMem hfirst]
        · rw [if_neg hx, image_cons_of_ne (Ne.symm hx), List.flatMap_singleton]
      calc substitute ((a, t) :: rules) l
          = substitute rules (replaceAll a t l) := rfl
        _ = (replaceAll a t l).flatMap (image rules) := ih hrest _
        _ = l.flatMap (image ((a, t) :: rules)) := by
            rw [replaceAll, List.flatMap_assoc]
            exact List.flatMap_congr fun x _ => hstep x

end Rules

/-! ## Code words -/

section Words

variable {word : α → List β}

/-- A reader that takes one code word reads a list of them. -/
theorem read_flatMap {read : List β → List α} (hnil : read [] = []) {l : List α}
    (hword : ∀ a ∈ l, ∀ t, read (word a ++ t) = a :: read t) : read (l.flatMap word) = l := by
  induction l with
  | nil => exact hnil
  | cons a l ih =>
      rw [List.flatMap_cons, hword a List.mem_cons_self,
        ih fun b hb => hword b (List.mem_cons_of_mem a hb)]

/-- **Where a mark stands** that is nowhere but at the beginning of code words, one begins. -/
theorem flatMap_eq_append_cons {m : β} (hmark : ∀ a, m ∉ (word a).tail) {l : List α}
    {u v : List β} (h : l.flatMap word = u ++ m :: v) :
    ∃ front a behind, l = front ++ a :: behind ∧ u = front.flatMap word ∧
      m :: v = word a ++ behind.flatMap word ∧ (word a).head? = some m := by
  induction l generalizing u with
  | nil => exact absurd h.symm (by simp)
  | cons a l ih =>
      rw [List.flatMap_cons] at h
      rcases List.append_eq_append_iff.mp h with ⟨d, rfl, hrest⟩ | ⟨d, hword, hv⟩
      · obtain ⟨front, b, behind, rfl, rfl, hv, hhead⟩ := ih hrest
        exact ⟨a :: front, b, behind, rfl, rfl, hv, hhead⟩
      · -- the word goes on behind `u`
        cases d with
        | nil =>
            rw [List.append_nil] at hword
            obtain ⟨front, b, behind, rfl, hu, hv, hhead⟩ := ih (u := []) hv.symm
            refine ⟨a :: front, b, behind, rfl, ?_, hv, hhead⟩
            rw [List.flatMap_cons, ← hu, List.append_nil, hword]
        | cons d ds =>
            obtain ⟨rfl, hv⟩ := List.cons.inj hv
            have hu : u = [] := by
              cases u with
              | nil => rfl
              | cons c u =>
                  refine absurd ?_ (hmark a)
                  rw [hword, List.cons_append, List.tail_cons]
                  exact List.mem_append_right _ List.mem_cons_self
            subst hu
            refine ⟨[], a, l, rfl, rfl, ?_, ?_⟩
            · rw [hword, List.nil_append, hv]
            · rw [hword]
              rfl

end Words

end AltF.Foundation
