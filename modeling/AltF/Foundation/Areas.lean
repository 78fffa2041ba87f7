/-
  Foundation/Areas.lean --- areas of a line, and first fit: an area is taken from the beginning
  of the first free one that is long enough.

  What is taken lies in an area that was free, and what is left of it lies there too.  So areas
  that are apart stay apart, and a property that both parts of an area inherit is kept.
-/
import Mathlib.Algebra.Order.Group.Defs
import Mathlib.Order.Lattice

set_option autoImplicit false

namespace AltF.Foundation

/-- From `start`, `len` long. -/
structure Area (α : Type) where
  start : α
  len : α
  deriving DecidableEq, Repr

section Areas

variable {α : Type} [AddCommGroup α] [LinearOrder α]

/-- The end of an area. -/
def Area.stop (a : Area α) : α := a.start + a.len

/-- One of them is behind the other. -/
def Area.Apart (a b : Area α) : Prop := a.stop ≤ b.start ∨ b.stop ≤ a.start

/-- One of them lies in the other. -/
def Area.Within (a b : Area α) : Prop := b.start ≤ a.start ∧ a.stop ≤ b.stop

theorem Area.Apart.symm {a b : Area α} (h : a.Apart b) : b.Apart a := Or.symm h

theorem Area.Apart.mono {a a' b : Area α} (h : a.Apart b) (ha : a'.Within a) : a'.Apart b :=
  h.imp (fun h => ha.2.trans h) fun h => h.trans ha.1

/-- The first `n` of an area, and what is left of it. -/
def Area.first (a : Area α) (n : α) : Area α := ⟨a.start, n⟩

def Area.rest (a : Area α) (n : α) : Area α := ⟨a.start + n, a.len - n⟩

theorem Area.first_within [IsOrderedAddMonoid α] {a : Area α} {n : α} (hn : n ≤ a.len) :
    (a.first n).Within a :=
  ⟨le_rfl, add_le_add_right hn _⟩

theorem Area.rest_within [IsOrderedAddMonoid α] {a : Area α} {n : α} (hn : 0 ≤ n) :
    (a.rest n).Within a := by
  refine ⟨le_add_of_nonneg_right hn, le_of_eq ?_⟩
  rw [Area.stop, Area.stop, Area.rest, add_assoc, add_sub_cancel]

theorem Area.first_apart_rest (a : Area α) (n : α) : (a.first n).Apart (a.rest n) :=
  Or.inl le_rfl

/-! ## First fit -/

/-- The first free area that is long enough: where it starts, and what is then free. -/
def firstFit (n : α) : List (Area α) → Option (α × List (Area α))
  | [] => none
  | a :: free =>
      if n ≤ a.len then some (a.start, a.rest n :: free)
      else (firstFit n free).map fun (s, free) => (s, a :: free)

variable {n s : α} {free free' : List (Area α)}

theorem firstFit_eq_some (h : firstFit n free = some (s, free')) :
    ∃ before a behind, free = before ++ a :: behind ∧ n ≤ a.len ∧ s = a.start ∧
      free' = before ++ a.rest n :: behind := by
  induction free generalizing free' with
  | nil => cases h
  | cons a free ih =>
      rw [firstFit] at h
      split at h
      · next hn =>
          obtain ⟨rfl, rfl⟩ := Prod.ext_iff.mp (Option.some.inj h)
          exact ⟨[], a, free, rfl, hn, rfl, rfl⟩
      · obtain ⟨⟨s', rest⟩, hrest, heq⟩ := Option.map_eq_some_iff.mp h
        obtain ⟨rfl, rfl⟩ := Prod.ext_iff.mp heq
        obtain ⟨before, b, behind, rfl, hn, hs, hfree⟩ := ih hrest
        exact ⟨a :: before, b, behind, rfl, hn, hs, by rw [hfree]; rfl⟩

/-- **First fit** from areas that are apart, of each other and of others: the area that is
taken is apart from those, and from what is then free, which is as free as before. -/
theorem firstFit_apart [IsOrderedAddMonoid α] (hn : 0 ≤ n)
    (h : firstFit n free = some (s, free')) (hfree : free.Pairwise Area.Apart)
    {others : List (Area α)} (hothers : ∀ o ∈ others, ∀ a ∈ free, a.Apart o) :
    (∀ o ∈ others, Area.Apart ⟨s, n⟩ o) ∧ free'.Pairwise Area.Apart ∧
      ∀ o ∈ ⟨s, n⟩ :: others, ∀ a ∈ free', a.Apart o := by
  obtain ⟨before, a, behind, rfl, hlen, rfl, rfl⟩ := firstFit_eq_some h
  have hfirst : (a.first n).Within a := Area.first_within hlen
  have hrest : (a.rest n).Within a := Area.rest_within hn
  obtain ⟨hbefore, habehind, hacross⟩ := List.pairwise_append.mp hfree
  obtain ⟨habehind, hbehind⟩ := List.pairwise_cons.mp habehind
  have hamem : a ∈ before ++ a :: behind := List.mem_append_right _ List.mem_cons_self
  refine ⟨fun o ho => (hothers o ho a hamem).mono hfirst, ?_, ?_⟩
  · refine List.pairwise_append.mpr ⟨hbefore, List.pairwise_cons.mpr ⟨fun b hb => ?_, hbehind⟩, ?_⟩
    · exact (habehind b hb).mono hrest
    · intro b hb c hc
      rcases List.mem_cons.mp hc with rfl | hc
      · exact ((hacross b hb a List.mem_cons_self).symm.mono hrest).symm
      · exact hacross b hb c (List.mem_cons_of_mem _ hc)
  · intro o ho c hc
    -- a free area is one of the old, or what is left of the one that was taken from
    have hcases : c = a.rest n ∨ c ∈ before ∨ c ∈ behind := by
      rcases List.mem_append.mp hc with hc | hc
      · exact Or.inr (Or.inl hc)
      · exact (List.mem_cons.mp hc).imp_right Or.inr
    rcases List.mem_cons.mp ho with rfl | ho
    · change c.Apart (a.first n)
      rcases hcases with rfl | hc | hc
      · exact (a.first_apart_rest n).symm
      · exact ((hacross c hc a List.mem_cons_self).symm.mono hfirst).symm
      · exact ((habehind c hc).mono hfirst).symm
    · rcases hcases with rfl | hc | hc
      · exact (hothers o ho a hamem).mono hrest
      · exact hothers o ho c (List.mem_append_left _ hc)
      · exact hothers o ho c (List.mem_append_right _ (List.mem_cons_of_mem _ hc))

/-- What both parts of an area inherit. -/
theorem firstFit_forall {P : Area α → Prop} (h : firstFit n free = some (s, free'))
    (hsplit : ∀ a : Area α, P a → n ≤ a.len → P (a.first n) ∧ P (a.rest n))
    (hfree : ∀ a ∈ free, P a) : P ⟨s, n⟩ ∧ ∀ a ∈ free', P a := by
  obtain ⟨before, a, behind, rfl, hlen, rfl, rfl⟩ := firstFit_eq_some h
  obtain ⟨hfirst, hrest⟩ :=
    hsplit a (hfree a (List.mem_append_right _ List.mem_cons_self)) hlen
  refine ⟨hfirst, fun c hc => ?_⟩
  rcases List.mem_append.mp hc with hc | hc
  · exact hfree c (List.mem_append_left _ hc)
  · rcases List.mem_cons.mp hc with rfl | hc
    · exact hrest
    · exact hfree c (List.mem_append_right _ (List.mem_cons_of_mem _ hc))

end Areas

end AltF.Foundation
