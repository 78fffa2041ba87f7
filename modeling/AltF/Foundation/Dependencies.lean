/-
  Foundation/Dependencies.lean --- sets that are closed under a relation of
  requirement, sets without two elements that exclude each other, and the rank of an
  acyclic relation.

  An element may be added to a closed set when what it requires is there, and taken
  from it when nothing in the set requires it.
-/
import Mathlib.Data.Set.Card
import Mathlib.Logic.Relation

set_option autoImplicit false

namespace AltF.Foundation

variable {α : Type}

/-! ## Requirements -/

/-- The set has, with every element, all that the element requires. -/
def ClosedUnder (req : α → α → Prop) (S : Set α) : Prop :=
  ∀ ⦃a⦄, a ∈ S → ∀ ⦃b⦄, req a b → b ∈ S

section Requirements

variable {req : α → α → Prop} {S : Set α} {a : α}

theorem closedUnder_empty : ClosedUnder req (∅ : Set α) :=
  fun _ ha => absurd ha (Set.notMem_empty _)

theorem ClosedUnder.insert (h : ClosedUnder req S) (ha : ∀ b, req a b → b ∈ S) :
    ClosedUnder req (insert a S) := by
  intro c hc b hb
  rcases Set.mem_insert_iff.mp hc with rfl | hc
  · exact Set.mem_insert_of_mem c (ha b hb)
  · exact Set.mem_insert_of_mem a (h hc hb)

theorem ClosedUnder.erase (h : ClosedUnder req S) (ha : ∀ c ∈ S, c ≠ a → ¬ req c a) :
    ClosedUnder req (S \ {a}) := by
  rintro c ⟨hc, hne⟩ b hb
  refine ⟨h hc hb, ?_⟩
  rintro rfl
  exact ha c hc hne hb

end Requirements

/-! ## Exclusions -/

/-- No two elements exclude each other. -/
def Apart (excl : α → α → Prop) (S : Set α) : Prop := ∀ ⦃a⦄, a ∈ S → ∀ ⦃b⦄, b ∈ S → ¬ excl a b

section Exclusions

variable {excl : α → α → Prop} {S T : Set α} {a : α}

theorem Apart.mono (h : Apart excl T) (hST : S ⊆ T) : Apart excl S :=
  fun _ ha _ hb => h (hST ha) (hST hb)

theorem Apart.insert (h : Apart excl S) (hsymm : ∀ a b, excl a b → excl b a)
    (hself : ¬ excl a a) (ha : ∀ b ∈ S, ¬ excl a b) : Apart excl (insert a S) := by
  intro b hb c hc
  rcases Set.mem_insert_iff.mp hb with hba | hbS <;> rcases Set.mem_insert_iff.mp hc with hca | hcS
  · rw [hba, hca]
    exact hself
  · rw [hba]
    exact ha c hcS
  · rw [hca]
    exact fun hexcl => ha b hbS (hsymm b a hexcl)
  · exact h hbS hcS

end Exclusions

/-! ## Acyclic relations -/

/-- No element requires itself, directly or indirectly. -/
def Acyclic (req : α → α → Prop) : Prop := ∀ a, ¬ Relation.TransGen req a a

/-- A relation along which a rank falls is acyclic. -/
theorem acyclic_of_rank {req : α → α → Prop} (rank : α → Nat)
    (h : ∀ a b, req a b → rank b < rank a) : Acyclic req := by
  have hlt : ∀ {a b : α}, Relation.TransGen req a b → rank b < rank a := by
    intro a b hab
    induction hab with
    | single hreq => exact h a _ hreq
    | tail _ hreq ih => exact (h _ _ hreq).trans ih
  exact fun a ha => Nat.lt_irrefl _ (hlt ha)

/-- **A rank** that falls along an acyclic relation with finitely many required elements,
and is not above their number. -/
theorem Acyclic.exists_rank {req : α → α → Prop} (h : Acyclic req) {l : List α}
    (hl : ∀ a b, req a b → b ∈ l) :
    ∃ rank : α → Nat, (∀ a b, req a b → rank b < rank a) ∧ ∀ a, rank a ≤ l.length := by
  classical
  have hfinite : ∀ a, {b | Relation.TransGen req a b} ⊆ (l.toFinset : Set α) := by
    intro a b hb
    have hmem : b ∈ l := by
      cases hb with
      | single hab => exact hl a b hab
      | tail _ hcb => exact hl _ b hcb
    simpa using hmem
  refine ⟨fun a => Set.ncard {b | Relation.TransGen req a b}, fun a b hab => ?_, fun a => ?_⟩
  · refine Set.ncard_lt_ncard ⟨fun c hc => ?_, fun hsub => ?_⟩
      ((Finset.finite_toSet _).subset (hfinite a))
    · exact Relation.TransGen.head hab hc
    · exact h b (hsub (Relation.TransGen.single hab))
  · calc Set.ncard {b | Relation.TransGen req a b} ≤ Set.ncard (l.toFinset : Set α) :=
          Set.ncard_le_ncard (hfinite a) (Finset.finite_toSet _)
      _ = l.toFinset.card := Set.ncard_coe_finset _
      _ ≤ l.length := List.toFinset_card_le l

/-! ## Tops -/

/-- The elements of a set that nothing in it requires. -/
def Tops (req : α → α → Prop) (S : Set α) : Set α := {a | a ∈ S ∧ ∀ b ∈ S, ¬ req b a}

/-- What the elements of a set require, directly or indirectly, and they themselves. -/
def Below (req : α → α → Prop) (S : Set α) : Set α :=
  {a | ∃ b ∈ S, Relation.ReflTransGen req b a}

section Tops

variable {req : α → α → Prop} {S T : Set α} {a b : α}

theorem ClosedUnder.reflTransGen (h : ClosedUnder req S) (ha : a ∈ S)
    (hab : Relation.ReflTransGen req a b) : b ∈ S := by
  induction hab with
  | refl => exact ha
  | tail _ hreq ih => exact h ih hreq

theorem below_subset (h : ClosedUnder req S) (hT : T ⊆ S) : Below req T ⊆ S := by
  rintro a ⟨b, hb, hba⟩
  exact h.reflTransGen (hT hb) hba

theorem below_mono (h : S ⊆ T) : Below req S ⊆ Below req T :=
  fun _ ⟨b, hb, hba⟩ => ⟨b, h hb, hba⟩

/-- In a part of a set, a top of the set is one as long as it is there. -/
theorem mem_tops_of_subset (hST : S ⊆ T) (ha : a ∈ S) (hT : a ∈ Tops req T) : a ∈ Tops req S :=
  ⟨ha, fun b hb => hT.2 b (hST hb)⟩

/-- **Every element is below a top**, where chains of requirements end. -/
theorem Acyclic.subset_below_tops (h : Acyclic req) {l : List α} (hl : ∀ a b, req a b → b ∈ l)
    (S : Set α) : S ⊆ Below req (Tops req S) := by
  obtain ⟨rank, hrank, hle⟩ := h.exists_rank hl
  intro a ha
  induction hn : l.length - rank a using Nat.strong_induction_on generalizing a with
  | _ n ih =>
      by_cases htop : ∀ b ∈ S, ¬ req b a
      · exact ⟨a, ⟨ha, htop⟩, Relation.ReflTransGen.refl⟩
      · simp only [not_forall, not_not] at htop
        obtain ⟨b, hb, hba⟩ := htop
        have hlt := hrank b a hba
        have hbound := hle b
        obtain ⟨c, hc, hcb⟩ := ih _ (by omega) hb rfl
        exact ⟨c, hc, hcb.tail hba⟩

/-- A closed set is what its tops require. -/
theorem ClosedUnder.eq_below_tops (hS : ClosedUnder req S) (h : Acyclic req) {l : List α}
    (hl : ∀ a b, req a b → b ∈ l) : S = Below req (Tops req S) :=
  Set.Subset.antisymm (h.subset_below_tops hl S) (below_subset hS fun _ ha => ha.1)

/-- Without an element, the tops are the old ones, and some that it requires. -/
theorem tops_erase_subset : Tops req (S \ {a}) ⊆ Tops req S ∪ {b | req a b} := by
  rintro b ⟨⟨hb, hne⟩, htop⟩
  by_cases hab : req a b
  · exact Or.inr hab
  · refine Or.inl ⟨hb, fun c hc hcb => ?_⟩
    by_cases hca : c = a
    · exact hab (hca ▸ hcb)
    · exact htop c ⟨hc, hca⟩ hcb

end Tops

end AltF.Foundation
