/-
  Foundation/Traversal.lean --- an element, and then all that is below it: a recursion that lists
  what it follows, and has no memory of where it has been.

  It ends exactly where the steps that it follows do not come back, and lists exactly what they
  lead to.
-/
import AltF.Foundation.Dependencies

set_option autoImplicit false

namespace AltF.Foundation

variable {α : Type} (follows : α → Bool) (children : α → List α)

/-- The elements that are followed, each with what is below it. -/
def visitAll (below : List α → Option (List α)) : List α → Option (List α)
  | [] => some []
  | a :: as =>
      if follows a then do
        let under ← below (children a)
        let rest ← visitAll below as
        return a :: under ++ rest
      else visitAll below as

/-- The recursion, down to a depth. -/
def visit : Nat → List α → Option (List α)
  | 0 => fun _ => none
  | n + 1 => visitAll follows children (visit n)

/-- The second is followed below the first. -/
def Step (a b : α) : Prop := b ∈ children a ∧ follows b = true

variable {follows children}

theorem visitAll_cons_of_follows {a : α} (ha : follows a = true)
    (below : List α → Option (List α)) (as : List α) :
    visitAll follows children below (a :: as) =
      (below (children a)).bind fun under =>
        (visitAll follows children below as).map fun rest => a :: under ++ rest := by
  rw [visitAll, if_pos ha]
  cases below (children a) with
  | none => rfl
  | some under =>
      cases visitAll follows children below as with
      | none => rfl
      | some rest => rfl

theorem visitAll_cons_of_not {a : α} (ha : follows a = false)
    (below : List α → Option (List α)) (as : List α) :
    visitAll follows children below (a :: as) = visitAll follows children below as := by
  rw [visitAll, if_neg (by rw [ha]; exact Bool.false_ne_true)]

/-- What two results are made of. -/
theorem visitAll_cons_eq_some {a : α} (ha : follows a = true)
    {below : List α → Option (List α)} {as l : List α}
    (h : visitAll follows children below (a :: as) = some l) :
    ∃ under rest, below (children a) = some under ∧
      visitAll follows children below as = some rest ∧ l = a :: under ++ rest := by
  rw [visitAll_cons_of_follows ha, Option.bind_eq_some_iff] at h
  obtain ⟨under, hunder, h⟩ := h
  obtain ⟨rest, hrest, hl⟩ := Option.map_eq_some_iff.mp h
  exact ⟨under, rest, hunder, hrest, hl.symm⟩

/-! ## What is listed -/

/-- An element is reached from one that is followed. -/
def ReachedFrom (follows : α → Bool) (children : α → List α) (as : List α) (b : α) : Prop :=
  ∃ a ∈ as, follows a = true ∧ Relation.ReflTransGen (Step follows children) a b

theorem reachedFrom_cons {a : α} {as : List α} {b : α} :
    ReachedFrom follows children (a :: as) b ↔
      (follows a = true ∧ Relation.ReflTransGen (Step follows children) a b) ∨
        ReachedFrom follows children as b := by
  constructor
  · rintro ⟨c, hc, hfollows, hcb⟩
    rcases List.mem_cons.mp hc with rfl | hc
    · exact Or.inl ⟨hfollows, hcb⟩
    · exact Or.inr ⟨c, hc, hfollows, hcb⟩
  · rintro (⟨hfollows, hab⟩ | ⟨c, hc, hfollows, hcb⟩)
    · exact ⟨a, List.mem_cons_self, hfollows, hab⟩
    · exact ⟨c, List.mem_cons_of_mem a hc, hfollows, hcb⟩

/-- Below an element is what is reached from its children. -/
theorem reflTransGen_step_iff {a b : α} : Relation.ReflTransGen (Step follows children) a b ↔
    b = a ∨ ReachedFrom follows children (children a) b := by
  rw [Relation.ReflTransGen.cases_head_iff]
  refine or_congr eq_comm ⟨?_, ?_⟩
  · rintro ⟨c, ⟨hc, hfollows⟩, hcb⟩
    exact ⟨c, hc, hfollows, hcb⟩
  · rintro ⟨c, hc, hfollows, hcb⟩
    exact ⟨c, ⟨hc, hfollows⟩, hcb⟩

/-- **The list** has exactly what is reached. -/
theorem mem_visit {n : Nat} {as l : List α} (h : visit follows children n as = some l) (b : α) :
    b ∈ l ↔ ReachedFrom follows children as b := by
  induction n generalizing as l with
  | zero => cases h
  | succ n ih =>
      rw [visit] at h
      induction as generalizing l with
      | nil =>
          obtain rfl := Option.some.inj h
          exact iff_of_false List.not_mem_nil fun ⟨_, hmem, _⟩ => List.not_mem_nil hmem
      | cons a as ihas =>
          rw [reachedFrom_cons]
          cases ha : follows a with
          | false =>
              rw [visitAll_cons_of_not ha] at h
              rw [ihas h]
              exact (or_iff_right fun hpair => Bool.false_ne_true hpair.1).symm
          | true =>
              obtain ⟨under, rest, hunder, hrest, rfl⟩ := visitAll_cons_eq_some ha h
              rw [List.cons_append, List.mem_cons, List.mem_append, ih hunder, ihas hrest,
                and_iff_right rfl, reflTransGen_step_iff, or_assoc]

/-! ## When it ends -/

/-- **A recursion that ends** does not come back to where it has been. -/
theorem acc_of_visit {n : Nat} {as l : List α} (h : visit follows children n as = some l) {a : α}
    (ha : a ∈ as) (hfollows : follows a = true) : Acc (flip (Step follows children)) a := by
  induction n generalizing as l a with
  | zero => cases h
  | succ n ih =>
      rw [visit] at h
      induction as generalizing l with
      | nil => cases ha
      | cons c as ihas =>
          cases hc : follows c with
          | false =>
              rw [visitAll_cons_of_not hc] at h
              rcases List.mem_cons.mp ha with rfl | ha
              · exact absurd (hc.symm.trans hfollows) Bool.false_ne_true
              · exact ihas h ha
          | true =>
              obtain ⟨under, rest, hunder, hrest, -⟩ := visitAll_cons_eq_some hc h
              rcases List.mem_cons.mp ha with rfl | ha
              · exact Acc.intro a fun b hb => ih hunder hb.1 hb.2
              · exact ihas hrest ha

theorem acc_of_reflTransGen {r : α → α → Prop} {a b : α} (h : Acc (flip r) a)
    (hab : Relation.ReflTransGen r a b) : Acc (flip r) b := by
  induction hab with
  | refl => exact h
  | tail _ hstep ih => exact ih.inv hstep

theorem not_transGen_of_acc {r : α → α → Prop} {a : α} (h : Acc (flip r) a) :
    ¬ Relation.TransGen r a a := by
  induction h with
  | intro a _ ih =>
      intro hcycle
      obtain ⟨b, hab, hba⟩ := Relation.TransGen.head'_iff.mp hcycle
      exact ih b hab (Relation.TransGen.tail' hba hab)

/-- It does not where a rank falls. -/
theorem visit_of_rank {rank : α → Nat} {S : Set α} (hS : ClosedUnder (Step follows children) S)
    (hrank : ∀ a ∈ S, ∀ b, Step follows children a b → rank b < rank a) (n : Nat) {as : List α}
    (has : ∀ a ∈ as, follows a = true → a ∈ S ∧ rank a < n) :
    ∃ l, visit follows children (n + 1) as = some l := by
  induction n generalizing as with
  | zero =>
      induction as with
      | nil => exact ⟨[], rfl⟩
      | cons a as ihas =>
          have ha : follows a = false := by
            rw [← Bool.not_eq_true]
            exact fun h => Nat.not_lt_zero _ (has a List.mem_cons_self h).2
          rw [visit, visitAll_cons_of_not ha]
          exact ihas fun b hb => has b (List.mem_cons_of_mem a hb)
  | succ n ih =>
      induction as with
      | nil => exact ⟨[], rfl⟩
      | cons a as ihas =>
          obtain ⟨rest, hrest⟩ := ihas fun b hb => has b (List.mem_cons_of_mem a hb)
          rw [visit] at hrest
          cases ha : follows a with
          | false => exact ⟨rest, by rw [visit, visitAll_cons_of_not ha, hrest]⟩
          | true =>
              obtain ⟨hmem, hlt⟩ := has a List.mem_cons_self ha
              have hbelow : ∀ b ∈ children a, follows b = true → b ∈ S ∧ rank b < n :=
                fun b hb hfollows => ⟨hS hmem ⟨hb, hfollows⟩,
                  (hrank a hmem b ⟨hb, hfollows⟩).trans_le (Nat.le_of_lt_succ hlt)⟩
              obtain ⟨under, hunder⟩ := ih hbelow
              refine ⟨a :: under ++ rest, ?_⟩
              rw [visit, visitAll_cons_of_follows ha, hunder, hrest]
              rfl

/-- **Where no step comes back**, among finitely many elements, it ends. -/
theorem visit_of_acyclic {S : Set α} (hS : ClosedUnder (Step follows children) S) {l : List α}
    (hl : ∀ a ∈ S, ∀ b, Step follows children a b → b ∈ l)
    (hacyclic : ∀ a ∈ S, ¬ Relation.TransGen (Step follows children) a a) {as : List α}
    (has : ∀ a ∈ as, follows a = true → a ∈ S) :
    ∃ n out, visit follows children n as = some out := by
  have hinside : Acyclic fun a b => a ∈ S ∧ Step follows children a b := by
    intro a hcycle
    obtain ⟨b, ⟨ha, -⟩, -⟩ := Relation.TransGen.head'_iff.mp hcycle
    exact hacyclic a ha (Relation.TransGen.mono (fun _ _ h => h.2) a a hcycle)
  obtain ⟨rank, hrank, hle⟩ := hinside.exists_rank (l := l) fun a b h => hl a h.1 b h.2
  obtain ⟨out, hout⟩ := visit_of_rank hS (fun a ha b hab => hrank a b ⟨ha, hab⟩) (l.length + 1)
    fun a ha hfollows => ⟨has a ha hfollows, Nat.lt_succ_of_le (hle a)⟩
  exact ⟨_, out, hout⟩

end AltF.Foundation
