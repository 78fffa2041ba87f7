/-
  Foundation/EraseBlocks.lean --- the erase blocks of a NAND device, some of which are bad.

  A program that skips bad blocks uses the first good ones.  How far those reach depends on
  where the bad blocks are, and not only on how many there are.
-/
import Mathlib.Data.List.Nodup
import Mathlib.Data.List.Range

set_option autoImplicit false

namespace AltF.Foundation

/-- The erase blocks of a device in order, `true` for a bad one. -/
abbrev EraseBlocks : Type := List Bool

namespace EraseBlocks

variable (bs : EraseBlocks)

/-- The bad blocks of the device. -/
def badCount : Nat := List.count true bs

/-- The good ones among the first `n` blocks. -/
def goodBelow (n : Nat) : List Nat := (List.range n).filter fun i => bs[i]? == some false

/-- The good blocks of the device. -/
def good : List Nat := goodBelow bs bs.length

theorem mem_goodBelow {n i : Nat} : i ∈ goodBelow bs n ↔ i < n ∧ bs[i]? = some false := by
  rw [goodBelow, List.mem_filter, List.mem_range, beq_iff_eq]

theorem goodBelow_succ (n : Nat) :
    goodBelow bs (n + 1) =
      goodBelow bs n ++ if bs[n]? = some false then [n] else [] := by
  rw [goodBelow, goodBelow, List.range_succ, List.filter_append]
  by_cases hn : bs[n]? = some false
  · rw [if_pos hn, List.filter_cons_of_pos (by rw [hn]; rfl), List.filter_nil]
  · rw [if_neg hn, List.filter_cons_of_neg (by simpa using hn), List.filter_nil]

/-- More blocks add good ones behind. -/
theorem goodBelow_append {n m : Nat} (h : n ≤ m) :
    ∃ more, goodBelow bs m = goodBelow bs n ++ more ∧ ∀ i ∈ more, n ≤ i := by
  induction m, h using Nat.le_induction with
  | base => exact ⟨[], (List.append_nil _).symm, by simp⟩
  | succ m hm ih =>
      obtain ⟨more, hmore, hle⟩ := ih
      refine ⟨more ++ if bs[m]? = some false then [m] else [], ?_, ?_⟩
      · rw [goodBelow_succ, hmore, List.append_assoc]
      · intro i hi
        rcases List.mem_append.mp hi with h | h
        · exact hle i h
        · split at h
          · rw [List.mem_singleton] at h
            omega
          · cases h

/-- Each of the first blocks is good or bad. -/
theorem length_goodBelow {n : Nat} (h : n ≤ bs.length) :
    (goodBelow bs n).length + badCount (bs.take n) = n := by
  induction n with
  | zero => simp [goodBelow, badCount]
  | succ n ih =>
      have hlt : n < bs.length := by omega
      have hn := ih (by omega)
      rw [goodBelow_succ, badCount, List.take_add_one, List.getElem?_eq_getElem hlt,
        List.count_append, List.length_append]
      rw [badCount] at hn
      cases hb : bs[n] with
      | true =>
          simp only [Option.some.injEq, reduceCtorEq, if_false, List.length_nil,
            Option.toList_some, List.count_singleton_self]
          omega
      | false =>
          have hfalse : List.count true [false] = 0 := rfl
          simp only [if_true, List.length_singleton, Option.toList_some, hfalse]
          omega

/-- The bad blocks among the first ones are not more than those of the device. -/
theorem badCount_take_le (n : Nat) : badCount (bs.take n) ≤ badCount bs :=
  (List.take_sublist n bs).count_le true

/-- The first `k` good blocks lie among the first `n` blocks exactly if there are `k` good
ones among these. -/
theorem take_good_subset_iff {k n : Nat} (hk : k ≤ (good bs).length) (hn : n ≤ bs.length) :
    (∀ i ∈ (good bs).take k, i ∈ goodBelow bs n) ↔ k ≤ (goodBelow bs n).length := by
  obtain ⟨more, hmore, hle⟩ := goodBelow_append bs hn
  rw [good, hmore] at hk ⊢
  rw [List.length_append] at hk
  constructor
  · intro h
    by_contra hlt
    have hplace : (goodBelow bs n).length < k := by omega
    have hpos : 0 < more.length := by omega
    -- The good block behind the first `n` that is used first.
    have hmem : more[0] ∈ (goodBelow bs n ++ more).take k := by
      rw [List.take_append, List.mem_append]
      right
      rw [List.mem_take_iff_getElem]
      exact ⟨0, by omega, rfl⟩
    have hfar := hle more[0] (List.getElem_mem hpos)
    have hnear := ((mem_goodBelow bs).mp (h _ hmem)).1
    omega
  · intro h i hi
    rw [List.take_append_of_le_length h] at hi
    exact List.mem_of_mem_take hi

end EraseBlocks

end AltF.Foundation
