/-
  Foundation/Directory.lean --- a directory whose listing is sorted.

  The files are kept in the order of their names, which is the order in which `ls`
  and a pattern of the shell give them.
-/
import Mathlib.Data.List.Sort

set_option autoImplicit false

namespace AltF.Foundation

/-- Files with a name and a content, sorted by their different names. -/
structure Directory (ν γ : Type) [LinearOrder ν] where
  files : List (ν × γ)
  sorted : (files.map Prod.fst).Pairwise (· < ·)

namespace Directory

variable {ν γ : Type} [LinearOrder ν]

/-- All names. -/
def names (d : Directory ν γ) : List ν := d.files.map Prod.fst

/-- The names that match, as `ls` prints them. -/
def ls (d : Directory ν γ) (pattern : ν → Bool) : List ν := d.names.filter pattern

/-- The content of a file. -/
def read? (d : Directory ν γ) (n : ν) : Option γ :=
  (d.files.find? fun f => f.1 = n).map Prod.snd

/-- The files whose names are kept. -/
def keep (d : Directory ν γ) (p : ν → Bool) : Directory ν γ where
  files := d.files.filter fun f => p f.1
  sorted := d.sorted.sublist (List.filter_sublist.map Prod.fst)

/-- `rm` of the names listed. -/
def rm (d : Directory ν γ) (ns : List ν) : Directory ν γ := d.keep fun n => n ∉ ns

/-- A file created, or written anew. -/
def put (d : Directory ν γ) (n : ν) (c : γ) : Directory ν γ where
  files := (d.keep (· < n)).files ++ (n, c) :: (d.keep (n < ·)).files
  sorted := by
    rw [List.map_append, List.map_cons, List.pairwise_append, List.pairwise_cons]
    have hbelow : ∀ m ∈ (d.keep (· < n)).files.map Prod.fst, m < n := by
      intro m hm
      obtain ⟨f, hf, rfl⟩ := List.mem_map.mp hm
      exact of_decide_eq_true (List.mem_filter.mp hf).2
    have habove : ∀ m ∈ (d.keep (n < ·)).files.map Prod.fst, n < m := by
      intro m hm
      obtain ⟨f, hf, rfl⟩ := List.mem_map.mp hm
      exact of_decide_eq_true (List.mem_filter.mp hf).2
    refine ⟨(d.keep (· < n)).sorted, ⟨habove, (d.keep (n < ·)).sorted⟩, ?_⟩
    intro a ha b hb
    rcases List.mem_cons.mp hb with rfl | hb
    · exact hbelow a ha
    · exact (hbelow a ha).trans (habove b hb)

/-! ## Reading -/

/-- A name is there when it can be read. -/
theorem mem_names_iff (d : Directory ν γ) (n : ν) : n ∈ d.names ↔ (d.read? n).isSome = true := by
  rw [read?, Option.isSome_map, List.find?_isSome, names, List.mem_map]
  simp only [decide_eq_true_eq]

theorem read?_keep (d : Directory ν γ) (p : ν → Bool) (n : ν) :
    (d.keep p).read? n = if p n then d.read? n else none := by
  simp only [read?, keep, List.find?_filter]
  cases hp : p n with
  | true =>
      congr 2
      funext f
      by_cases hf : f.1 = n
      · simp [hf, hp]
      · simp [hf]
  | false =>
      rw [if_neg (by simp), Option.map_eq_none_iff, List.find?_eq_none]
      intro f _ h
      simp only [decide_eq_true_eq] at h
      rw [h.2, hp] at h
      exact absurd h.1 (by simp)

@[simp] theorem read?_rm (d : Directory ν γ) (ns : List ν) (n : ν) :
    (d.rm ns).read? n = if n ∈ ns then none else d.read? n := by
  rw [rm, read?_keep]
  by_cases h : n ∈ ns <;> simp [h]

@[simp] theorem read?_put (d : Directory ν γ) (n : ν) (c : γ) (m : ν) :
    (d.put n c).read? m = if m = n then some c else d.read? m := by
  have happ : (d.put n c).read? m =
      ((d.keep (· < n)).read? m).or (if m = n then some c else (d.keep (n < ·)).read? m) := by
    simp only [read?, put, List.find?_append, List.find?_cons, Option.map_or]
    by_cases hm : m = n
    · simp [hm]
    · simp [hm, Ne.symm hm]
  rw [happ, read?_keep, read?_keep]
  -- The name is below, at or above the one put.
  rcases lt_trichotomy m n with hlt | rfl | hgt
  · simp [hlt, hlt.ne, hlt.not_gt]
  · simp
  · simp [hgt, hgt.ne', hgt.not_gt]

/-! ## Listing -/

theorem ls_sorted (d : Directory ν γ) (pattern : ν → Bool) :
    (d.ls pattern).Pairwise (· < ·) :=
  d.sorted.filter pattern

theorem mem_ls (d : Directory ν γ) (pattern : ν → Bool) (n : ν) :
    n ∈ d.ls pattern ↔ (d.read? n).isSome = true ∧ pattern n = true := by
  rw [ls, List.mem_filter, mem_names_iff]

/-- A sorted list is the listing when it has the same members. -/
theorem ls_eq (d : Directory ν γ) {pattern : ν → Bool} {l : List ν} (hsorted : l.Pairwise (· < ·))
    (hmem : ∀ n, n ∈ l ↔ (d.read? n).isSome = true ∧ pattern n = true) : d.ls pattern = l := by
  refine (d.ls_sorted pattern).eq_of_mem_iff hsorted ?_
  intro n
  rw [mem_ls, hmem]

/-- The last of a listing is the greatest name that matches. -/
theorem getLast?_ls_eq_some_iff (d : Directory ν γ) (pattern : ν → Bool) (m : ν) :
    (d.ls pattern).getLast? = some m ↔ m ∈ d.ls pattern ∧ ∀ n ∈ d.ls pattern, n ≤ m := by
  have hgreatest : ∀ x, (d.ls pattern).getLast? = some x →
      x ∈ d.ls pattern ∧ ∀ n ∈ d.ls pattern, n ≤ x := by
    intro x hx
    obtain ⟨ys, hys⟩ := List.getLast?_eq_some_iff.mp hx
    have hsorted := d.ls_sorted pattern
    rw [hys, List.pairwise_append] at hsorted
    rw [hys]
    refine ⟨List.mem_append_right ys List.mem_cons_self, ?_⟩
    intro n hn
    rcases List.mem_append.mp hn with hn | hn
    · exact (hsorted.2.2 n hn x List.mem_cons_self).le
    · exact (List.mem_singleton.mp hn).le
  constructor
  · exact hgreatest m
  · rintro ⟨hmem, hle⟩
    cases hlast : (d.ls pattern).getLast? with
    | none =>
        rw [List.getLast?_eq_none_iff] at hlast
        rw [hlast] at hmem
        cases hmem
    | some x =>
        obtain ⟨hx, hxle⟩ := hgreatest x hlast
        rw [le_antisymm (hle x hx) (hxle m hmem)]

/-- Removing the first names of a listing leaves the rest of it. -/
theorem ls_rm_take (d : Directory ν γ) (pattern : ν → Bool) (k : Nat) :
    (d.rm ((d.ls pattern).take k)).ls pattern = (d.ls pattern).drop k := by
  have hsorted := d.ls_sorted pattern
  refine ls_eq _ (hsorted.sublist (List.drop_sublist k _)) ?_
  intro n
  rw [read?_rm]
  have hsplit : n ∈ d.ls pattern ↔
      n ∈ (d.ls pattern).take k ∨ n ∈ (d.ls pattern).drop k := by
    rw [← List.mem_append, List.take_append_drop]
  by_cases htake : n ∈ (d.ls pattern).take k
  · rw [if_pos htake]
    refine ⟨fun hdrop => ?_, fun h => nomatch h.1⟩
    rw [← List.take_append_drop k (d.ls pattern), List.pairwise_append] at hsorted
    exact absurd rfl (hsorted.2.2 n htake n hdrop).ne
  · rw [if_neg htake, ← mem_ls, hsplit]
    exact ⟨fun h => .inr h, fun h => h.resolve_left htake⟩

end Directory

end AltF.Foundation
