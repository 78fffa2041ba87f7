/-
  Settings/Retries.lean --- what the retries of saveflashdef leave on the flash.

  Each failed copy is followed by one `rm` of the new set and of the first set in
  the listing, which may be one and the same.  `survivors` says which of the old
  sets are left after so many failures, in terms of the flash before the save.
-/
import AltF.Settings.Flash

set_option autoImplicit false

namespace AltF.Settings

open AltF.Foundation

variable {α : Type}

/-! ## The other sets -/

/-- The sets `set_*.tgz` other than `nm`, as they are listed. -/
def others (d : Flash α) (nm : FileName) : List FileName := (d.ls isTgz).filter (· ≠ nm)

theorem others_sorted (d : Flash α) (nm : FileName) : (others d nm).Pairwise (· < ·) :=
  (d.ls_sorted isTgz).filter _

theorem mem_others (d : Flash α) (nm n : FileName) :
    n ∈ others d nm ↔ ((d.read? n).isSome = true ∧ isTgz n = true) ∧ n ≠ nm := by
  rw [others, List.mem_filter, Directory.mem_ls, decide_eq_true_eq]

/-- A flash with the same other files has the same other sets. -/
theorem others_congr {d d' : Flash α} {nm : FileName}
    (h : ∀ n, n ≠ nm → d'.read? n = d.read? n) : others d' nm = others d nm := by
  refine (others_sorted d' nm).eq_of_mem_iff (others_sorted d nm) ?_
  intro n
  rw [mem_others, mem_others]
  by_cases hn : n = nm
  · simp [hn]
  · rw [h n hn]

theorem read?_cp_of_ne {d : Flash α} {nm n : FileName} (hn : n ≠ nm) (v : α) (c : Copy) :
    (cp d nm v c).read? n = d.read? n := by
  cases c with
  | ok => rw [cp, Directory.read?_put, if_neg hn]
  | notOpened => rfl
  | left b => rw [cp, Directory.read?_put, if_neg hn]

theorem others_cp (d : Flash α) (nm : FileName) (v : α) (c : Copy) :
    others (cp d nm v c) nm = others d nm :=
  others_congr fun _ hn => read?_cp_of_ne hn v c

/-- After a copy the name is there if it was or if the copy left something. -/
theorem isSome_read?_cp (d : Flash α) (nm : FileName) (v : α) (c : Copy) :
    ((cp d nm v c).read? nm).isSome = ((d.read? nm).isSome || c.leaves) := by
  cases c with
  | ok => simp [cp, Copy.leaves]
  | notOpened => simp [cp, Copy.leaves]
  | left b => simp [cp, Copy.leaves]

/-- How many of the other sets are older than `nm`, by name. -/
def olderThan (d : Flash α) (nm : FileName) : Nat := (others d nm).countP (· < nm)

/-! ## One retry -/

theorem read?_makeRoom (d : Flash α) (nm n : FileName) :
    (makeRoom d nm).read? n =
      if n = nm ∨ (d.ls isTgz).head? = some n then none else d.read? n := by
  rw [makeRoom, Directory.read?_rm]
  simp only [List.mem_cons, Option.mem_toList]

/-- The listing begins with `nm` itself when it is there and no older set is. -/
theorem others_makeRoom_eq_filter (d : Flash α) (nm : FileName) :
    others (makeRoom d nm) nm =
      (others d nm).filter fun n => decide ((d.ls isTgz).head? ≠ some n) := by
  refine (others_sorted _ nm).eq_of_mem_iff ((others_sorted d nm).filter _) ?_
  intro n
  rw [List.mem_filter, mem_others, mem_others, read?_makeRoom, decide_eq_true_eq]
  by_cases hn : n = nm
  · simp [hn]
  · by_cases hhead : (d.ls isTgz).head? = some n <;> simp [hn, hhead]

/-- **One retry** spares the other sets only when `nm` is there and is the oldest;
else it takes the oldest of them. -/
theorem others_makeRoom (d : Flash α) {nm : FileName} (hnm : isTgz nm = true) :
    others (makeRoom d nm) nm = (others d nm).drop
      (if (d.read? nm).isSome = true ∧ olderThan d nm = 0 then 0 else 1) := by
  have hlisted : (d.read? nm).isSome = true ↔ nm ∈ d.ls isTgz := by
    rw [Directory.mem_ls, hnm]
    exact ⟨fun h => ⟨h, rfl⟩, fun h => h.1⟩
  rw [others_makeRoom_eq_filter, olderThan, others]
  simp only [hlisted]
  have hsorted := d.ls_sorted isTgz
  cases hlist : d.ls isTgz with
  | nil => rfl
  | cons a t =>
      rw [hlist, List.pairwise_cons] at hsorted
      have hkeep : ∀ {l : List FileName}, (∀ m ∈ l, m ∈ t) →
          l.filter (fun m => decide ((a :: t).head? ≠ some m)) = l := by
        intro l hl
        refine List.filter_eq_self.mpr fun m hm => decide_eq_true ?_
        rw [List.head?_cons, ne_eq, Option.some.injEq]
        exact (hsorted.1 m (hl m hm)).ne
      by_cases ha : a = nm
      · -- `nm` is the first of the listing, and the others are the rest of it.
        subst ha
        have hrest : (a :: t).filter (fun m => decide (m ≠ a)) = t := by
          rw [List.filter_cons_of_neg (by simp)]
          exact List.filter_eq_self.mpr fun m hm => decide_eq_true (hsorted.1 m hm).ne'
        have hnone : t.countP (fun m => decide (m < a)) = 0 := by
          rw [List.countP_eq_zero]
          intro m hm h
          exact (hsorted.1 m hm).not_gt (of_decide_eq_true h)
        rw [hrest, hkeep fun _ hm => hm, if_pos ⟨List.mem_cons_self, hnone⟩, List.drop_zero]
      · have hrest : (a :: t).filter (fun m => decide (m ≠ nm)) =
            a :: t.filter (fun m => decide (m ≠ nm)) :=
          List.filter_cons_of_pos (decide_eq_true ha)
        have hcount : ¬(nm ∈ a :: t ∧
            (a :: t.filter fun m => decide (m ≠ nm)).countP (fun m => decide (m < nm)) = 0) := by
          intro h
          have hmem : nm ∈ t := (List.mem_cons.mp h.1).resolve_left (Ne.symm ha)
          have hzero := List.countP_eq_zero.mp h.2 a List.mem_cons_self
          exact hzero (decide_eq_true (hsorted.1 nm hmem))
        rw [hrest, if_neg hcount, List.filter_cons_of_neg (by simp),
          hkeep fun _ hm => (List.mem_filter.mp hm).1]
        rfl

/-- A retry leaves one older set less. -/
theorem olderThan_makeRoom (d : Flash α) {nm : FileName} (hnm : isTgz nm = true) :
    olderThan (makeRoom d nm) nm = olderThan d nm - 1 := by
  rw [olderThan, others_makeRoom d hnm]
  have hsorted := others_sorted d nm
  cases hlist : others d nm with
  | nil =>
      rw [olderThan, hlist, List.drop_nil]
      rfl
  | cons x xs =>
      rw [hlist, List.pairwise_cons] at hsorted
      by_cases hx : x < nm
      · have hpos : olderThan d nm = xs.countP (fun n => decide (n < nm)) + 1 := by
          rw [olderThan, hlist, List.countP_cons_of_pos (by simpa using hx)]
        rw [if_neg (by omega), hpos]
        rfl
      · have hzero : (x :: xs).countP (fun n => decide (n < nm)) = 0 := by
          rw [List.countP_eq_zero]
          intro n hn h
          have hlt : n < nm := of_decide_eq_true h
          rcases List.mem_cons.mp hn with rfl | hn
          · exact hx hlt
          · exact hx ((hsorted.1 n hn).trans hlt)
        have hall : olderThan d nm = 0 := by rw [olderThan, hlist, hzero]
        rw [hall]
        have hdrop := ((List.drop_sublist
          (if (d.read? nm).isSome = true ∧ 0 = 0 then 0 else 1) (x :: xs)).countP_le
            (p := fun n => decide (n < nm)))
        omega

/-! ## Several retries -/

/-- The flash before copy number `k`, all copies before it having failed. -/
def attempted (nm : FileName) (v : α) : (Nat → Copy) → Nat → Flash α → Flash α
  | _, 0, d => d
  | copies, k + 1, d =>
      attempted nm v (fun i => copies (i + 1)) k (makeRoom (cp d nm v (copies 0)) nm)

/-- After copy number `i` something is under the name `nm`: the copy left it, or it
was there before the first copy. -/
def present (d : Flash α) (nm : FileName) (copies : Nat → Copy) (i : Nat) : Bool :=
  (copies i).leaves || (i == 0 && (d.read? nm).isSome)

/-- How many of the other sets `k` retries take, of which `c` are older than `nm`:
a retry spares them when it follows the first `c` and finds `nm`. -/
def taken (there : Nat → Bool) (c k : Nat) : Nat :=
  (List.range k).countP fun i => decide (i < c) || !there i

theorem taken_succ (there : Nat → Bool) (c k : Nat) :
    taken there c (k + 1) =
      (if there 0 = true ∧ c = 0 then 0 else 1) + taken (fun i => there (i + 1)) (c - 1) k := by
  rw [taken, taken, List.range_succ_eq_map, List.countP_cons, List.countP_map, Nat.add_comm]
  congr 1
  · cases there 0 with
    | true => by_cases hc : c = 0 <;> simp [hc, Nat.pos_iff_ne_zero]
    | false => simp
  · refine List.countP_congr fun i _ => ?_
    have hlt : i + 1 < c ↔ i < c - 1 := by omega
    simp [hlt]

/-- The sets other than `nm` that `k` retries leave. -/
def survivors (d : Flash α) (nm : FileName) (copies : Nat → Copy) (k : Nat) : List FileName :=
  (others d nm).drop (taken (present d nm copies) (olderThan d nm) k)

/-- **The other sets after `k` retries.** -/
theorem others_attempted {nm : FileName} (hnm : isTgz nm = true) (v : α) (k : Nat)
    (copies : Nat → Copy) (d : Flash α) :
    others (attempted nm v copies k d) nm = survivors d nm copies k := by
  induction k generalizing copies d with
  | zero => rfl
  | succ k ih =>
      have hnow : (((cp d nm v (copies 0)).read? nm).isSome = true) =
          (present d nm copies 0 = true) := by
        rw [isSome_read?_cp, present, Bool.or_comm]
        simp
      have hlater : present (makeRoom (cp d nm v (copies 0)) nm) nm (fun i => copies (i + 1)) =
          fun i => present d nm copies (i + 1) := by
        funext i
        rw [present, present, read?_makeRoom, if_pos (.inl rfl)]
        simp
      have hsame : olderThan (cp d nm v (copies 0)) nm = olderThan d nm := by
        rw [olderThan, olderThan, others_cp]
      rw [attempted, ih, survivors, survivors, hlater, olderThan_makeRoom _ hnm,
        others_makeRoom _ hnm, others_cp, List.drop_drop, taken_succ, hsame]
      simp only [hnow]

/-- The retries remove sets `set_*.tgz` and change no other file than `nm`. -/
theorem read?_attempted_cases {nm n : FileName} (hn : n ≠ nm) (v : α) (k : Nat)
    (copies : Nat → Copy) (d : Flash α) :
    (attempted nm v copies k d).read? n = d.read? n ∨
      (attempted nm v copies k d).read? n = none ∧ isTgz n = true := by
  induction k generalizing copies d with
  | zero => exact .inl rfl
  | succ k ih =>
      rw [attempted]
      have hone : (makeRoom (cp d nm v (copies 0)) nm).read? n = d.read? n ∨
          (makeRoom (cp d nm v (copies 0)) nm).read? n = none ∧ isTgz n = true := by
        rw [read?_makeRoom, read?_cp_of_ne hn]
        by_cases hhead : ((cp d nm v (copies 0)).ls isTgz).head? = some n
        · have hlisted := List.mem_of_head? hhead
          rw [Directory.mem_ls] at hlisted
          exact .inr ⟨if_pos (.inr hhead), hlisted.2⟩
        · exact .inl (if_neg fun h => h.elim hn hhead)
      rcases ih (fun i => copies (i + 1)) (makeRoom (cp d nm v (copies 0)) nm) with h | h
      · rw [h]
        exact hone
      · exact .inr h

/-- **The flash after `k` retries**, but for `nm`. -/
theorem read?_attempted {nm n : FileName} (hnm : isTgz nm = true) (hn : n ≠ nm) (v : α) (k : Nat)
    (copies : Nat → Copy) (d : Flash α) :
    (attempted nm v copies k d).read? n =
      if isTgz n = true ∧ n ∉ survivors d nm copies k then none else d.read? n := by
  have hmem := mem_others (attempted nm v copies k d) nm n
  rw [others_attempted hnm] at hmem
  rcases read?_attempted_cases hn v k copies d with h | ⟨h, htgz⟩
  · rw [h] at hmem ⊢
    by_cases hgone : isTgz n = true ∧ n ∉ survivors d nm copies k
    · rw [if_pos hgone]
      cases hread : d.read? n with
      | none => rfl
      | some c => exact absurd (hmem.mpr ⟨⟨by rw [hread]; rfl, hgone.1⟩, hn⟩) hgone.2
    · rw [if_neg hgone]
  · rw [h] at hmem ⊢
    rw [if_pos ⟨htgz, fun hsurvives => nomatch (hmem.mp hsurvives).1.1⟩]

/-- After a retry the new set is not there. -/
theorem read?_attempted_self (nm : FileName) (v : α) (k : Nat) (copies : Nat → Copy)
    (d : Flash α) : (attempted nm v copies (k + 1) d).read? nm = none := by
  induction k generalizing copies d with
  | zero => rw [attempted, attempted, read?_makeRoom, if_pos (.inl rfl)]
  | succ k ih =>
      rw [attempted]
      exact ih _ _

/-! ## The loop -/

/-- Copy number `k` is the first that succeeds. -/
def FirstOk (copies : Nat → Copy) (k : Nat) : Prop :=
  copies k = .ok ∧ ∀ j < k, copies j ≠ .ok

/-- A loop with a copy that succeeds ends with it. -/
theorem copyLoop_of_firstOk (nm : FileName) (v : α) {cnt k : Nat} (hk : k ≤ cnt)
    (copies : Nat → Copy) (hfirst : FirstOk copies k) (d : Flash α) :
    copyLoop nm v cnt copies d = ((attempted nm v copies k d).put nm (.complete v), true) := by
  obtain ⟨hok, hfail⟩ := hfirst
  induction cnt generalizing k copies d with
  | zero =>
      obtain rfl : k = 0 := by omega
      rw [copyLoop, hok, decide_eq_true rfl]
      rfl
  | succ cnt ih =>
      cases k with
      | zero =>
          rw [copyLoop, if_pos hok, hok]
          rfl
      | succ k =>
          rw [copyLoop, if_neg (hfail 0 (by omega))]
          exact ih (by omega) (fun i => copies (i + 1)) _ hok
            (fun j hj => hfail (j + 1) (by omega))

/-- A loop in which every copy fails. -/
theorem copyLoop_of_fail (nm : FileName) (v : α) {cnt : Nat} (copies : Nat → Copy)
    (hfail : ∀ k ≤ cnt, copies k ≠ .ok) (d : Flash α) :
    copyLoop nm v cnt copies d = (cp (attempted nm v copies cnt d) nm v (copies cnt), false) := by
  induction cnt generalizing copies d with
  | zero => rw [copyLoop, decide_eq_false (hfail 0 (by omega)), attempted]
  | succ cnt ih =>
      rw [copyLoop, if_neg (hfail 0 (by omega))]
      exact ih (fun i => copies (i + 1)) (fun k hk => hfail (k + 1) (by omega)) _

/-- Either some copy succeeds first, or all fail. -/
theorem firstOk_or_fail (copies : Nat → Copy) (cnt : Nat) :
    (∃ k ≤ cnt, FirstOk copies k) ∨ ∀ k ≤ cnt, copies k ≠ .ok := by
  by_cases h : ∃ k, k ≤ cnt ∧ copies k = .ok
  · refine .inl ⟨Nat.find h, (Nat.find_spec h).1, (Nat.find_spec h).2, ?_⟩
    intro j hj hok
    exact Nat.find_min h hj ⟨by have := (Nat.find_spec h).1; omega, hok⟩
  · exact .inr fun k hk hok => h ⟨k, hk, hok⟩

end AltF.Settings
