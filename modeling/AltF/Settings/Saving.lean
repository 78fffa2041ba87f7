/-
  Settings/Saving.lean --- what loadflashdef finds after saveflashdef.

  The loader takes the last name and does not fall back, so what it loads is told
  by two things: which old sets the retries leave, and whether anything of the new
  set stays under a later name.
-/
import AltF.Foundation.Runs
import AltF.Settings.Retries

set_option autoImplicit false

namespace AltF.Settings

open AltF.Foundation

variable {α : Type}

/-! ## Loading -/

/-- **The loader** loads the greatest name of a set, if that is complete. -/
theorem loadflashdef_eq_loaded_iff (d : Flash α) (m : FileName) (w : α) :
    loadflashdef d = .loaded m w ↔
      d.read? m = some (.complete w) ∧ isSet m = true ∧
        ∀ n, isSet n = true → (d.read? n).isSome = true → n ≤ m := by
  have hlast : ∀ x, (d.ls isSet).getLast? = some x ↔
      ((d.read? x).isSome = true ∧ isSet x = true) ∧
        ∀ n, isSet n = true → (d.read? n).isSome = true → n ≤ x := by
    intro x
    rw [Directory.getLast?_ls_eq_some_iff, Directory.mem_ls]
    refine and_congr_right fun _ => forall_congr' fun n => ?_
    rw [Directory.mem_ls]
    exact ⟨fun h hs hp => h ⟨hp, hs⟩, fun h hn => h hn.2 hn.1⟩
  rw [loadflashdef]
  constructor
  · intro h
    split at h
    · cases h
    · rename_i last hget
      obtain ⟨⟨-, hset⟩, hle⟩ := (hlast last).mp hget
      split at h
      · cases h
      · cases h
      · cases h
      · rename_i v hread
        cases h
        exact ⟨hread, hset, hle⟩
  · intro h
    obtain ⟨hread, hset, hle⟩ := h
    have hget := (hlast m).mpr ⟨⟨by rw [hread]; rfl, hset⟩, hle⟩
    rw [hget]
    simp only [hread]

/-- The last of the sets `set_*.tgz` stays when old ones are removed. -/
theorem exists_le_prune (d : Flash α) {n : FileName} (hn : n ∈ d.ls isTgz) :
    ∃ x ∈ (prune d).ls isTgz, n ≤ x := by
  have hpos : 0 < (d.ls isTgz).length := List.length_pos_of_mem hn
  cases hlast : (d.ls isTgz).getLast? with
  | none =>
      rw [List.getLast?_eq_none_iff] at hlast
      rw [hlast] at hn
      cases hn
  | some x =>
      obtain ⟨-, hle⟩ := (Directory.getLast?_ls_eq_some_iff d isTgz x).mp hlast
      refine ⟨x, ?_, hle n hn⟩
      rw [prune, Directory.ls_rm_take]
      refine List.mem_of_getLast? ?_
      rw [List.getLast?_drop, if_neg (by omega), hlast]

/-- A set that is not among the first is not removed. -/
theorem read?_prune (d : Flash α) (n : FileName) :
    (prune d).read? n = d.read? n ∨ (prune d).read? n = none ∧ n ∈ d.ls isTgz := by
  rw [prune, Directory.read?_rm]
  by_cases h : n ∈ (d.ls isTgz).take ((d.ls isTgz).length - 10)
  · rw [if_pos h]
    exact .inr ⟨rfl, List.mem_of_mem_take h⟩
  · rw [if_neg h]
    exact .inl rfl

/-- **Removing all but the last 10 does not change what is loaded.** -/
theorem loadflashdef_prune (d : Flash α) (m : FileName) (w : α) :
    loadflashdef (prune d) = .loaded m w ↔ loadflashdef d = .loaded m w := by
  rw [loadflashdef_eq_loaded_iff, loadflashdef_eq_loaded_iff]
  constructor
  · rintro ⟨hread, hset, hle⟩
    refine ⟨?_, hset, ?_⟩
    · rcases read?_prune d m with h | h
      · rw [← h, hread]
      · rw [h.1] at hread
        cases hread
    · intro n hn hpresent
      rcases read?_prune d n with h | h
      · exact hle n hn (by rw [h, hpresent])
      · obtain ⟨x, hx, hnx⟩ := exists_le_prune d h.2
        rw [Directory.mem_ls] at hx
        exact hnx.trans (hle x (isSet_of_isTgz hx.2) hx.1)
  · rintro ⟨hread, hset, hle⟩
    refine ⟨?_, hset, ?_⟩
    · rcases read?_prune d m with h | h
      · rw [h, hread]
      · -- The greatest name cannot have been removed.
        obtain ⟨x, hx, hmx⟩ := exists_le_prune d h.2
        have hx' := (Directory.mem_ls _ _ _).mp hx
        have hpresent : (d.read? x).isSome = true := by
          rcases read?_prune d x with hsame | hgone
          · rw [← hsame, hx'.1]
          · rw [hgone.1] at hx'
            cases hx'.1
        obtain rfl := le_antisymm hmx (hle x (isSet_of_isTgz hx'.2) hpresent)
        rw [h.1] at hx'
        cases hx'.1
    · intro n hn hpresent
      rcases read?_prune d n with h | h
      · exact hle n hn (by rw [← h, hpresent])
      · rw [h.1] at hpresent
        cases hpresent

/-- At most 10 sets stay. -/
theorem length_ls_prune (d : Flash α) : ((prune d).ls isTgz).length ≤ 10 := by
  rw [prune, Directory.ls_rm_take, List.length_drop]
  omega

/-! ## After a failed save -/

/-- The set `m` with the settings `w` is complete, and no complete set has a later
name. -/
structure NewestComplete (d : Flash α) (m : FileName) (w : α) : Prop where
  read : d.read? m = some (.complete w)
  set : isSet m = true
  newest : ∀ n x, isSet n = true → d.read? n = some (.complete x) → n ≤ m

/-- A set other than `nm` that is there before the save and not taken by `k` retries. -/
structure Stays (d : Flash α) (nm : FileName) (copies : Nat → Copy) (k : Nat) (n : FileName) :
    Prop where
  set : isSet n = true
  there : (d.read? n).isSome = true
  ne : n ≠ nm
  survives : isTgz n = true → n ∈ survivors d nm copies k

/-- The sets other than `nm` on the flash after `k` retries. -/
theorem stays_iff {d : Flash α} {nm n : FileName} (hnm : isTgz nm = true) (v : α) (k : Nat)
    (copies : Nat → Copy) (hset : isSet n = true) (hn : n ≠ nm) :
    Stays d nm copies k n ↔ ((attempted nm v copies k d).read? n).isSome = true := by
  rw [read?_attempted hnm hn]
  by_cases hgone : isTgz n = true ∧ n ∉ survivors d nm copies k
  · rw [if_pos hgone]
    exact ⟨fun h => absurd (h.survives hgone.1) hgone.2, nofun⟩
  · rw [if_neg hgone]
    refine ⟨fun h => h.there, fun h => ⟨hset, h, hn, ?_⟩⟩
    intro htgz
    by_contra hgone'
    exact hgone ⟨htgz, hgone'⟩

/-- The set `m` outlasts the retries of a save as `nm`, and nothing with a later
name does: no other set, and nothing that the last copy left. -/
structure Outlasts (d : Flash α) (nm : FileName) (copies : Nat → Copy) (m : FileName) : Prop where
  stays : Stays d nm copies 5 m
  last : ∀ n, Stays d nm copies 5 n → n ≤ m
  left : (copies 5).leaves = true → nm ≤ m

/-- **After a save that ended with its error** the newest set that was complete is
loaded if and only if it outlasts the retries. -/
theorem failed_save_loads_iff (d : Flash α) (dt : FileName) (v : α) (copies : Nat → Copy)
    (hfailed : (saveflashdef d dt v copies).2 = false) (m : FileName) (w : α)
    (hnewest : NewestComplete d m w) :
    loadflashdef (saveflashdef d dt v copies).1 = .loaded m w ↔
      Outlasts d (setName dt) copies m := by
  have hnm := isTgz_setName dt
  have hfail : ∀ k ≤ 5, copies k ≠ .ok := by
    rcases firstOk_or_fail copies 5 with ⟨k, hk, hfirst⟩ | hfail
    · rw [saveflashdef, copyLoop_of_firstOk _ v hk copies hfirst] at hfailed
      cases hfailed
    · exact hfail
  rw [saveflashdef, copyLoop_of_fail _ v copies hfail, loadflashdef_prune,
    loadflashdef_eq_loaded_iff]
  have hself : ((cp (attempted (setName dt) v copies 5 d) (setName dt) v
      (copies 5)).read? (setName dt)).isSome = (copies 5).leaves := by
    rw [isSome_read?_cp, read?_attempted_self]
    rfl
  have hother : ∀ n, n ≠ setName dt → isSet n = true → (Stays d (setName dt) copies 5 n ↔
      ((cp (attempted (setName dt) v copies 5 d) (setName dt) v
        (copies 5)).read? n).isSome = true) := by
    intro n hn hset
    rw [read?_cp_of_ne hn, stays_iff hnm v 5 copies hset hn]
  constructor
  · intro h
    obtain ⟨hread, hset, hle⟩ := h
    have hne : m ≠ setName dt := by
      rintro rfl
      -- Under the new name there is nothing, or what a failed copy left.
      cases hlast : copies 5 with
      | ok => exact hfail 5 (by omega) hlast
      | notOpened =>
          rw [hlast, cp, read?_attempted_self] at hread
          cases hread
      | left b =>
          rw [hlast, cp, Directory.read?_put, if_pos rfl] at hread
          cases hread
    refine ⟨(hother m hne hset).mpr (by rw [hread]; rfl), ?_, ?_⟩
    · intro n hn
      exact hle n hn.set ((hother n hn.ne hn.set).mp hn)
    · intro hleft
      exact hle _ (isSet_of_isTgz hnm) (by rw [hself, hleft])
  · intro h
    have hne := h.stays.ne
    refine ⟨?_, hnewest.set, ?_⟩
    · have hthere := (hother m hne hnewest.set).mp h.stays
      rw [read?_cp_of_ne hne] at hthere ⊢
      rcases read?_attempted_cases hne v 5 copies d with hsame | hgone
      · rw [hsame, hnewest.read]
      · rw [hgone.1] at hthere
        cases hthere
    · intro n hset hthere
      by_cases hn : n = setName dt
      · subst hn
        exact h.left (by rw [← hself, hthere])
      · exact h.last n ((hother n hn hset).mpr hthere)

/-- A clock in January, and in February. -/
def january : FileName := ⟨"2020-01-01_00:00:00".toList, by decide⟩

def february : FileName := ⟨"2020-02-01_00:00:00".toList, by decide⟩

/-- One set on the flash, complete. -/
def oneSet (dt : FileName) : Flash Nat :=
  ⟨[(setName dt, .complete 1)], List.pairwise_singleton _ _⟩

theorem newestComplete_oneSet (dt : FileName) : NewestComplete (oneSet dt) (setName dt) 1 where
  read := by simp [oneSet, Directory.read?]
  set := isSet_of_isTgz (isTgz_setName dt)
  newest := by
    intro n x _ hread
    by_cases hn : setName dt = n
    · exact hn.ge
    · simp [oneSet, Directory.read?, hn] at hread

/-- A failed save under an earlier name spares the later set. -/
theorem failed_save_loads_earlier :
    loadflashdef (saveflashdef (oneSet february) january 2 fun _ => .left .damaged).1 =
        .loaded (setName february) 1 ↔
      Outlasts (oneSet february) (setName january) (fun _ => .left .damaged) (setName february) :=
  failed_save_loads_iff (oneSet february) january 2 (fun _ => .left .damaged) (by decide +kernel)
    (setName february) 1 (newestComplete_oneSet february)

/-- **A failed save loses the only set**, which is removed before the new one is
tried again. -/
theorem failed_save_loses :
    (saveflashdef (oneSet january) february 2 fun _ => .left .damaged).2 = false ∧
      NewestComplete (oneSet january) (setName january) 1 ∧
      loadflashdef (saveflashdef (oneSet january) february 2 fun _ => .left .damaged).1 =
        .invalid (setName february) :=
  ⟨by decide +kernel, newestComplete_oneSet january, by decide +kernel⟩

/-! ## After a save -/

/-- At most 10 sets are kept, the new one is among them, and it is loaded. -/
structure SavedAndLoaded (d : Flash α) (nm : FileName) (v : α) : Prop where
  atMost : (d.ls isTgz).length ≤ 10
  kept : d.read? nm = some (.complete v)
  loaded : loadflashdef d = .loaded nm v

/-- **After a save** the new set is kept and loaded if and only if no other set with
a later name stays on the flash. -/
theorem save_loads_iff (d : Flash α) (dt : FileName) (v : α) {copies : Nat → Copy} {k : Nat}
    (hk : k ≤ 5) (hfirst : FirstOk copies k) :
    SavedAndLoaded (saveflashdef d dt v copies).1 (setName dt) v ↔
      ∀ n, Stays d (setName dt) copies k n → n ≤ setName dt := by
  have hnm := isTgz_setName dt
  have hload : loadflashdef (saveflashdef d dt v copies).1 = .loaded (setName dt) v ↔
      ∀ n, Stays d (setName dt) copies k n → n ≤ setName dt := by
    rw [saveflashdef, copyLoop_of_firstOk _ v hk copies hfirst, loadflashdef_prune,
      loadflashdef_eq_loaded_iff]
    constructor
    · intro h n hn
      refine h.2.2 n hn.set ?_
      rw [Directory.read?_put, if_neg hn.ne]
      exact (stays_iff hnm v k copies hn.set hn.ne).mp hn
    · intro h
      refine ⟨by rw [Directory.read?_put, if_pos rfl], isSet_of_isTgz hnm, ?_⟩
      intro n hset hthere
      by_cases hn : n = setName dt
      · exact hn.le
      · rw [Directory.read?_put, if_neg hn] at hthere
        exact h n ((stays_iff hnm v k copies hset hn).mpr hthere)
  constructor
  · exact fun h => hload.mp h.loaded
  · intro h
    have hloaded := hload.mpr h
    refine ⟨length_ls_prune _, ?_, hloaded⟩
    exact ((loadflashdef_eq_loaded_iff _ _ _).mp hloaded).1

/-- One call of saveflashdef: the clock, the settings, and what becomes of its copies. -/
structure Save (α : Type) where
  dt : FileName
  v : α
  copies : Nat → Copy

/-- The flash after a call. -/
def save (d : Flash α) (s : Save α) : Flash α := (saveflashdef d s.dt s.v s.copies).1

/-- If the call succeeds, what it saved is kept and loaded. -/
def LoadsSaved (d : Flash α) (s : Save α) : Prop :=
  (saveflashdef d s.dt s.v s.copies).2 = true → SavedAndLoaded (save d s) (setName s.dt) s.v

/-- If a copy of the call succeeds, no other set with a later name stays till then. -/
def NoneLater (d : Flash α) (s : Save α) : Prop :=
  ∀ k ≤ 5, FirstOk s.copies k → ∀ n, Stays d (setName s.dt) s.copies k n → n ≤ setName s.dt

theorem loadsSaved_iff (d : Flash α) (s : Save α) : LoadsSaved d s ↔ NoneLater d s := by
  rw [LoadsSaved, NoneLater]
  rcases firstOk_or_fail s.copies 5 with ⟨k, hk, hfirst⟩ | hfail
  · have hok : (saveflashdef d s.dt s.v s.copies).2 = true := by
      rw [saveflashdef, copyLoop_of_firstOk _ s.v hk s.copies hfirst]
    have honly : ∀ k' ≤ 5, FirstOk s.copies k' → k' = k := by
      intro k' _ hfirst'
      rcases lt_trichotomy k' k with hlt | heq | hgt
      · exact absurd hfirst'.1 (hfirst.2 k' hlt)
      · exact heq
      · exact absurd hfirst.1 (hfirst'.2 k hgt)
    have hiff := save_loads_iff d s.dt s.v hk hfirst
    constructor
    · intro h k' hk' hfirst'
      rw [honly k' hk' hfirst']
      exact hiff.mp (h hok)
    · intro h _
      exact hiff.mpr (h k hk hfirst)
  · have hfailed : (saveflashdef d s.dt s.v s.copies).2 = false := by
      rw [saveflashdef, copyLoop_of_fail _ s.v s.copies hfail]
    constructor
    · exact fun _ k hk hfirst => absurd hfirst.1 (hfail k hk)
    · intro _ hok
      rw [hfailed] at hok
      cases hok

/-- **The settings saved last are the settings loaded**, after every successful save
of a sequence, if and only if none of them leaves a set with a later name. -/
theorem saved_along_iff (d : Flash α) (saves : List (Save α)) :
    Along save LoadsSaved d saves ↔ Along save NoneLater d saves :=
  along_congr (fun _ => True) (fun d s _ => loadsSaved_iff d s) (fun _ _ _ => trivial) trivial

/-- An empty flash. -/
def erased : Flash Nat := ⟨[], List.Pairwise.nil⟩

/-- A save in February. -/
def first : Save Nat := ⟨february, 1, fun _ => .ok⟩

/-- A save with the clock set back to January. -/
def second : Save Nat := ⟨january, 2, fun _ => .ok⟩

/-- **The second save is not what is loaded.** -/
theorem saved_not_loaded : ¬Along save LoadsSaved erased [first, second] := by
  intro h
  have hsecond : LoadsSaved (save erased first) second := h.2.1
  have hsaved : (saveflashdef (save erased first) second.dt second.v second.copies).2 = true := by
    decide +kernel
  have hfirst : loadflashdef (save (save erased first) second) = .loaded (setName february) 1 := by
    decide +kernel
  have hloaded := (hsecond hsaved).loaded
  rw [hfirst, Load.loaded.injEq] at hloaded
  exact absurd hloaded.2 (by decide)

end AltF.Settings
