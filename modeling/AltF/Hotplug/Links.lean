/-
  Hotplug/Links.lean --- the links /home, /Public, /Backup, /opt and /ffp: hot_aux.sh makes them
  when a filesystem is mounted that has such a folder, and `remove_partition` of hot.sh removes
  them, but for /opt, in front of its umount.

  A link is left alone as long as its folder is there; one without a folder is in the way of
  `ln -s`, which fails.  The filesystems here have no Alt-F folder: / is not a union.
-/
import Mathlib.Data.List.Nodup
import Mathlib.Logic.Function.Basic
import AltF.Foundation.Runs
import AltF.SysFiles.Text

set_option autoImplicit false

namespace AltF.Hotplug.Links

open AltF.Foundation AltF.SysFiles

/-! ## The scripts -/

/-- The folders of a filesystem that get a link: Users, Public, Backup, opt and ffp. -/
inductive Folder where
  | users | shared | backup | opt | ffp
  deriving DecidableEq, Repr

/-- A filesystem on /mnt/$lbl, with its folders. -/
structure Mounted where
  dev : Text
  lbl : Text
  folders : List Folder
  deriving DecidableEq, Repr

/-- The filesystems that are mounted, and the label that each link leads to. -/
structure Box where
  mounts : List Mounted
  link : Folder → Option Text

inductive Event where
  /-- hot_aux.sh for a device; `ok`: without `noauto` in `mopts`, and its `mount` succeeds -/
  | mount (m : Mounted) (ok : Bool)
  /-- `remove_partition` for a device; `ok`: its `umount -lr` succeeds -/
  | unmount (dev : Text) (ok : Bool)
  deriving DecidableEq, Repr

namespace Box

variable (s : Box)

/-- `test -h $link -a -d "$(readlink -f $link)"` -/
def live (k : Folder) : Bool :=
  (s.link k).any fun l => s.mounts.any fun m => m.lbl = l && k ∈ m.folders

def setLink (k : Folder) (l : Option Text) : Box := { s with link := Function.update s.link k l }

/-- `ln -s` -/
def linkNew (k : Folder) (l : Text) : Box :=
  match s.link k with
  | none => s.setLink k (some l)
  | some _ => s

/-- The lines of hot_aux.sh for a folder. -/
def linkFolder (m : Mounted) (k : Folder) : Box :=
  if k ∈ m.folders ∧ s.live k = false then s.linkNew k m.lbl else s

/-- hot_aux.sh: `grep -q "^/dev/$MDEV" /proc/mounts` of `check`, `mountpoint -q /mnt/$lbl`, and
what follows. -/
def mount (m : Mounted) (ok : Bool) : Box :=
  if s.mounts.any (fun n => m.dev.isPrefixOf n.dev || n.lbl = m.lbl) || !ok then s
  else
    [Folder.users, .shared, .backup, .opt, .ffp].foldl (fun s k => linkFolder s m k)
      { s with mounts := s.mounts ++ [m] }

/-- `if test "$(readlink -f $link)" = "$mpt/..."; then rm -f $link; fi` -/
def unlink (m : Mounted) (k : Folder) : Box :=
  if s.link k = some m.lbl then s.setLink k none else s

/-- `remove_partition`, for a device in /proc/mounts -/
def removePartition (m : Mounted) (ok : Bool) : Box :=
  let s := [Folder.ffp, .users, .shared, .backup].foldl (fun s k => unlink s m k) s
  if ok then { s with mounts := s.mounts.filter fun n => n.dev ≠ m.dev } else s

def step : Event → Box
  | .mount m ok => s.mount m ok
  | .unmount dev ok =>
      match s.mounts.find? fun m => m.dev = dev with
      | none => s
      | some m => s.removePartition m ok

end Box

def Box.boot : Box := ⟨[], fun _ => none⟩

/-! ## One link -/

namespace Box

variable {s : Box} {m : Mounted} {k : Folder} {l : Text}

@[simp] theorem mounts_setLink (k : Folder) (l : Option Text) :
    (s.setLink k l).mounts = s.mounts := rfl

theorem link_setLink (k j : Folder) (l : Option Text) :
    (s.setLink k l).link j = if j = k then l else s.link j := by
  unfold setLink
  exact Function.update_apply s.link k l j

theorem linkFolder_cases (s : Box) (m : Mounted) (k : Folder) :
    s.linkFolder m k = s ∨
      s.link k = none ∧ k ∈ m.folders ∧ s.linkFolder m k = s.setLink k (some m.lbl) := by
  unfold linkFolder
  split
  · rename_i hmissing
    unfold linkNew
    split
    · rename_i hnone
      exact .inr ⟨hnone, hmissing.1, rfl⟩
    · exact .inl rfl
  · exact .inl rfl

/-- A link stays as long as nothing removes it: `ln -s` does not replace a link. -/
theorem link_linkFolder (j : Folder) (h : s.link k = some l) :
    (s.linkFolder m j).link k = some l := by
  rcases linkFolder_cases s m j with hsame | ⟨hnone, -, hset⟩
  · rw [hsame]
    exact h
  · have hne : k ≠ j := fun heq => by rw [heq, hnone] at h; exact nomatch h
    rw [hset, link_setLink, if_neg hne]
    exact h

theorem mounts_unlink (s : Box) (m : Mounted) (k : Folder) : (s.unlink m k).mounts = s.mounts := by
  unfold unlink
  split <;> rfl

theorem link_unlink (s : Box) (m : Mounted) (j k : Folder) :
    (s.unlink m j).link k = if k = j ∧ s.link k = some m.lbl then none else s.link k := by
  unfold unlink
  by_cases hlink : s.link j = some m.lbl
  · rw [if_pos hlink, link_setLink]
    by_cases heq : k = j
    · rw [if_pos heq, if_pos ⟨heq, heq ▸ hlink⟩]
    · rw [if_neg heq, if_neg fun h => heq h.1]
  · rw [if_neg hlink, if_neg fun hboth : k = j ∧ _ => hlink (hboth.1 ▸ hboth.2)]

/-- The links that an unmount removes. -/
theorem foldl_unlink (s : Box) (m : Mounted) (ks : List Folder) :
    (ks.foldl (fun s k => unlink s m k) s).mounts = s.mounts ∧
      ∀ k, (ks.foldl (fun s k => unlink s m k) s).link k =
        if k ∈ ks ∧ s.link k = some m.lbl then none else s.link k := by
  induction ks generalizing s with
  | nil => exact ⟨rfl, fun k => by simp⟩
  | cons j ks ih =>
      obtain ⟨hmounts, hlink⟩ := ih (unlink s m j)
      refine ⟨hmounts.trans (mounts_unlink s m j), fun k => ?_⟩
      rw [List.foldl_cons, hlink k, link_unlink]
      by_cases hheld : s.link k = some m.lbl
      · by_cases heq : k = j <;> by_cases hmem : k ∈ ks <;> simp [hheld, heq, hmem]
      · simp [hheld]

/-! ## All of them -/

/-- No link but /opt dangles. -/
structure Inv (s : Box) : Prop where
  devs : (s.mounts.map Mounted.dev).Nodup
  leads : ∀ k l, k ≠ .opt → s.link k = some l → ∃ m ∈ s.mounts, m.lbl = l ∧ k ∈ m.folders

theorem inv_boot : Inv boot := ⟨List.nodup_nil, fun _ _ _ h => nomatch h⟩

theorem Inv.linkFolder (h : Inv s) (hm : m ∈ s.mounts) (k : Folder) :
    Inv (s.linkFolder m k) ∧ m ∈ (s.linkFolder m k).mounts := by
  rcases linkFolder_cases s m k with hsame | ⟨-, hfolder, hset⟩
  · rw [hsame]
    exact ⟨h, hm⟩
  · rw [hset]
    refine ⟨⟨h.devs, fun j l hj hl => ?_⟩, hm⟩
    rw [link_setLink] at hl
    by_cases heq : j = k
    · rw [if_pos heq] at hl
      exact ⟨m, hm, Option.some.inj hl, heq ▸ hfolder⟩
    · rw [if_neg heq] at hl
      exact h.leads j l hj hl

theorem Inv.mount (h : Inv s) (m : Mounted) (ok : Bool) : Inv (s.mount m ok) := by
  unfold Box.mount
  split
  · exact h
  · rename_i hgoes
    rw [Bool.or_eq_true, not_or, Bool.not_eq_true, List.any_eq_false] at hgoes
    have hnew : m.dev ∉ s.mounts.map Mounted.dev := by
      intro hmem
      obtain ⟨n, hn, hdev⟩ := List.mem_map.mp hmem
      exact hgoes.1 n hn (by simp [hdev])
    have hmounted : Inv { s with mounts := s.mounts ++ [m] } := by
      refine ⟨?_, fun k l hk hl => ?_⟩
      · rw [List.map_append, List.map_singleton]
        exact List.nodup_append_comm.mp (List.nodup_cons.mpr ⟨hnew, h.devs⟩)
      · obtain ⟨n, hn, hlbl, hfolder⟩ := h.leads k l hk hl
        exact ⟨n, List.mem_append_left _ hn, hlbl, hfolder⟩
    have hall : ∀ (ks : List Folder) (t : Box), Inv t → m ∈ t.mounts →
        Inv (ks.foldl (fun s k => Box.linkFolder s m k) t) := by
      intro ks
      induction ks with
      | nil => exact fun t ht _ => ht
      | cons k ks ih =>
          intro t ht hm
          obtain ⟨hkept, hstill⟩ := ht.linkFolder hm k
          exact ih _ hkept hstill
    exact hall _ _ hmounted (List.mem_append_right _ (List.mem_singleton_self m))

theorem Inv.removePartition (h : Inv s) (hm : m ∈ s.mounts) (ok : Bool) :
    Inv (s.removePartition m ok) := by
  obtain ⟨hmounts, hlink⟩ := foldl_unlink s m [Folder.ffp, .users, .shared, .backup]
  -- what still has a link is on another filesystem
  have hother : ∀ k l, k ≠ Folder.opt →
      ([Folder.ffp, .users, .shared, .backup].foldl (fun s k => unlink s m k) s).link k = some l →
      ∃ n ∈ s.mounts, n.dev ≠ m.dev ∧ n.lbl = l ∧ k ∈ n.folders := by
    intro k l hk hl
    rw [hlink] at hl
    have hlisted : k ∈ [Folder.ffp, .users, .shared, .backup] := by
      cases k <;> first | exact absurd rfl hk | decide
    by_cases hheld : s.link k = some m.lbl
    · rw [if_pos ⟨hlisted, hheld⟩] at hl
      exact nomatch hl
    · rw [if_neg fun hboth => hheld hboth.2] at hl
      obtain ⟨n, hn, hlbl, hfolder⟩ := h.leads k l hk hl
      refine ⟨n, hn, fun hdev => ?_, hlbl, hfolder⟩
      have hsame : n = m := List.inj_on_of_nodup_map h.devs hn hm hdev
      exact hheld (by rw [hl, ← hlbl, hsame])
  unfold Box.removePartition
  cases ok with
  | false =>
      refine ⟨hmounts ▸ h.devs, fun k l hk hl => ?_⟩
      obtain ⟨n, hn, -, hlbl, hfolder⟩ := hother k l hk hl
      exact ⟨n, hmounts ▸ hn, hlbl, hfolder⟩
  | true =>
      refine ⟨?_, fun k l hk hl => ?_⟩
      · refine List.Nodup.sublist (List.Sublist.map _ List.filter_sublist) ?_
        rw [hmounts]
        exact h.devs
      · obtain ⟨n, hn, hdev, hlbl, hfolder⟩ := hother k l hk hl
        refine ⟨n, List.mem_filter.mpr ⟨hmounts ▸ hn, ?_⟩, hlbl, hfolder⟩
        exact decide_eq_true hdev

theorem inv_step (s : Box) (e : Event) (h : Inv s) : Inv (s.step e) := by
  cases e with
  | mount m ok => exact h.mount m ok
  | unmount dev ok =>
      unfold step
      dsimp only
      split
      · exact h
      · rename_i m hfound
        exact h.removePartition (List.mem_of_find?_eq_some hfound) ok

/-- Nothing replaces or removes /opt. -/
theorem opt_step (s : Box) (e : Event) (h : s.link .opt = some l) :
    (s.step e).link .opt = some l := by
  cases e with
  | mount m ok =>
      change (s.mount m ok).link .opt = some l
      unfold mount
      split
      · exact h
      · have hall : ∀ (ks : List Folder) (t : Box), t.link .opt = some l →
            (ks.foldl (fun s k => linkFolder s m k) t).link .opt = some l := by
          intro ks
          induction ks with
          | nil => exact fun _ ht => ht
          | cons k ks ih => exact fun t ht => ih _ (link_linkFolder k ht)
        exact hall _ _ h
  | unmount dev ok =>
      unfold step
      dsimp only
      split
      · exact h
      · rename_i m _
        obtain ⟨-, hlink⟩ := foldl_unlink s m [Folder.ffp, .users, .shared, .backup]
        have hkept := (hlink .opt).trans (if_neg fun hboth => absurd hboth.1 (by decide))
        unfold removePartition
        cases ok <;> exact hkept.trans h

end Box

end AltF.Hotplug.Links
