/-
  Settings/UserFiles.lean --- the crontab and the network mounts of a settings set.

  createdef saves the lines of the crontab that are not Alt-F's own and the mounts
  of a network type.  loadflashdef joins them with what the box has and sorts the
  lot, unless the box has no crontab.
-/
import Mathlib.Data.List.Infix
import AltF.SysFiles.Lines

set_option autoImplicit false

namespace AltF.Settings

open AltF.SysFiles

/-! ## Saving -/

/-- The mark of Alt-F's own lines in a crontab. -/
def marker : Text := "#!# Alt-F cron".toList

/-- `/#!# Alt-F cron/`: the line is one of Alt-F's own. -/
def altfCron (l : Text) : Bool := marker <:+: l

/-- The fields `awk` makes of a line. -/
def fields (l : Text) : List Text :=
  (l.splitOnP fun c => c = ' ' || c = '\t').filter (· ≠ [])

/-- `$3 == "nfs"`, `"cifs"` or `"davfs"`. -/
def netMount (l : Text) : Bool :=
  match (fields l)[2]? with
  | none => false
  | some type => type = "nfs".toList || type = "cifs".toList || type = "davfs".toList

/-- The two files that createdef makes for the archive. -/
structure SpecialFiles where
  /-- `/tmp/xfstab` -/
  xfstab : TextFile
  /-- `/tmp/ucron` -/
  ucron : TextFile
  deriving DecidableEq, Repr

/-- The part of `createdef` for the special cases.  Without a crontab `sed` prints
nothing. -/
def createdef (crontab : Option TextFile) (fstab : TextFile) : SpecialFiles where
  xfstab := fstab.awkPrint netMount
  ucron := (crontab.getD ⟨[], []⟩).sedDelete altfCron

/-! ## Loading -/

/-- The special cases of `loadflashdef`: the crontab and the fstab of a box with the
ones given, once the archive is unpacked. -/
def loadSpecial (x : SpecialFiles) (crontab : Option TextFile) (fstab : TextFile) :
    TextFile × TextFile :=
  (match crontab with
    | some own => (x.ucron.cat own).sortUnique
    | none => x.ucron,
    (x.xfstab.cat fstab).sortUnique)

/-- The user's lines of a crontab. -/
def userLines (crontab : TextFile) : List Text := crontab.lines.filter fun l => !altfCron l

/-- The network mounts of an fstab. -/
def netLines (fstab : TextFile) : List Text := fstab.lines.filter netMount

theorem lines_ucron (crontab fstab : TextFile) :
    (createdef (some crontab) fstab).ucron.lines = userLines crontab :=
  crontab.lines_sedDelete

/-- The lines of the saved file are all the user's. -/
theorem userLines_ucron (crontab fstab : TextFile) :
    userLines (createdef (some crontab) fstab).ucron = userLines crontab := by
  rw [userLines, lines_ucron, userLines, List.filter_filter]
  simp only [Bool.and_self]

/-- What is appended to one of Alt-F's lines leaves it one. -/
theorem altfCron_append (a : Text) {l : Text} (h : altfCron l = true) :
    altfCron (a ++ l) = true := by
  have hinfix : marker <:+: l := of_decide_eq_true h
  have hall : marker <:+: a ++ l := hinfix.trans (List.suffix_append a l).isInfix
  exact decide_eq_true hall

/-! ## Round trip -/

/-- The box gives the crontab back: it has none of its own, or the user's lines are
in order without repetition and the saved file does not run into Alt-F's lines. -/
def CronReturns (crontab : TextFile) (box : Option TextFile) : Prop :=
  ∀ own, box = some own → (userLines crontab).Pairwise (· < ·) ∧
    ((crontab.rest = [] ∨ altfCron crontab.rest = true) ∨ own.lines = [])

/-- The user's lines of a crontab that is sorted. -/
theorem userLines_sortUnique (f : TextFile) :
    userLines f.sortUnique = TextFile.sortLines (userLines f) := by
  rw [userLines, TextFile.lines_sortUnique, TextFile.filter_sortLines, userLines]

/-- Lines that are all Alt-F's own leave none of the user's. -/
theorem filter_user_eq_nil {ls : List Text} (h : ∀ l ∈ ls, altfCron l = true) :
    ls.filter (fun l => !altfCron l) = [] := by
  rw [List.filter_eq_nil_iff]
  intro l hl
  rw [h l hl]
  exact nofun

/-- The saved crontab ends with a newline, unless the user's last line has none. -/
theorem ucron_rest_iff (crontab fstab : TextFile) :
    (createdef (some crontab) fstab).ucron.rest = [] ↔
      crontab.rest = [] ∨ altfCron crontab.rest = true := by
  change (if altfCron crontab.rest = true then [] else crontab.rest) = [] ↔ _
  by_cases h : altfCron crontab.rest = true
  · rw [if_pos h]
    exact ⟨fun _ => .inr h, fun _ => rfl⟩
  · rw [if_neg h]
    exact ⟨.inl, fun hor => hor.resolve_right h⟩

/-- The user's lines of the crontabs joined: all of them, unless the last of the
saved ones runs into a line of Alt-F's. -/
theorem userLines_cat {u own : TextFile} (huser : userLines u = u.lines)
    (hown : ∀ l ∈ own.lines, altfCron l = true) :
    userLines (u.cat own) =
      if u.rest = [] ∨ own.lines = [] then u.lines else u.full.filter fun l => !altfCron l := by
  cases hlines : own.lines with
  | nil =>
      rw [if_pos (.inr rfl), userLines, TextFile.lines_cat_of_empty u hlines, ← userLines, huser]
  | cons l ls =>
      rw [hlines] at hown
      by_cases hrest : u.rest = []
      · rw [if_pos (.inl hrest), userLines, TextFile.lines_cat_of_terminated hrest, hlines,
          List.filter_append, filter_user_eq_nil hown, List.append_nil, ← userLines, huser]
      · have hjoined : ∀ l' ∈ (u.rest ++ l) :: ls, altfCron l' = true := by
          intro l' hl'
          rcases List.mem_cons.mp hl' with rfl | hl'
          · exact altfCron_append u.rest (hown l List.mem_cons_self)
          · exact hown l' (List.mem_cons_of_mem l hl')
        rw [if_neg (fun h => h.elim hrest nofun), userLines, TextFile.lines_cat_of_cons u hlines,
          List.filter_append, filter_user_eq_nil hjoined, List.append_nil]

/-- **The user's crontab lines** come back on a box whose crontab is Alt-F's own. -/
theorem userLines_loaded_iff (crontab fstab : TextFile) (box : Option TextFile) (fstab' : TextFile)
    (hbox : ∀ own, box = some own → ∀ l ∈ own.lines, altfCron l = true) :
    userLines (loadSpecial (createdef (some crontab) fstab) box fstab').1 = userLines crontab ↔
      CronReturns crontab box := by
  have huser := userLines_ucron crontab fstab
  have hlines := lines_ucron crontab fstab
  have hends := ucron_rest_iff crontab fstab
  generalize (createdef (some crontab) fstab) = x at huser hlines hends ⊢
  cases box with
  | none => exact ⟨fun _ => nofun, fun _ => huser⟩
  | some own =>
      have hcat := userLines_cat (huser.trans hlines.symm) (hbox own rfl)
      have hloaded : userLines (loadSpecial x (some own) fstab').1 =
          TextFile.sortLines (userLines (x.ucron.cat own)) := userLines_sortUnique _
      rw [hloaded, hcat]
      by_cases hsafe : x.ucron.rest = [] ∨ own.lines = []
      · rw [if_pos hsafe, hlines, TextFile.sortLines_eq_self_iff]
        constructor
        · intro hsorted own' heq
          cases heq
          exact ⟨hsorted, hsafe.imp_left hends.mp⟩
        · exact fun h => (h own rfl).1
      · rw [if_neg hsafe]
        constructor
        · -- A line is missing, so the result is too short.
          intro h
          have hlen := congrArg List.length h
          have hle := (TextFile.length_sortLines_le
            (x.ucron.full.filter fun l => !altfCron l)).trans (List.length_filter_le _ _)
          have hfull : x.ucron.lines = x.ucron.full ++ [x.ucron.rest] :=
            if_neg fun hrest => hsafe (.inl hrest)
          rw [← hlines, hfull, List.length_append, List.length_singleton] at hlen
          omega
        · exact fun h => absurd ((h own rfl).2.imp_left hends.mpr) hsafe

/-- **The network mounts** come back on a box whose fstab has none. -/
theorem netLines_loaded_iff (crontab box : Option TextFile) (fstab fstab' : TextFile)
    (hbox : ∀ l ∈ fstab'.lines, netMount l = false) :
    netLines (loadSpecial (createdef crontab fstab) box fstab').2 = netLines fstab ↔
      (netLines fstab).Pairwise (· < ·) := by
  have hnone : fstab'.lines.filter netMount = [] := by
    rw [List.filter_eq_nil_iff]
    intro l hl
    rw [hbox l hl]
    exact nofun
  have hloaded : netLines (loadSpecial (createdef crontab fstab) box fstab').2 =
      TextFile.sortLines (netLines fstab) := by
    change (TextFile.sortUnique _).lines.filter netMount = _
    rw [TextFile.lines_sortUnique, TextFile.filter_sortLines,
      TextFile.lines_cat_of_terminated rfl, List.filter_append, hnone, List.append_nil]
    change TextFile.sortLines ((fstab.lines.filter netMount).filter netMount) = _
    rw [List.filter_filter, netLines]
    simp only [Bool.and_self]
  rw [hloaded, TextFile.sortLines_eq_self_iff]

/-- **Saving and loading** gives the user's crontab lines and the network mounts back
if and only if the box has no crontab or the crontab lines are sorted and do not run
into the next file, and the network mounts are sorted. -/
theorem special_files_return_iff (crontab fstab : TextFile) (box : Option TextFile)
    (fstab' : TextFile) (hcron : ∀ own, box = some own → ∀ l ∈ own.lines, altfCron l = true)
    (hfstab : ∀ l ∈ fstab'.lines, netMount l = false) :
    let loaded := loadSpecial (createdef (some crontab) fstab) box fstab'
    (userLines loaded.1 = userLines crontab ∧ netLines loaded.2 = netLines fstab) ↔
      CronReturns crontab box ∧ (netLines fstab).Pairwise (· < ·) :=
  and_congr (userLines_loaded_iff crontab fstab box fstab' hcron)
    (netLines_loaded_iff (some crontab) box fstab fstab' hfstab)

/-- A crontab that sets a variable for its command. -/
def orderedCron : TextFile := ⟨["PATH=/bin".toList, "0 1 * * * a".toList], []⟩

/-- Alt-F's own crontab and fstab of a box. -/
def ownCron : TextFile := ⟨["0 5 * * * b #!# Alt-F cron".toList], []⟩

def ownFstab : TextFile := ⟨["/dev/sda1 /mnt/sda1 ext4 defaults 0 0".toList], []⟩

theorem ownCron_marked : ∀ own, some ownCron = some own → ∀ l ∈ own.lines, altfCron l = true := by
  intro own heq
  cases heq
  decide

/-- A crontab in the order of its characters comes back. -/
theorem special_files_return_sorted :
    let crontab : TextFile := ⟨["# mine".toList, "0 1 * * * a".toList], []⟩
    let loaded := loadSpecial (createdef (some crontab) ownFstab) (some ownCron) ownFstab
    (userLines loaded.1 = userLines crontab ∧ netLines loaded.2 = netLines ownFstab) ↔
      CronReturns crontab (some ownCron) ∧ (netLines ownFstab).Pairwise (· < ·) :=
  special_files_return_iff ⟨["# mine".toList, "0 1 * * * a".toList], []⟩ ownFstab (some ownCron)
    ownFstab ownCron_marked (by decide)

/-- **A crontab comes back in another order**: the variable stands behind the command
it was set for. -/
theorem special_files_reordered :
    let loaded := loadSpecial (createdef (some orderedCron) ownFstab) (some ownCron) ownFstab
    (∀ l ∈ ownCron.lines, altfCron l = true) ∧ (∀ l ∈ ownFstab.lines, netMount l = false) ∧
      userLines loaded.1 = ["0 1 * * * a".toList, "PATH=/bin".toList] ∧
      userLines orderedCron = ["PATH=/bin".toList, "0 1 * * * a".toList] := by
  decide +kernel

end AltF.Settings
