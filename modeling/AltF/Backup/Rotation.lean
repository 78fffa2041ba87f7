/-
  Backup/Rotation.lean --- `do_backup` and `clean_logs` of the backup script, on the folder of
  one backup.

  `clean_logs` counts all folders, of which `mirror` is one that FTP and HTTP backups leave in
  it, and removes dated ones only: beside a mirror it keeps one too few.
-/
import AltF.Foundation.FixedWidth
import AltF.Foundation.Runs
import AltF.SysFiles.Lines
import AltF.SysFiles.Patterns

set_option autoImplicit false

namespace AltF.Backup

open AltF.Foundation AltF.SysFiles

/-! ## Dates -/

/-- A reading of the clock, as `date` prints it. -/
structure Stamp where
  year : Fin 10000
  month : Fin 100
  day : Fin 100
  hour : Fin 100
  minute : Fin 100
  second : Fin 100
  deriving DecidableEq, Repr

namespace Stamp

/-- `date "+%Y-%m-%d_%H-%M-%S"` -/
def name (s : Stamp) : Text :=
  fixedDigits 4 s.year ++ '-' :: (fixedDigits 2 s.month ++ '-' :: (fixedDigits 2 s.day ++ '_' ::
    (fixedDigits 2 s.hour ++ '-' :: (fixedDigits 2 s.minute ++ '-' :: fixedDigits 2 s.second))))

/-- One reading is before another. -/
def Before (s t : Stamp) : Prop :=
  s.year.val < t.year ∨ s.year.val = t.year ∧ (s.month.val < t.month ∨ s.month.val = t.month ∧
    (s.day.val < t.day ∨ s.day.val = t.day ∧ (s.hour.val < t.hour ∨ s.hour.val = t.hour ∧
      (s.minute.val < t.minute ∨ s.minute.val = t.minute ∧ s.second.val < t.second))))

instance (s t : Stamp) : Decidable (s.Before t) := inferInstanceAs (Decidable (_ ∨ _))

/-- **The names are in the order of the readings.** -/
theorem name_lt_iff (s t : Stamp) : s.name < t.name ↔ s.Before t := by
  have hlast := fixedDigits_append_lt (k := 2) s.second.isLt t.second.isLt [] []
  have hsame : ∀ {c : Char} {l l' : Text}, c :: l < c :: l' ↔ l < l' := by
    intro c l l'
    rw [List.cons_lt_cons_iff]
    simp
  simp only [List.append_nil, List.lt_irrefl, and_false, or_false] at hlast
  unfold name Before
  rw [fixedDigits_append_lt s.year.isLt t.year.isLt, hsame,
    fixedDigits_append_lt s.month.isLt t.month.isLt, hsame,
    fixedDigits_append_lt s.day.isLt t.day.isLt, hsame,
    fixedDigits_append_lt s.hour.isLt t.hour.isLt, hsame,
    fixedDigits_append_lt s.minute.isLt t.minute.isLt, hsame, hlast]

end Stamp

/-- `grep '^....-..-.._..-..-..$'` -/
def datedName (n : Text) : Bool :=
  dotPrefix "....-..-.._..-..-..".toList n && n.length == "....-..-.._..-..-..".toList.length

theorem datedName_name (s : Stamp) : datedName s.name = true := by
  have h4 : ∀ n, ∃ a b c d, fixedDigits 4 n = [a, b, c, d] := fun n => ⟨_, _, _, _, rfl⟩
  have h2 : ∀ n, ∃ a b, fixedDigits 2 n = [a, b] := fun n => ⟨_, _, rfl⟩
  obtain ⟨y₁, y₂, y₃, y₄, hy⟩ := h4 s.year
  obtain ⟨m₁, m₂, hm⟩ := h2 s.month
  obtain ⟨d₁, d₂, hd⟩ := h2 s.day
  obtain ⟨h₁, h₂, hh⟩ := h2 s.hour
  obtain ⟨n₁, n₂, hn⟩ := h2 s.minute
  obtain ⟨s₁, s₂, hs⟩ := h2 s.second
  rw [Stamp.name, hy, hm, hd, hh, hn, hs]
  rfl

theorem name_length (s : Stamp) : s.name.length = 19 := by
  simp [Stamp.name]

/-! ## The folder of a backup -/

/-- `type` -/
inductive BackupType where
  | dir
  | nfs
  | cifs
  | ftp
  | http
  | rsync
  deriving DecidableEq, Repr

/-- `ftp_http_backup` is called. -/
def BackupType.mirrors : BackupType → Bool
  | .ftp => true
  | .http => true
  | _ => false

/-- `$destname` -/
structure Folder where
  /-- the dated folders -/
  dated : List Stamp
  /-- the log files of dated folders -/
  logs : List Stamp
  /-- the folder `mirror` is there -/
  mirror : Bool
  /-- where the link `current` leads -/
  current : Option Stamp
  deriving DecidableEq, Repr

namespace Folder

/-- Nothing has been backed up. -/
def empty : Folder := ⟨[], [], false, none⟩

/-- `ls` -/
def ls (x : Folder) : List Text :=
  TextFile.sortLines (x.dated.map Stamp.name ++ (x.logs.map fun s => s.name ++ ".log".toList) ++
    (if x.mirror then ["mirror".toList] else []) ++
    if x.current.isSome then ["current".toList] else [])

/-- `find -maxdepth 1 -type d | wc -l`: the folder itself is the first. -/
def countDirs (x : Folder) : Nat := 1 + x.dated.length + if x.mirror then 1 else 0

/-- `ls | grep '^....-..-.._..-..-..$' | head -1` -/
def last (x : Folder) : Text := (x.ls.filter datedName).headD []

/-- `rm -rf "$last" "${last}.log"` -/
def rmLast (x : Folder) : Folder :=
  { x with dated := x.dated.filter fun s => s.name ≠ x.last
           logs := x.logs.filter fun s => s.name ++ ".log".toList ≠ x.last ++ ".log".toList }

end Folder

/-- The loop of `clean_logs`, by the value of `clogs`. -/
def cleanLoop (nlogs : Nat) : Nat → Folder → Folder
  | 0, x => x
  | clogs + 1, x => if clogs > nlogs then cleanLoop nlogs clogs x.rmLast else x

/-- `clean_logs`; `ddname` is never set, and the script is in `$destname`. -/
def cleanLogs (nlogs : Nat) (x : Folder) : Folder := cleanLoop nlogs x.countDirs x

/-- A backup: what the configuration says of it, the clock, and whether rsync writes its log. -/
structure Job where
  type : BackupType
  nlogs : Nat
  date : Stamp
  logged : Bool
  deriving DecidableEq, Repr

/-- `do_backup` -/
def doBackup (j : Job) (x : Folder) : Folder :=
  let x := { x with dated := if x.dated.contains j.date then x.dated else x.dated ++ [j.date] }
  let rsync := j.type == .rsync || (x.current.map fun s => x.dated.contains s).getD false
  let x := { x with logs := if rsync && j.logged && !x.logs.contains j.date then
                       x.logs ++ [j.date] else x.logs
                    current := some j.date }
  if j.nlogs > 0 then cleanLogs j.nlogs x else x

/-- What happens to the folder. -/
inductive Attempt where
  /-- `do_backup` is reached -/
  | backup (j : Job)
  /-- FTP or HTTP, and `wget` fails; `rmdir` removes an empty mirror -/
  | noMirror (empty : Bool)
  deriving DecidableEq, Repr

/-- One call of the script. -/
def Folder.step (x : Folder) : Attempt → Folder
  | .backup j => doBackup j { x with mirror := x.mirror || j.type.mirrors }
  | .noMirror empty => { x with mirror := !empty }

/-! ## What is kept -/

/-- The clock is later than when the dated folders were made. -/
def Later (x : Folder) : Attempt → Prop
  | .backup j => ∀ s ∈ x.dated, s.Before j.date
  | .noMirror _ => True

/-- The backup is there, and of the dated folders with it the newest `nlogs`. -/
def KeepsNewest (x : Folder) : Attempt → Prop
  | .backup j => 0 < j.nlogs →
      j.date ∈ (x.step (.backup j)).dated ∧
        (x.step (.backup j)).dated =
          (x.dated ++ [j.date]).drop ((x.dated ++ [j.date]).length - j.nlogs)
  | .noMirror _ => True

/-- There is no mirror, or fewer folders than may be kept. -/
def NoMirrorCounted (x : Folder) : Attempt → Prop
  | .backup j => 0 < j.nlogs →
      x.mirror = false ∧ j.type.mirrors = false ∨ x.dated.length + 2 ≤ j.nlogs
  | .noMirror _ => True

instance (x : Folder) : (e : Attempt) → Decidable (Later x e)
  | .backup _ => inferInstanceAs (Decidable (∀ _ ∈ _, _))
  | .noMirror _ => isTrue trivial

instance (x : Folder) : (e : Attempt) → Decidable (KeepsNewest x e)
  | .backup _ => inferInstanceAs (Decidable (_ → _ ∧ _))
  | .noMirror _ => isTrue trivial

instance (x : Folder) : (e : Attempt) → Decidable (NoMirrorCounted x e)
  | .backup _ => inferInstanceAs (Decidable (_ → _ ∨ _))
  | .noMirror _ => isTrue trivial

/-- The dated folders stand in their order. -/
def Folder.InOrder (x : Folder) : Prop := x.dated.Pairwise Stamp.Before

section Clean

variable {x : Folder}

/-- Of the names in the folder, those of the dated folders are listed. -/
theorem filter_ls (hx : x.InOrder) : x.ls.filter datedName = x.dated.map Stamp.name := by
  have hdated : (x.dated.map Stamp.name).filter datedName = x.dated.map Stamp.name := by
    rw [List.filter_eq_self]
    intro n hn
    obtain ⟨s, -, rfl⟩ := List.mem_map.mp hn
    exact datedName_name s
  have hlogs : (x.logs.map fun s => s.name ++ ".log".toList).filter datedName = [] := by
    rw [List.filter_eq_nil_iff]
    intro n hn
    obtain ⟨s, -, rfl⟩ := List.mem_map.mp hn
    simp [datedName, name_length]
  have hmirror : (if x.mirror then ["mirror".toList] else []).filter datedName = [] := by
    split <;> decide
  have hcurrent : (if x.current.isSome then ["current".toList] else []).filter datedName = [] := by
    split <;> decide
  rw [Folder.ls, TextFile.filter_sortLines, List.filter_append, List.filter_append,
    List.filter_append, hdated, hlogs, hmirror, hcurrent, List.append_nil, List.append_nil,
    List.append_nil, TextFile.sortLines_eq_self_iff, List.pairwise_map]
  exact hx.imp fun {s t} h => (Stamp.name_lt_iff s t).mpr h

/-- **The oldest folder is removed**, if there is one. -/
theorem rmLast_dated (hx : x.InOrder) : x.rmLast.dated = x.dated.tail := by
  have hlast : x.last = (x.dated.map Stamp.name).headD [] := by rw [Folder.last, filter_ls hx]
  cases hdated : x.dated with
  | nil => rw [Folder.rmLast, hdated]; rfl
  | cons s rest =>
      rw [hdated] at hlast
      have hfirst : x.last = s.name := hlast
      have hrest : ∀ t ∈ rest, s.Before t := by
        have hpairwise := hx
        rw [Folder.InOrder, hdated, List.pairwise_cons] at hpairwise
        exact hpairwise.1
      have hkept : rest.filter (fun t => decide (t.name ≠ s.name)) = rest := by
        rw [List.filter_eq_self]
        intro t ht
        rw [decide_eq_true_eq]
        exact ((Stamp.name_lt_iff s t).mpr (hrest t ht)).ne'
      rw [Folder.rmLast, hfirst, hdated]
      dsimp only
      rw [List.filter_cons_of_neg (by simp), List.tail_cons]
      exact hkept

theorem rmLast_inOrder (hx : x.InOrder) : x.rmLast.InOrder := by
  rw [Folder.InOrder, rmLast_dated hx]
  exact hx.sublist (List.tail_sublist _)

/-- **`clean_logs`** removes the oldest folders, as many as its count is above `nlogs`. -/
theorem cleanLoop_dated (nlogs : Nat) {clogs : Nat} (hx : x.InOrder) :
    (cleanLoop nlogs clogs x).dated = x.dated.drop (clogs - 1 - nlogs) := by
  induction clogs generalizing x with
  | zero => rw [cleanLoop, Nat.zero_sub, List.drop_zero]
  | succ clogs ih =>
      rw [cleanLoop]
      split
      · next h =>
          have hcount : clogs + 1 - 1 - nlogs = (clogs - 1 - nlogs) + 1 := by omega
          rw [ih (rmLast_inOrder hx), rmLast_dated hx, hcount, List.drop_tail]
      · next h =>
          have hcount : clogs + 1 - 1 - nlogs = 0 := by omega
          rw [hcount, List.drop_zero]

end Clean

/-! ## Runs -/

section Step

variable {x : Folder} {j : Job}

/-- A new dated folder is the last of them. -/
theorem inOrder_concat (hx : x.InOrder) (hlater : Later x (.backup j)) :
    (x.dated ++ [j.date]).Pairwise Stamp.Before := by
  rw [List.pairwise_append]
  refine ⟨hx, List.pairwise_singleton _ _, fun s hs t ht => ?_⟩
  rw [List.mem_singleton.mp ht]
  exact hlater s hs

theorem not_mem_dated (hlater : Later x (.backup j)) : j.date ∉ x.dated := by
  intro hmem
  have hself := hlater j.date hmem
  simp [Stamp.Before] at hself

/-- **What a backup leaves of the dated folders**: a mirror counts as one of them. -/
theorem step_dated (hx : x.InOrder) (hlater : Later x (.backup j)) :
    (x.step (.backup j)).dated =
      (x.dated ++ [j.date]).drop
        (if 0 < j.nlogs then
          (x.dated ++ [j.date]).length + (if x.mirror || j.type.mirrors then 1 else 0) - j.nlogs
        else 0) := by
  have hnew : (x.dated.contains j.date) = false := by
    simpa using not_mem_dated hlater
  have horder := inOrder_concat hx hlater
  rw [Folder.step, doBackup]
  simp only [hnew, Bool.false_eq_true, if_false, gt_iff_lt]
  split
  · rw [cleanLogs, cleanLoop_dated]
    · congr 1
      simp only [Folder.countDirs]
      omega
    · exact horder
  · rfl

theorem step_inOrder {e : Attempt} (hx : x.InOrder) (hlater : Later x e) : (x.step e).InOrder := by
  cases e with
  | backup j =>
      rw [Folder.InOrder, step_dated hx hlater]
      exact (inOrder_concat hx hlater).sublist (List.drop_sublist _ _)
  | noMirror empty => exact hx

/-- One backup keeps what it should exactly if no mirror is counted, or nothing is removed. -/
theorem keepsNewest_iff {e : Attempt} (hx : x.InOrder) (hlater : Later x e) :
    KeepsNewest x e ↔ NoMirrorCounted x e := by
  cases e with
  | noMirror empty => exact Iff.rfl
  | backup j =>
      refine forall_congr' fun hpos => ?_
      have hlength : (x.dated ++ [j.date]).length = x.dated.length + 1 := by simp
      rw [step_dated hx hlater, if_pos hpos, hlength]
      constructor
      · rintro ⟨-, hsame⟩
        by_contra hnot
        obtain ⟨hmirror, hmany⟩ :
            (x.mirror || j.type.mirrors) = true ∧ j.nlogs < x.dated.length + 2 := by
          rw [not_or, not_and_or, Nat.not_le] at hnot
          refine ⟨?_, hnot.2⟩
          rcases hnot.1 with h | h
          · simp [Bool.eq_true_of_not_eq_false h]
          · simp [Bool.eq_true_of_not_eq_false h]
        have hcount := congrArg List.length hsame
        rw [hmirror, if_pos rfl, List.length_drop, List.length_drop, hlength] at hcount
        omega
      · intro h
        have hdrop : x.dated.length + 1 + (if x.mirror || j.type.mirrors then 1 else 0) - j.nlogs =
            x.dated.length + 1 - j.nlogs := by
          rcases h with ⟨hmirror, htype⟩ | hroom
          · simp [hmirror, htype]
          · split <;> omega
        rw [hdrop]
        refine ⟨?_, rfl⟩
        rw [List.drop_append_of_le_length (by omega)]
        exact List.mem_append_right _ (List.mem_singleton_self _)

end Step

/-- **Rotation**: over every run with a clock that goes forward, each backup keeps itself and the
newest `nlogs` folders exactly if at each no mirror is counted, or there is room for it. -/
theorem rotation_iff (es : List Attempt) (hclock : Along Folder.step Later .empty es) :
    Along Folder.step KeepsNewest .empty es ↔ Along Folder.step NoMirrorCounted .empty es := by
  have hboth : Along Folder.step (fun x e => Later x e ∧ KeepsNewest x e) .empty es ↔
      Along Folder.step (fun x e => Later x e ∧ NoMirrorCounted x e) .empty es :=
    along_congr_of_kept Folder.InOrder
      (fun x e hx => and_congr_right fun hlater => keepsNewest_iff hx hlater)
      (fun x e hx h => step_inOrder hx h.1) List.Pairwise.nil
  constructor
  · intro h
    exact (hboth.mp (hclock.and h)).mono fun x e h => h.2
  · intro h
    exact (hboth.mpr (hclock.and h)).mono fun x e h => h.2

/-- Three backups of a folder, of which two may be kept. -/
def folderBackups : List Attempt :=
  [.backup ⟨.dir, 2, ⟨2024, 1, 31, 4, 0, 0⟩, true⟩, .backup ⟨.dir, 2, ⟨2024, 2, 1, 4, 0, 0⟩, true⟩,
    .backup ⟨.dir, 2, ⟨2024, 2, 2, 4, 0, 0⟩, true⟩]

theorem rotation_folderBackups : Along Folder.step KeepsNewest .empty folderBackups :=
  (rotation_iff folderBackups (by decide)).mpr (by decide)

/-- The first backup by FTP, of one that may be kept, is removed at once. -/
theorem rotation_removes_new :
    ¬ ∀ es : List Attempt, Along Folder.step Later .empty es →
      Along Folder.step KeepsNewest .empty es := by
  intro h
  have hkeeps := (h [.backup ⟨.ftp, 1, ⟨2024, 1, 31, 4, 0, 0⟩, true⟩] (by decide)).1
  have horder : Folder.InOrder .empty := List.Pairwise.nil
  have hcounted := (keepsNewest_iff horder (by decide)).mp hkeeps
  revert hcounted
  decide

end AltF.Backup
