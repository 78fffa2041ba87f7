/-
  Cgi/DirProc.lean --- dir_proc.cgi: the folder operations of the browse page, and which
  folders they touch.

  Of the three paths of a request one is tested, and only for the text it begins with.
-/
import AltF.Shell.Words
import AltF.SysFiles.Paths

set_option autoImplicit false

namespace AltF.Cgi.DirProc

open AltF.Shell AltF.SysFiles

/-! ## The surroundings -/

/-- The folder in which the script runs. -/
def cgiBin : List Text := ["usr".toList, "www".toList, "cgi-bin".toList]

/-- The folders that there are, and what `find_mp`, `du` and `df` tell of them. -/
structure Folders where
  dirs : List Text → Bool
  mountPoint : Text → Text
  size : Text → Nat
  free : Text → Nat

/-- `test -d p` -/
def Folders.isDir (fs : Folders) (cwd : List Text) (p : Text) : Bool :=
  !p.isEmpty && fs.dirs (resolve cwd p)

/-- The variables of a request: those that are tested with `-n`, and the decoded paths. -/
structure Request where
  newdir : Text
  srcdir : Text
  oldname : Text
  stop : Bool
  createDir : Bool
  renameDir : Bool
  deleteDir : Bool
  copy : Bool
  move : Bool
  copyContent : Bool
  permissions : Bool

/-! ## The script -/

/-- `s/^ *//;s/ *$//` -/
def trimLine (l : Text) : Text := (l.dropWhile (· = ' ')).rdropWhile (· = ' ')

/-- `$wdir` -/
def Request.wdir (r : Request) : Text :=
  commandSubst (['\n'].intercalate (((commandSubst r.newdir).splitOn '\n').map trimLine))

/-- `$bdir` -/
def Request.bdir (r : Request) : Text := dirname r.wdir

/-- `echo "$wdir" | grep -q '^/mnt'` -/
def startsInMnt (wdir : Text) : Bool := (wdir.splitOn '\n').any "/mnt".toList.isPrefixOf

/-- The commands that change folders. -/
inductive Command where
  | mkdir (dir : Text)
  | mv (src dst : Text)
  | rm (dir : Text)
  /-- `cp -a`, after a `cd` -/
  | cp (cwd : List Text) (src dst : Text)
  /-- `find ... -exec chown` and `chmod` -/
  | chown (dir : Text)
  deriving DecidableEq

/-- There is room for what is copied, or moved to another filesystem. -/
def Request.fits (fs : Folders) (r : Request) : Bool :=
  if (r.copy || r.copyContent) || fs.mountPoint r.srcdir != fs.mountPoint r.wdir then
    decide (fs.size r.srcdir ≤ fs.free (fs.mountPoint r.wdir))
  else true

section Operations

variable (fs : Folders) (r : Request)

/-- `CreateDir`; `none` where the script ends with a message. -/
def Request.createCommand : Option Command :=
  if fs.isDir cgiBin r.wdir then none
  else if fs.isDir cgiBin r.bdir then some (.mkdir r.wdir)
  else none

/-- `RenameDir` -/
def Request.renameCommand : Option Command :=
  if r.oldname = r.wdir then none
  else if fs.isDir cgiBin r.oldname = false then none
  else if fs.isDir cgiBin r.wdir then none
  else if fs.isDir cgiBin r.bdir = false then none
  else if r.bdir ≠ dirname r.oldname then none
  else some (.mv r.oldname r.wdir)

/-- `DeleteDir` -/
def Request.deleteCommand : Option Command :=
  if fs.isDir cgiBin r.wdir = false then none else some (.rm r.wdir)

/-- `Copy`, `Move` and `CopyContent` -/
def Request.transferCommand : Option Command :=
  if fs.isDir cgiBin r.srcdir = false then none
  else if fs.isDir cgiBin (r.wdir ++ '/' :: basename r.srcdir) && !r.copyContent then none
  else if r.fits fs = false then none
  else if r.copyContent then some (.cp (resolve cgiBin r.srcdir) dot r.wdir)
  else if r.copy then some (.cp (resolve cgiBin (dirname r.srcdir)) (basename r.srcdir) r.wdir)
  else some (.mv r.srcdir r.wdir)

/-- The command that a request runs. -/
def Request.command : Option Command :=
  if r.stop then none
  else if startsInMnt r.wdir = false then none
  else if r.createDir then r.createCommand fs
  else if r.renameDir then r.renameCommand fs
  else if r.deleteDir then r.deleteCommand fs
  else if r.copy || r.move || r.copyContent then r.transferCommand fs
  else if r.permissions then some (.chown r.wdir)
  else none

end Operations

/-! ## What a command touches -/

/-- Where `mv` and `cp` put a folder. -/
def Folders.target (fs : Folders) (cwd : List Text) (src dst : Text) : Text :=
  if fs.isDir cwd dst then dst ++ '/' :: basename src else dst

/-- The folders that are created, moved, overwritten, deleted, or change their owner. -/
def Command.touched (fs : Folders) : Command → List (List Text)
  | .mkdir dir => [resolve cgiBin dir]
  | .mv src dst => [resolve cgiBin src, resolve cgiBin (fs.target cgiBin src dst)]
  | .rm dir => [resolve cgiBin dir]
  | .cp cwd src dst => [resolve cwd (fs.target cwd src dst)]
  | .chown dir => if fs.isDir cgiBin dir then [resolve cgiBin dir] else []

/-- The folder is /mnt, or below. -/
def InMnt (folder : List Text) : Prop := folder.head? = some "mnt".toList

/-- A proper descendant of /mnt. -/
def BelowMnt (folder : List Text) : Prop := InMnt folder ∧ 2 ≤ folder.length

instance (folder : List Text) : Decidable (InMnt folder) :=
  inferInstanceAs (Decidable (_ = _))

instance (folder : List Text) : Decidable (BelowMnt folder) :=
  inferInstanceAs (Decidable (_ ∧ _))

/-- **Operations stay under /mnt.** -/
def Request.StaysBelow (fs : Folders) (r : Request) : Prop :=
  ∀ c ∈ r.command fs, ∀ folder ∈ c.touched fs, BelowMnt folder

/-! ## When they do -/

/-- Where a folder of a name is put: in /mnt or below, when it gets its name there. -/
def Folders.PutsBelow (fs : Folders) (cwd : List Text) (src dst : Text) : Prop :=
  if fs.isDir cwd dst = true ∧ IsPlainName (basename src) then InMnt (resolve cwd dst)
  else BelowMnt (resolve cwd (fs.target cwd src dst))

/-- The paths of `Copy`, `Move` and `CopyContent` lead where they should. -/
def Request.TransferConfined (fs : Folders) (r : Request) : Prop :=
  if r.copyContent then BelowMnt (resolve (resolve cgiBin r.srcdir) r.wdir)
  else if r.copy then
    fs.PutsBelow (resolve cgiBin (dirname r.srcdir)) (basename r.srcdir) r.wdir
  else BelowMnt (resolve cgiBin r.srcdir) ∧ fs.PutsBelow cgiBin r.srcdir r.wdir

/-- The paths of a request lead where its operation needs them. -/
def Request.Confined (fs : Folders) (r : Request) : Prop :=
  if r.createDir then BelowMnt (resolve cgiBin r.wdir)
  else if r.renameDir then
    BelowMnt (resolve cgiBin r.oldname) ∧ BelowMnt (resolve cgiBin r.wdir)
  else if r.deleteDir then BelowMnt (resolve cgiBin r.wdir)
  else if r.copy || r.move || r.copyContent then r.TransferConfined fs
  else fs.isDir cgiBin r.wdir = true → BelowMnt (resolve cgiBin r.wdir)

theorem belowMnt_append (folder : List Text) (c : Text) :
    BelowMnt (folder ++ [c]) ↔ InMnt folder := by
  cases folder with
  | nil => simp [BelowMnt, InMnt]
  | cons a folder => simp [BelowMnt, InMnt]

theorem ne_nil_of_isDir {fs : Folders} {cwd : List Text} {p : Text} (h : fs.isDir cwd p = true) :
    p ≠ [] := by
  intro hnil
  rw [Folders.isDir, Bool.and_eq_true, hnil] at h
  exact absurd h.1 (by decide)

theorem belowMnt_target (fs : Folders) (cwd : List Text) (src dst : Text) :
    BelowMnt (resolve cwd (fs.target cwd src dst)) ↔ fs.PutsBelow cwd src dst := by
  unfold Folders.PutsBelow
  split
  · rename_i hnamed
    obtain ⟨hdir, hname⟩ := hnamed
    rw [Folders.target, if_pos hdir, resolve_name cwd (ne_nil_of_isDir hdir) hname]
    exact belowMnt_append _ _
  · exact Iff.rfl

/-- `cp` of what is in the folder. -/
theorem resolve_target_dot (fs : Folders) (cwd : List Text) (dst : Text) :
    resolve cwd (fs.target cwd dot dst) = resolve cwd dst := by
  unfold Folders.target
  split
  · rename_i hdir
    exact resolve_dot cwd (ne_nil_of_isDir hdir)
  · rfl

section Touched

variable {fs : Folders} {r : Request} {c : Command}

/-- All that the command touches is below /mnt. -/
def Command.Below (fs : Folders) (c : Command) : Prop := ∀ folder ∈ c.touched fs, BelowMnt folder

theorem createCommand_below (h : r.createCommand fs = some c) :
    c.Below fs ↔ BelowMnt (resolve cgiBin r.wdir) := by
  unfold Request.createCommand at h
  split at h
  · cases h
  · split at h
    · cases h
      simp [Command.Below, Command.touched]
    · cases h

theorem renameCommand_below (h : r.renameCommand fs = some c) :
    c.Below fs ↔ BelowMnt (resolve cgiBin r.oldname) ∧ BelowMnt (resolve cgiBin r.wdir) := by
  unfold Request.renameCommand at h
  split at h
  · cases h
  split at h
  · cases h
  split at h
  · cases h
  rename_i hdst
  split at h
  · cases h
  split at h
  · cases h
  cases h
  simp [Command.Below, Command.touched, Folders.target, hdst]

theorem deleteCommand_below (h : r.deleteCommand fs = some c) :
    c.Below fs ↔ BelowMnt (resolve cgiBin r.wdir) := by
  unfold Request.deleteCommand at h
  split at h
  · cases h
  · cases h
    simp [Command.Below, Command.touched]

theorem transferCommand_below (h : r.transferCommand fs = some c) :
    c.Below fs ↔ r.TransferConfined fs := by
  unfold Request.transferCommand at h
  unfold Request.TransferConfined
  split at h
  · cases h
  split at h
  · cases h
  split at h
  · cases h
  split at h
  · rename_i hcontent
    cases h
    rw [if_pos hcontent]
    simp [Command.Below, Command.touched, resolve_target_dot]
  rename_i hcontent
  rw [if_neg hcontent]
  split at h
  · rename_i hcopy
    cases h
    rw [if_pos hcopy]
    simp [Command.Below, Command.touched, belowMnt_target]
  · rename_i hcopy
    cases h
    rw [if_neg hcopy]
    simp [Command.Below, Command.touched, belowMnt_target]

theorem Request.below_iff (h : r.command fs = some c) : c.Below fs ↔ r.Confined fs := by
  unfold command at h
  unfold Confined
  split at h
  · cases h
  split at h
  · cases h
  split at h
  · rename_i hcreate
    rw [if_pos hcreate]
    exact createCommand_below h
  rename_i hcreate
  rw [if_neg hcreate]
  split at h
  · rename_i hrename
    rw [if_pos hrename]
    exact renameCommand_below h
  rename_i hrename
  rw [if_neg hrename]
  split at h
  · rename_i hdelete
    rw [if_pos hdelete]
    exact deleteCommand_below h
  rename_i hdelete
  rw [if_neg hdelete]
  split at h
  · rename_i htransfer
    rw [if_pos htransfer]
    exact transferCommand_below h
  rename_i htransfer
  rw [if_neg htransfer]
  split at h
  · cases h
    unfold Command.Below Command.touched
    by_cases hdir : fs.isDir cgiBin r.wdir = true
    · simp [hdir]
    · simp [hdir]
  · cases h

end Touched

/-- **Folder operations stay under /mnt** exactly when the request is refused, or its paths
lead below /mnt. -/
theorem Request.staysBelow_iff (fs : Folders) (r : Request) :
    r.StaysBelow fs ↔ r.command fs = none ∨ r.Confined fs := by
  unfold StaysBelow
  cases hcommand : r.command fs with
  | none => simp
  | some c =>
      have htouched := r.below_iff hcommand
      unfold Command.Below at htouched
      simpa using htouched

/-- A path of names that begins with /mnt. -/
def IsMntPath (p : Text) : Prop :=
  ∃ names c, (∀ n ∈ names, IsPlainName n) ∧ IsPlainName c ∧
    p = ("mnt".toList :: names).flatMap ('/' :: ·) ++ '/' :: c

theorem IsMntPath.below {p : Text} (h : IsMntPath p) (cwd : List Text) :
    BelowMnt (resolve cwd p) := by
  obtain ⟨names, c, hnames, hc, rfl⟩ := h
  have hmnt : ∀ n ∈ "mnt".toList :: names, IsPlainName n := fun n hn => by
    rcases List.mem_cons.mp hn with heq | hn
    · rw [heq]
      decide
    · exact hnames n hn
  rw [resolve_name cwd (by simp) hc, resolve_names cwd (List.cons_ne_nil _ _) hmnt,
    belowMnt_append]
  rfl

theorem IsMntPath.basename {p : Text} (h : IsMntPath p) : IsPlainName (basename p) := by
  obtain ⟨names, c, -, hc, rfl⟩ := h
  rw [basename_append _ hc]
  exact hc

theorem IsMntPath.putsBelow {fs : Folders} {src dst : Text}
    (hsrc : IsPlainName (SysFiles.basename src)) (hdst : IsMntPath dst) (cwd : List Text) :
    fs.PutsBelow cwd src dst := by
  rw [← belowMnt_target]
  unfold Folders.target
  split
  · rename_i hdir
    rw [resolve_name cwd (ne_nil_of_isDir hdir) hsrc, belowMnt_append]
    exact (hdst.below cwd).1
  · exact hdst.below cwd

/-- Requests with paths of names are confined, whatever they ask for. -/
theorem Request.staysBelow_of_names (fs : Folders) (r : Request) (hnew : IsMntPath r.wdir)
    (hsrc : IsMntPath r.srcdir) (hold : IsMntPath r.oldname) : r.StaysBelow fs := by
  refine (r.staysBelow_iff fs).mpr (Or.inr ?_)
  have hbase := hsrc.basename
  unfold Confined TransferConfined
  split
  · exact hnew.below cgiBin
  split
  · exact ⟨hold.below cgiBin, hnew.below cgiBin⟩
  split
  · exact hnew.below cgiBin
  split
  · split
    · exact hnew.below _
    split
    · exact hnew.putsBelow (by rwa [basename_basename]) _
    · exact ⟨hsrc.below cgiBin, hnew.putsBelow hbase cgiBin⟩
  · exact fun _ => hnew.below cgiBin

/-- A system with /mnt and /etc. -/
def bareFolders : Folders where
  dirs f := f == [] || f == ["mnt".toList] || f == ["etc".toList]
  mountPoint _ := ['/']
  size _ := 0
  free _ := 0

/-- `DeleteDir` of /mnt/../etc. -/
def deleteEtc : Request where
  newdir := "/mnt/../etc".toList
  srcdir := []
  oldname := []
  stop := false
  createDir := false
  renameDir := false
  deleteDir := true
  copy := false
  move := false
  copyContent := false
  permissions := false

/-- **/etc is deleted.** -/
theorem deleteEtc_leaves : deleteEtc.command bareFolders = some (.rm "/mnt/../etc".toList) ∧
    ¬ deleteEtc.StaysBelow bareFolders := by
  have hcommand : deleteEtc.command bareFolders = some (.rm "/mnt/../etc".toList) := by
    decide +kernel
  refine ⟨hcommand, fun hstays => ?_⟩
  have hetc := hstays _ hcommand ["etc".toList] (by decide +kernel)
  exact absurd hetc (by decide +kernel)

end AltF.Cgi.DirProc
