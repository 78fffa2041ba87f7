/-
  Cgi/RmountProc.lean --- rmount_proc.cgi: the remote mounts of /etc/fstab.

  The lines of fstab are deleted and written again row by row, with a copy in /etc/fstab-
  that takes its place when a mount point is rejected.
-/
import AltF.Cgi.EtcFiles
import AltF.SysFiles.Paths

set_option autoImplicit false

namespace AltF.Cgi.Etc

open AltF.Shell AltF.SysFiles

/-! ## The script -/

/-- `\\(\\t\\| \\)word\\(\\t\\| \\)` -/
def hasWord (word l : Text) : Bool :=
  decide (' ' :: word ++ [' '] <:+: l) || decide (' ' :: word ++ ['\t'] <:+: l) ||
    decide ('\t' :: word ++ [' '] <:+: l) || decide ('\t' :: word ++ ['\t'] <:+: l)

/-- `path_escape` -/
def pathEscape (t : Text) : Text :=
  t.flatMap fun c => if c = ' ' then "\\040".toList else [c]

def nfsOptions : Text := "rw,hard,intr,proto=tcp,noauto".toList

def cifsOptions : Text :=
  ("rw,uid=root,gid=users,credentials=/etc/samba/credentials.root,vers=2.0," ++
    "iocharset=utf8,nounix,noserverino,noauto").toList

section Script

variable (tools : Tools) (f : Form)

/-- `cp $CONFT $CONFT-` -/
def backup : Page PUnit :=
  modifyGet fun (s : Files) => (⟨⟩, if s .fstab = none then s
    else Function.update s .fstabBackup (s .fstab))

/-- `mv $CONFT- $CONFT` -/
def restore : Page PUnit :=
  modifyGet fun (s : Files) => (⟨⟩, Function.update (Function.update s .fstab (s .fstabBackup))
    .fstabBackup none)

def notMnt (mp : Text) : Text := mp ++ " is not appropriape for a mount.".toList

/-- `mkmp`: with the message that there may be, and the copy, fstab is restored. -/
def Tools.mkmp (emsg mp : Text) : Page Text := do
  let emsg :=
    if tools.testNotMnt (expand tools.glob (dirname mp)) then notMnt mp else emsg
  let copied : Bool ← modifyGet fun (s : Files) => ((s .fstabBackup).isSome, s)
  if emsg ≠ [] ∧ copied then do
    restore
    exit (.msg emsg)
  else pure emsg

def mountMessage : Option Text → Page PUnit
  | none => pure ⟨⟩
  | some txt => exit (.msg txt)

/-- `$unMount` -/
def Tools.unMount : Page PUnit :=
  mountMessage (tools.mountError (commandSubst (httpdDecode (f.var "unMount".toList))))

/-- `$Mount` -/
def Tools.mount : Page PUnit := do
  let mp := commandSubst (httpdDecode (f.var "Mount".toList))
  let _ ← tools.mkmp (f.var "emsg".toList) mp
  mountMessage (tools.mountError mp)

/-- A decoded path of a row. -/
def Tools.rowPath (name : String) (i : Nat) : Text :=
  commandSubst (httpdDecode ((expand tools.glob (tools.rowVar f name i)).headD []))

def Tools.skipsRow (i : Nat) : Bool :=
  tools.rowVar f "rhost" i == [] || tools.rowVar f "rdir" i == [] || tools.rowVar f "mdir" i == []

/-- The line of a row, decoded once more. -/
def Tools.mountLine (i : Nat) : Text :=
  let fstype := tools.rowVar f "fstype" i
  let entered := tools.rowVar f "mopts" i
  let mopts := if entered = [] then (if fstype = "nfs".toList then nfsOptions else cifsOptions)
    else entered
  let rdir := pathEscape (tools.rowPath f "rdir" i)
  let mdir := pathEscape (tools.rowPath f "mdir" i)
  let device :=
    if fstype = "nfs".toList then tools.rowVar f "rhost" i ++ ':' :: rdir
    else "//".toList ++ tools.rowVar f "rhost" i ++ '/' :: rdir
  httpdDecode (tools.rowVar f "fcmtd" i ++ device ++ ' ' :: mdir ++ ' ' :: fstype ++ ' ' ::
    mopts ++ " 0 0".toList)

def Tools.mountRow (emsg : Text) (i : Nat) : Page Text :=
  if tools.skipsRow f i then pure emsg
  else do
    let emsg ← tools.mkmp emsg (tools.rowPath f "mdir" i)
    append .fstab ((tools.mountLine f i).splitOn '\n')
    pure emsg

def Tools.mountRows : List Nat := seqFrom 1 (f.var "cnt".toList)

/-- `$Submit` -/
def Tools.rmountSubmit : Page PUnit := do
  backup
  sedDelete .fstab (hasWord "nfs".toList)
  sedDelete .fstab (hasWord "cifs".toList)
  let _ ← (Tools.mountRows f).foldlM (tools.mountRow f) (f.var "emsg".toList)
  edit .fstabBackup fun _ => none
  sedDelete .misc ("DELAY_NFS=".toList.isPrefixOf ·)
  onlyIf (f.var "delay_nfs".toList ≠ []) (append .misc ["DELAY_NFS=y".toList])

def Tools.rmountProc : Page PUnit := do
  (if f.var "unMount".toList ≠ [] then tools.unMount f
  else if f.var "Mount".toList ≠ [] then tools.mount f
  else onlyIf (f.var "Submit".toList ≠ []) (tools.rmountSubmit f))
  exit (.gotopage "/cgi-bin/rmount.cgi".toList)

end Script

/-! ## Mount points that are rejected -/

variable {tools : Tools} {f : Form}

/-- What `mkmp` rejects, where there is a copy. -/
def BadMount (tools : Tools) (f : Form) (mp : Text) : Prop :=
  f.var "emsg".toList ≠ [] ∨ tools.testNotMnt (expand tools.glob (dirname mp)) = true

/-- A mount point of the request is rejected. -/
inductive MountRejected (tools : Tools) (f : Form) : Prop where
  | mount (first : f.var "unMount".toList = []) (asked : f.var "Mount".toList ≠ [])
      (bad : BadMount tools f (commandSubst (httpdDecode (f.var "Mount".toList))))
  | row (first : f.var "unMount".toList = []) (second : f.var "Mount".toList = [])
      (asked : f.var "Submit".toList ≠ []) (i : Nat) (mem : i ∈ Tools.mountRows f)
      (there : tools.skipsRow f i = false) (bad : BadMount tools f (tools.rowPath f "mdir" i))

/-- The copy that takes the place of fstab is one of fstab. -/
def CopySettled (f : Form) (s : Files) : Prop :=
  s .fstabBackup = none ∨
    if f.var "Mount".toList ≠ [] then s .fstabBackup = s .fstab else s .fstab ≠ none

/-- The copy takes the place of fstab. -/
def restored (s : Files) : Files :=
  Function.update (Function.update s .fstab (s .fstabBackup)) .fstabBackup none

/-- The message of `mkmp`, if there is one. -/
def mkmpError (tools : Tools) (emsg mp : Text) : Text :=
  if tools.testNotMnt (expand tools.glob (dirname mp)) then notMnt mp else emsg

variable (tools f)

theorem mkmp_eq (emsg mp : Text) (s : Files) :
    tools.mkmp emsg mp s =
      if mkmpError tools emsg mp ≠ [] ∧ (s .fstabBackup).isSome then
        .error (.msg (mkmpError tools emsg mp)) (restored s)
      else .ok (mkmpError tools emsg mp) s := by
  have hcopied : (modifyGet fun s => ((s .fstabBackup).isSome, s) : Page Bool) s =
      .ok (s .fstabBackup).isSome s := rfl
  unfold Tools.mkmp
  refine (bind_of_ok hcopied).trans ?_
  change (if mkmpError tools emsg mp ≠ [] ∧ (s .fstabBackup).isSome = true then _
    else Pure.pure (mkmpError tools emsg mp) : Page Text) s = _
  split
  · rfl
  · rfl

theorem mkmpError_ne_iff (mp : Text) :
    mkmpError tools (f.var "emsg".toList) mp ≠ [] ↔ BadMount tools f mp := by
  unfold mkmpError BadMount
  split
  · next hnot => exact iff_of_true (by simp [notMnt]) (Or.inr hnot)
  · next hmnt => simp [hmnt]

/-- A row that is not skipped has a bad mount point. -/
def RowBad (tools : Tools) (f : Form) (i : Nat) : Prop :=
  tools.skipsRow f i = false ∧ BadMount tools f (tools.rowPath f "mdir" i)

instance (mp : Text) : Decidable (BadMount tools f mp) := inferInstanceAs (Decidable (_ ∨ _))
instance (i : Nat) : Decidable (RowBad tools f i) := inferInstanceAs (Decidable (_ ∧ _))

theorem restored_fstab (s : Files) (fstab : Option TextFile) :
    restored (Function.update s .fstab fstab) = restored s := by
  rw [restored, restored, Function.update_idem, Function.update_of_ne (by decide)]

/-- A row, where there is a copy. -/
theorem mountRow_copied {s : Files} (hcopy : (s .fstabBackup).isSome) (i : Nat) :
    if RowBad tools f i then
      ∃ txt, tools.mountRow f (f.var "emsg".toList) i s = .error (.msg txt) (restored s)
    else ∃ fstab, tools.mountRow f (f.var "emsg".toList) i s =
      .ok (f.var "emsg".toList) (Function.update s .fstab fstab) := by
  have hne := mkmpError_ne_iff tools f (tools.rowPath f "mdir" i)
  have hrun := mkmp_eq tools (f.var "emsg".toList) (tools.rowPath f "mdir" i) s
  unfold Tools.mountRow
  by_cases hskips : tools.skipsRow f i = true
  · rw [if_neg fun h => Bool.false_ne_true (h.1.symm.trans hskips), if_pos hskips]
    exact ⟨s .fstab, by rw [Function.update_eq_self]; rfl⟩
  · rw [if_neg hskips]
    rw [Bool.not_eq_true] at hskips
    by_cases hbad : BadMount tools f (tools.rowPath f "mdir" i)
    · rw [if_pos ⟨hskips, hbad⟩]
      rw [if_pos ⟨hne.mpr hbad, hcopy⟩] at hrun
      exact ⟨_, bind_of_error hrun⟩
    · rw [if_neg fun h => hbad h.2]
      rw [if_neg fun h => hbad (hne.mp h.1)] at hrun
      have hsame : mkmpError tools (f.var "emsg".toList) (tools.rowPath f "mdir" i) =
          f.var "emsg".toList := by
        rw [BadMount, not_or, not_not] at hbad
        rw [mkmpError, if_neg hbad.2]
      exact ⟨_, (bind_of_ok hrun).trans (by rw [hsame]; rfl)⟩

theorem mountRows_copied {s : Files} (hcopy : (s .fstabBackup).isSome) (l : List Nat) :
    if ∃ i ∈ l, RowBad tools f i then
      ∃ txt, l.foldlM (tools.mountRow f) (f.var "emsg".toList) s = .error (.msg txt) (restored s)
    else ∃ s', l.foldlM (tools.mountRow f) (f.var "emsg".toList) s =
      .ok (f.var "emsg".toList) s' := by
  induction l generalizing s with
  | nil =>
      rw [if_neg (by rintro ⟨i, hi, -⟩; exact absurd hi List.not_mem_nil)]
      exact ⟨s, rfl⟩
  | cons i l ih =>
      have hrow := mountRow_copied tools f hcopy i
      by_cases hbad : RowBad tools f i
      · rw [if_pos ⟨i, List.mem_cons_self, hbad⟩]
        rw [if_pos hbad] at hrow
        obtain ⟨txt, htxt⟩ := hrow
        exact ⟨txt, bind_of_error htxt⟩
      · rw [if_neg hbad] at hrow
        obtain ⟨fstab, hfstab⟩ := hrow
        have hnext := ih (s := Function.update s .fstab fstab) (by
          rw [Function.update_of_ne (by decide)]
          exact hcopy)
        rw [restored_fstab] at hnext
        have hcons : (∃ j ∈ i :: l, RowBad tools f j) ↔ ∃ j ∈ l, RowBad tools f j := by
          rw [List.exists_mem_cons_iff, or_iff_right hbad]
        have hstep : (i :: l).foldlM (tools.mountRow f) (f.var "emsg".toList) s =
            l.foldlM (tools.mountRow f) (f.var "emsg".toList) (Function.update s .fstab fstab) :=
          bind_of_ok hfstab
        rw [hstep, if_congr hcons rfl rfl]
        exact hnext

/-- Without a copy no row ends the page. -/
theorem mountRows_quiet (emsg : Text) (l : List Nat) :
    Stays (fun s : Files => s .fstabBackup = none) (l.foldlM (tools.mountRow f) emsg) Quiet := by
  refine Runs.foldlM fun emsg i _ => Runs.ite (fun _ => Runs.pure fun _ hs => hs) fun _ => ?_
  refine Runs.bind (Q := fun _ s => s .fstabBackup = none) (fun s hs => ?_) fun emsg =>
    Runs.bind (Q := fun _ s => s .fstabBackup = none) (Runs.modifyGet fun s hs => ?_) fun _ =>
      Runs.pure fun _ hs => hs
  · rw [mkmp_eq, if_neg fun h => by rw [hs] at h; exact Bool.false_ne_true h.2]
    exact hs
  · have hne : EtcFile.fstabBackup ≠ .fstab := by decide
    simp only [Function.update_of_ne hne]
    exact hs

theorem rowRejected_iff :
    MountRejected tools f ↔ f.var "unMount".toList = [] ∧
      if f.var "Mount".toList ≠ [] then
        BadMount tools f (commandSubst (httpdDecode (f.var "Mount".toList)))
      else f.var "Submit".toList ≠ [] ∧ ∃ i ∈ Tools.mountRows f, RowBad tools f i := by
  constructor
  · rintro (⟨hfirst, hasked, hbad⟩ | ⟨hfirst, hsecond, hasked, i, hmem, hthere, hbad⟩)
    · exact ⟨hfirst, by rwa [if_pos hasked]⟩
    · exact ⟨hfirst, by rw [if_neg (not_not.mpr hsecond)]; exact ⟨hasked, i, hmem, hthere, hbad⟩⟩
  · rintro ⟨hfirst, h⟩
    split at h
    · next hasked => exact .mount hfirst hasked h
    · next hsecond =>
      obtain ⟨hasked, i, hmem, hthere, hbad⟩ := h
      exact .row hfirst (not_not.mp hsecond) hasked i hmem hthere hbad

theorem mountMessage_runs (s : Files) (o : Option Text) :
    Runs (· = s) (mountMessage o) (fun _ => (· = s)) (KeptFrom s) := by
  cases o with
  | none => exact Runs.pure fun _ hs => hs
  | some txt => exact Runs.exit fun s' hs => Or.inr (hs ▸ SameFiles.refl s)

/-- Nothing but messages that keep the files. -/
theorem keeps_bind_gotopage {α : Type} {m : Page α} {s : Files} {page : Text}
    (h : Runs (· = s) m (fun _ _ => True) (KeptFrom s)) :
    Keeps (m >>= fun _ => (exit (.gotopage page) : Page PUnit)) s :=
  keeps_of_runs (Q := fun _ _ => True) (Runs.bind h fun _ => Runs.exit fun _ _ =>
    Or.inl fun _ h => by cases h)

/-- The files in front of the rows. -/
def mountFront (s : Files) : Files :=
  Function.update (if s .fstab = none then s else Function.update s .fstabBackup (s .fstab)) .fstab
    (Edit.apply ⟨hasWord "cifs".toList, []⟩ (Edit.apply ⟨hasWord "nfs".toList, []⟩ (s .fstab)))

/-- What follows the rows. -/
def mountRest (f : Form) : Page PUnit := do
  edit .fstabBackup fun _ => none
  sedDelete .misc ("DELAY_NFS=".toList.isPrefixOf ·)
  onlyIf (f.var "delay_nfs".toList ≠ []) (append .misc ["DELAY_NFS=y".toList])

theorem rmountSubmit_eq (s : Files) :
    tools.rmountSubmit f s =
      ((Tools.mountRows f).foldlM (tools.mountRow f) (f.var "emsg".toList) >>= fun _ =>
        mountRest f) (mountFront s) := by
  have hfstab : ∀ s : Files, (if s .fstab = none then s
      else Function.update s .fstabBackup (s .fstab)) .fstab = s .fstab := by
    intro s
    split
    · rfl
    · exact Function.update_of_ne (by decide) _ _
  have hnfs : sedDelete .fstab (hasWord "nfs".toList) (if s .fstab = none then s
      else Function.update s .fstabBackup (s .fstab)) = .ok ⟨⟩ (Function.update (if s .fstab = none
        then s else Function.update s .fstabBackup (s .fstab)) .fstab
          (Edit.apply ⟨hasWord "nfs".toList, []⟩ (s .fstab))) := by
    change EStateM.Result.ok _ _ = _
    rw [hfstab]
  have hcifs : sedDelete .fstab (hasWord "cifs".toList) (Function.update (if s .fstab = none
      then s else Function.update s .fstabBackup (s .fstab)) .fstab
        (Edit.apply ⟨hasWord "nfs".toList, []⟩ (s .fstab))) = .ok ⟨⟩ (mountFront s) := by
    change EStateM.Result.ok _ _ = _
    rw [Function.update_idem, Function.update_self]
    rfl
  have hbackup : backup s = .ok ⟨⟩ (if s .fstab = none then s
    else Function.update s .fstabBackup (s .fstab)) := rfl
  exact (bind_of_ok hbackup).trans ((bind_of_ok hnfs).trans (bind_of_ok hcifs))

theorem mountRest_quiet : Stays (fun _ => True) (mountRest f) Quiet :=
  Runs.bind (edit_quiet _ _) fun _ => Runs.bind (edit_quiet _ _) fun _ =>
    Runs.onlyIf fun _ => edit_quiet _ _

/-- Where fstab is there, it is what is restored. -/
theorem restored_mountFront {s : Files} (h : s .fstab ≠ none) :
    SameFiles (restored (mountFront s)) s := by
  intro file hfile
  rw [restored, Function.update_of_ne hfile, mountFront, if_neg h]
  by_cases hfstab : file = .fstab
  · subst hfstab
    rw [Function.update_self, Function.update_of_ne (by decide), Function.update_self]
  · rw [Function.update_of_ne hfstab, Function.update_of_ne hfstab, Function.update_of_ne hfile]

/-- Without fstab, another copy takes its place. -/
theorem restored_noFstab {s : Files} (h : s .fstab = none) :
    mountFront s = s ∧ restored s .fstab = s .fstabBackup := by
  constructor
  · rw [mountFront, if_pos h, h]
    exact Function.update_eq_self_iff.mpr h.symm
  · rw [restored, Function.update_of_ne (by decide), Function.update_self]

theorem restored_same_iff (s : Files) : SameFiles (restored s) s ↔ s .fstabBackup = s .fstab := by
  constructor
  · intro h
    have hfstab := h .fstab (by decide)
    rwa [restored, Function.update_of_ne (by decide), Function.update_self] at hfstab
  · intro h file hfile
    rw [restored, Function.update_of_ne hfile, h, Function.update_eq_self]

/-- A mount point of its own. -/
theorem mount_keeps_iff (s : Files) (page : Text) :
    Keeps (tools.mount f >>= fun _ => (exit (.gotopage page) : Page PUnit)) s ↔
      (BadMount tools f (commandSubst (httpdDecode (f.var "Mount".toList))) →
        s .fstabBackup = none ∨ s .fstabBackup = s .fstab) := by
  have hrun := mkmp_eq tools (f.var "emsg".toList)
    (commandSubst (httpdDecode (f.var "Mount".toList))) s
  have hne := mkmpError_ne_iff tools f
    (commandSubst (httpdDecode (f.var "Mount".toList)))
  by_cases hrejects : BadMount tools f (commandSubst (httpdDecode (f.var "Mount".toList))) ∧
      (s .fstabBackup).isSome
  · rw [if_pos ⟨hne.mpr hrejects.1, hrejects.2⟩] at hrun
    have hmount : tools.mount f s = .error _ (restored s) := bind_of_error hrun
    rw [keeps_of_error (bind_of_error hmount), restored_same_iff]
    refine ⟨fun h _ => Or.inr h, fun h => (h hrejects.1).resolve_left fun hnone => ?_⟩
    rw [hnone] at hrejects
    exact Bool.false_ne_true hrejects.2
  · rw [if_neg fun h => hrejects ⟨hne.mp h.1, h.2⟩] at hrun
    refine iff_of_true ?_ fun hbad => Or.inl ?_
    · refine keeps_bind_gotopage (Runs.bind (Q := fun _ => (· = s)) (fun s' hs => ?_) fun _ =>
        (mountMessage_runs s _).weaken (fun _ h => h) fun _ _ _ => trivial)
      rw [hs, hrun]
    · rw [← Option.not_isSome_iff_eq_none]
      exact fun hcopy => hrejects ⟨hbad, hcopy⟩

theorem submit_keeps_iff (s : Files) (page : Text) :
    Keeps (tools.rmountSubmit f >>= fun _ => (exit (.gotopage page) : Page PUnit)) s ↔
      ((∃ i ∈ Tools.mountRows f, RowBad tools f i) → s .fstabBackup = none ∨ s .fstab ≠ none) := by
  have hsubmit := rmountSubmit_eq tools f s
  by_cases hcopied : (mountFront s .fstabBackup).isSome
  · have hrows := mountRows_copied tools f hcopied (Tools.mountRows f)
    by_cases hbad : ∃ i ∈ Tools.mountRows f, RowBad tools f i
    · rw [if_pos hbad] at hrows
      obtain ⟨txt, htxt⟩ := hrows
      rw [keeps_of_error (bind_of_error (hsubmit.trans (bind_of_error htxt)))]
      by_cases hfstab : s .fstab = none
      · obtain ⟨hfront, hrestored⟩ := restored_noFstab hfstab
        rw [hfront] at hcopied ⊢
        refine iff_of_false (fun h => ?_) fun h => ?_
        · rw [← hrestored, h .fstab (by decide), hfstab] at hcopied
          exact Bool.false_ne_true hcopied
        · rcases h hbad with hnone | hsome
          · rw [hnone] at hcopied
            exact Bool.false_ne_true hcopied
          · exact hsome hfstab
      · exact iff_of_true (restored_mountFront hfstab) fun _ => Or.inr hfstab
    · rw [if_neg hbad] at hrows
      obtain ⟨s', hs'⟩ := hrows
      refine iff_of_true ?_ fun h => absurd h hbad
      exact keeps_of_quiet (bind_of_eq _ (hsubmit.trans (bind_of_ok hs')))
        (Runs.bind (mountRest_quiet f) fun _ => gotopage_quiet _)
  · have hnone : mountFront s .fstabBackup = none := Option.not_isSome_iff_eq_none.mp hcopied
    have hfstab : s .fstab = none := by
      by_contra hsome
      rw [mountFront, if_neg hsome, Function.update_of_ne (by decide),
        Function.update_self] at hnone
      exact hsome hnone
    refine iff_of_true ?_ fun _ => Or.inl ?_
    · have hrows := mountRows_quiet tools f (f.var "emsg".toList)
        (Tools.mountRows f) (mountFront s) hnone
      cases hrun : (Tools.mountRows f).foldlM (tools.mountRow f) (f.var "emsg".toList)
          (mountFront s) with
      | ok emsg s' =>
          exact keeps_of_quiet (bind_of_eq _ (hsubmit.trans (bind_of_ok hrun)))
            (Runs.bind (mountRest_quiet f) fun _ => gotopage_quiet _)
      | error e s' =>
          rw [hrun] at hrows
          cases e with
          | msg txt => exact absurd rfl (hrows txt)
          | gotopage other =>
              unfold Keeps
              rw [bind_of_error (hsubmit.trans (bind_of_error hrun))]
              trivial
    · rwa [(restored_noFstab hfstab).1] at hnone

/-- **rmount_proc.cgi** keeps the files exactly if no mount point is rejected, or the copy that
takes the place of fstab is one of fstab. -/
theorem rmountProc_keeps_iff (s : Files) :
    Keeps (tools.rmountProc f) s ↔ (MountRejected tools f → CopySettled f s) := by
  rw [rowRejected_iff, Tools.rmountProc, CopySettled]
  by_cases hunmount : f.var "unMount".toList = []
  · rw [if_neg (not_not.mpr hunmount), and_iff_right hunmount]
    by_cases hmount : f.var "Mount".toList = []
    · simp only [if_neg (not_not.mpr hmount)]
      by_cases hsubmit : f.var "Submit".toList = []
      · refine iff_of_true ?_ fun h => absurd hsubmit h.1
        exact keeps_of_quiet (bind_of_ok (onlyIf_of_not (not_not.mpr hsubmit) _ _))
          (gotopage_quiet _)
      · rw [and_iff_right hsubmit, onlyIf, if_pos hsubmit]
        exact submit_keeps_iff tools f s _
    · simp only [if_pos hmount]
      exact mount_keeps_iff tools f s _
  · rw [if_pos hunmount]
    exact iff_of_true (keeps_bind_gotopage ((mountMessage_runs s _).weaken (fun _ h => h)
      fun _ _ _ => trivial)) fun h => absurd h.1 hunmount

end AltF.Cgi.Etc
