/-
  Cgi/DiskPart.lean --- diskpart_proc.cgi: the disk partitioner, with hotplug stopped while
  it works.

  The programs that the script runs are commands whose status and output the box tells.
  An error ends the script in `err`, which starts hotplug again, or in `msg` of common.sh,
  which does not.
-/
import AltF.Shell.Scripts
import AltF.Shell.Words

set_option autoImplicit false

namespace AltF.Cgi.Disks

open AltF.Shell AltF.SysFiles

/-! ## The box -/

/-- What a command prints, and its status. -/
structure Outcome where
  status : Nat
  out : Text

/-- What is outside of the scripts. -/
structure Box where
  /-- the outcome of a command, after those in front of it -/
  tools : List Text → Text → Outcome
  /-- the names that a word stands for -/
  glob : Text → List Text
  /-- the variables that /etc/bay and /etc/misc.conf set -/
  bay : Text → Option Text
  misc : Text → Option Text

/-- How a script ends by itself. -/
inductive Ending where
  | err (txt : Text)
  | msg (txt : Text)
  | gotopage (page : Text)
  | noDisks

/-- The commands so far, and what the script wrote to /proc/sys/kernel/hotplug last. -/
structure World where
  calls : List Text
  hotplug : Option Text

abbrev Page (α : Type) : Type := Script Ending World α

/-- The variables that read_args sets. -/
abbrev Form : Type := Text → Text

def mdev : Text := "/sbin/mdev".toList

/-! ## Commands -/

section Commands

variable (box : Box)

/-- A command whose output nothing reads, or its output and status. -/
def tool (cmd : Text) : Page Outcome :=
  modifyGet fun w => (box.tools w.calls cmd, { w with calls := w.calls ++ [cmd] })

def quiet (cmd : Text) : Page PUnit := do
  let _ ← tool box cmd
  pure ⟨⟩

/-- `$(...)` -/
def capture (cmd : Text) : Page Text := do
  let r ← tool box cmd
  pure (commandSubst r.out)

/-- `echo ... > /proc/sys/kernel/hotplug` -/
def writeHotplug (t : Text) : Page PUnit :=
  modifyGet fun w => (⟨⟩, { w with hotplug := some t })

/-- `for i in $ws` -/
def forWords (ws : Text) (f : Text → Page PUnit) : Page PUnit := (expand box.glob ws).forM f

/-- `err` -/
def err {α : Type} (txt : Text) : Page α := do
  writeHotplug mdev
  exit (.err txt)

/-- `res=$(...); if test $? != 0; then err "$res"; fi` -/
def checked (cmd : Text) : Page PUnit := do
  let r ← tool box cmd
  onlyIf (r.status ≠ 0) (err (commandSubst r.out))

/-! ## The functions -/

def ejectDisk (dsk : Text) : Text := "eject ".toList ++ dsk

def ejectAll : Text := "eject -a".toList

def pre (dsk : Text) : Page PUnit := do
  let r ← tool box (ejectDisk dsk)
  onlyIf (r.status ≠ 0) do
    let r ← tool box ejectAll
    onlyIf (r.status ≠ 0) (err [])
  writeHotplug []

def loadall (disks : Text) : Page PUnit :=
  forWords box disks fun i => do
    let dsk ← capture box ("basename ".toList ++ i)
    quiet box ("eject -r ".toList ++ dsk)

def rereadPart (dsk : Text) : Page PUnit := do
  quiet box ("sfdisk -R /dev/".toList ++ dsk)
  quiet box "sleep 3".toList

/-- The device in a column of a listing, as awk prints it. -/
def awkDevice (listing kind : Text) : Page Text :=
  capture box ("echo ".toList ++ listing ++ " | awk ".toList ++ kind)

def makeSwap (dsk : Text) : Page PUnit := do
  let sout ← capture box ("sfdisk -l /dev/".toList ++ dsk)
  let pt ← awkDevice box sout "82".toList
  if pt ≠ [] then quiet box ("mkswap ".toList ++ pt)
  else
    let ee ← awkDevice box sout "ee".toList
    if ee ≠ [] then
      let gpt ← capture box ("sgdisk -p /dev/".toList ++ dsk ++ " | awk 8200".toList)
      onlyIf (gpt ≠ []) (quiet box ("mkswap /dev/".toList ++ dsk ++ gpt))
    else pure ⟨⟩

/-- `$(eval echo \$name)` -/
def evalEcho (name : Text) : Page Text := capture box ("eval echo $".toList ++ name)

def finalize (dsk : Text) : Page PUnit :=
  ["1", "2", "3", "4"].forM fun pl => do
    let part := "/dev/".toList ++ dsk ++ pl.toList
    let ppart ← capture box ("basename ".toList ++ part)
    let keep ← evalEcho box ("keep_".toList ++ ppart)
    if keep = "yes".toList then pure ⟨⟩
    else
      let type ← evalEcho box ("type_".toList ++ ppart)
      detail part type
where
  detail (part type : Text) : Page PUnit :=
    if type = "swap".toList then quiet box ("mkswap ".toList ++ part)
    else if type = "vfat".toList then do
      quiet box ("mdadm --zero-superblock ".toList ++ part)
      quiet box ("dd if=/dev/zero of=".toList ++ part ++ " bs=512 count=1".toList)
    else if ["LVM", "RAID", "linux", "Windows Data", "ntfs", "empty"].any (·.toList == type) then
      quiet box ("mdadm --zero-superblock ".toList ++ part)
    else pure ⟨⟩

def listDisks : Text := "ls /dev/sd?".toList

/-- `has_disks` of common.sh -/
def hasDisks : Page Text := do
  let disks ← capture box listDisks
  if disks = [] then exit .noDisks else pure disks

/-! ## The operations -/

variable (f : Form)

def isMBR : Prop := f "in_use".toList = "MBR".toList

instance : Decidable (isMBR f) := by unfold isMBR; infer_instance

def isGPT : Prop := f "in_use".toList = "GPT".toList

instance : Decidable (isGPT f) := by unfold isGPT; infer_instance

/-- `op_` in front of the name of a disk -/
def dropOp (t : Text) : Text := if "op_".toList <+: t then t.drop 3 else t

/-- `$cp_from` -/
def copyTable (cpFrom : Text) : Page PUnit := do
  let cpTo ← capture box ("eval echo $cp_".toList ++ cpFrom)
  pre box cpTo
  (if isMBR f then do
    quiet box ("sgdisk --zap-all /dev/".toList ++ cpTo)
    checked box ("sfdisk -d /dev/".toList ++ cpFrom ++ " | sfdisk --force /dev/".toList ++ cpTo)
  else if isGPT f then do
    checked box ("sgdisk --replicate=/dev/".toList ++ cpTo ++ " /dev/".toList ++ cpFrom)
    quiet box ("sgdisk --randomize-guids /dev/".toList ++ cpTo)
  else pure ⟨⟩)
  rereadPart box cpTo
  makeSwap box cpTo

/-- `$Erase` -/
def erase (dsk : Text) : Page PUnit := do
  pre box dsk
  (if isMBR f then do
    quiet box ("dd if=/dev/zero of=/dev/".toList ++ dsk ++ " bs=1 count=66 seek=446".toList)
    quiet box ("sgdisk --zap /dev/".toList ++ dsk)
  else onlyIf (isGPT f) (quiet box ("sgdisk --zap-all /dev/".toList ++ dsk)))
  rereadPart box dsk

def savedMBR (dsk : Text) : Text := "/tmp/saved_mbr_".toList ++ dsk ++ "_part".toList

def savedGPT (dsk : Text) : Text := "/tmp/saved_gpt_".toList ++ dsk ++ "_part".toList

/-- `$Save` -/
def save (dsk : Text) : Page PUnit := do
  (if isMBR f then quiet box ("sfdisk -d /dev/".toList ++ dsk ++ " > ".toList ++ savedMBR dsk)
  else onlyIf (isGPT f)
    (quiet box ("sgdisk --backup=".toList ++ savedGPT dsk ++ " /dev/".toList ++ dsk)))
  exit (.gotopage ("/cgi-bin/diskpart.cgi?disk=".toList ++ dsk))

/-- `$Load`, before a disk is stopped -/
def checkSaved (fname : Text) : Page PUnit := do
  let file ← tool box ("test -f ".toList ++ fname)
  if file.status ≠ 0 then
    exit (.msg ("File ".toList ++ fname ++ " does not exists.\\n\\n\\
In order to Load, you have to first save the disk partition.".toList))
  else onlyIf (isMBR f) do
    let none ← tool box ("grep -q \"No partitions found\" ".toList ++ fname)
    onlyIf (none.status = 0)
      (exit (.msg "The loaded file doesn't contain a valid MBR partition table.".toList))

/-- `$Load` -/
def load (dsk : Text) : Page PUnit := do
  let fname := if isMBR f then savedMBR dsk else if isGPT f then savedGPT dsk else []
  checkSaved box f fname
  pre box dsk
  (if isMBR f then checked box ("sfdisk --force /dev/".toList ++ dsk ++ " < ".toList ++ fname)
  else onlyIf (isGPT f)
    (checked box ("sgdisk --load-backup=".toList ++ fname ++ " /dev/".toList ++ dsk)))
  rereadPart box dsk
  makeSwap box dsk

/-- `res=$(...); if test $? != 0; then msg "$res"; fi` -/
def checkedMsg (cmd front : Text) : Page PUnit := do
  let r ← tool box cmd
  onlyIf (r.status ≠ 0) (exit (.msg (front ++ commandSubst r.out)))

def partNumbers (dsk : Text) : Text := "sgdisk -p /dev/".toList ++ dsk ++ " | awk Number".toList

/-- The command for the partitions that there are. -/
def toMBR (pn dsk : Text) : Text :=
  if pn = [] then "sgdisk --zap-all /dev/".toList ++ dsk
  else "sgdisk --gpttombr ".toList ++ pn ++ " /dev/".toList ++ dsk

/-- `$Conv_MBR`: the error is shown by `msg`. -/
def convMBR (dsk : Text) : Page PUnit := do
  pre box dsk
  let pn ← capture box (partNumbers dsk)
  checkedMsg box (toMBR pn dsk) []
  rereadPart box dsk

def zap (dsk : Text) : Text := "sgdisk --zap /dev/".toList ++ dsk

def toGPT (dsk : Text) : Text := "sgdisk --mbrtogpt /dev/".toList ++ dsk

/-- `$Conv_GPT`: here too. -/
def convGPT (dsk : Text) : Page PUnit := do
  pre box dsk
  quiet box (zap dsk)
  checkedMsg box (toGPT dsk) ("Conv_GPT ".toList ++ dsk ++ ": ".toList)
  rereadPart box dsk

/-- The variables `start`, `sects` and `id` of a partition. -/
structure Row where
  start : Text
  sects : Text
  id : Text

/-- `case "$type"`: an unknown type leaves the number of the partition before. -/
def mbrId (type old : Text) : Text :=
  if type = "empty".toList then "0".toList
  else if type = "swap".toList then "82".toList
  else if type = "linux".toList then "83".toList
  else if type = "LVM".toList then "8e".toList
  else if type = "vfat".toList then "c".toList
  else if type = "ntfs".toList then "7".toList
  else if type = "RAID".toList then "da".toList
  else old

/-- The line of a partition in the input of sfdisk. -/
def Row.line (r : Row) : Text :=
  if r.start = [] ∨ r.sects = [] ∨ r.sects = "0".toList then "0,0,0".toList
  else r.start ++ ",".toList ++ r.sects ++ ",".toList ++ r.id

/-- What a variable is after `eval` of assignments with `; ` between them. -/
def assigned (n out old : Text) : Text :=
  ((out.splitOnP (· == ';')).flatMap words).foldl
    (fun old w => if n ++ ['='] <+: w then w.drop (n.length + 1) else old) old

/-- `eval` of what awk prints for a partition that is kept. -/
def evalRow (fout ppart : Text) (old : Row) : Page Row := do
  let out ← capture box ("echo ".toList ++ fout ++ " | awk ".toList ++ ppart)
  pure ⟨assigned "start".toList out old.start, assigned "sects".toList out old.sects,
    assigned "id".toList out old.id⟩

/-- The fields of a partition. -/
def enteredRow (ppart : Text) (old : Row) : Page Row := do
  let type ← evalEcho box ("type_".toList ++ ppart)
  let start ← evalEcho box ("start_".toList ++ ppart)
  let sects ← evalEcho box ("len_".toList ++ ppart)
  pure ⟨start, sects, mbrId type old.id⟩

def mbrRow (dsk fmtfile fout : Text) (old : Row) (pl : String) : Page Row := do
  let ppart := dsk ++ pl.toList
  let keep ← evalEcho box ("keep_".toList ++ ppart)
  let row ← (if keep = "yes".toList then evalRow box fout ppart old else enteredRow box ppart old)
  quiet box ("echo ".toList ++ row.line ++ " >> ".toList ++ fmtfile)
  pure row

def emptyTable (dsk : Text) : Text :=
  "\n".toList.intercalate (["1", "2", "3", "4"].map fun pl =>
    "/dev/".toList ++ dsk ++ pl.toList ++ " 0 - 0 0 0 Empty".toList)

/-- `$Partition` of a disk with an MBR -/
def partitionMBR (dsk : Text) : Page PUnit := do
  let fmtfile ← capture box "mktemp -t sfdisk-XXXXXX".toList
  let listing ← capture box ("sfdisk -l -uS /dev/".toList ++ dsk ++ " | tr '*' ' '".toList)
  let none ← tool box ("echo ".toList ++ listing ++ " | grep -q \"No partitions found\"".toList)
  let fout := if none.status = 0 then emptyTable dsk else listing
  let row : Row := ⟨f "start".toList, f "sects".toList, f "id".toList⟩
  let _ ← ["1", "2", "3", "4"].foldlM (mbrRow box dsk fmtfile fout) row
  pre box dsk
  let r ← tool box ("sfdisk --force -uS /dev/".toList ++ dsk ++ " < ".toList ++ fmtfile)
  quiet box ("rm -f ".toList ++ fmtfile)
  onlyIf (r.status ≠ 0) (err (commandSubst r.out))
  rereadPart box dsk
  finalize box dsk

def gptId (type : Text) : Text :=
  if type = "empty".toList then "0".toList
  else if type = "swap".toList then "8200".toList
  else if type = "linux".toList then "8300".toList
  else if type = "LVM".toList then "8e00".toList
  else if type = "RAID".toList then "fd00".toList
  else if type = "Windows Data".toList then "0700".toList
  else []

def gptDelete (dsk parts dcmd : Text) (pl : String) : Page Text := do
  let keep ← evalEcho box ("keep_".toList ++ dsk ++ pl.toList)
  if keep = "yes".toList then pure dcmd
  else
    let there ← tool box ("echo ".toList ++ parts ++ " | grep -q ".toList ++ pl.toList)
    pure (if there.status = 0 then dcmd ++ " --delete=".toList ++ pl.toList else dcmd)

def gptNew (dsk cmd : Text) (pl : String) : Page Text := do
  let ppart := dsk ++ pl.toList
  let keep ← evalEcho box ("keep_".toList ++ ppart)
  if keep = "yes".toList then pure cmd
  else
    let coded ← evalEcho box ("type_".toList ++ ppart)
    let type ← capture box ("httpd -d ".toList ++ coded)
    let spos ← evalEcho box ("start_".toList ++ ppart)
    let slen ← evalEcho box ("len_".toList ++ ppart)
    if spos = [] ∨ spos = "0".toList ∨ slen = [] ∨ slen = "0".toList then pure cmd
    else
      let send ← capture box ("expr ".toList ++ spos ++ " + ".toList ++ slen ++ " - 1".toList)
      pure (cmd ++ " --new=".toList ++ pl.toList ++ ":".toList ++ spos ++ ":".toList ++ send ++
        " --typecode=".toList ++ pl.toList ++ ":".toList ++ gptId type)

/-- `$Partition` of a disk with a GPT -/
def partitionGPT (dsk : Text) : Page PUnit := do
  let fout ← capture box ("sgdisk -p /dev/".toList ++ dsk)
  let parts ← capture box ("echo ".toList ++ fout ++ " | awk Number".toList)
  let dcmd ← ["1", "2", "3", "4"].foldlM (gptDelete box dsk parts) (f "dcmd".toList)
  let cmd ← ["1", "2", "3", "4"].foldlM (gptNew box dsk) (f "cmd".toList)
  pre box dsk
  checked box ("sgdisk --set-alignment=8 ".toList ++ dcmd ++ " ".toList ++ cmd ++
    " /dev/".toList ++ dsk)
  rereadPart box dsk
  finalize box dsk

/-! ## The script -/

inductive Operation where
  | copyTable (cpFrom : Text)
  | erase (dsk : Text)
  | save (dsk : Text)
  | load (dsk : Text)
  | convMBR (dsk : Text)
  | convGPT (dsk : Text)
  | partitionMBR (dsk : Text)
  | partitionGPT (dsk : Text)
  | none

/-- The chain of `test -n`: the first button that is set. -/
def operation : Operation :=
  if f "cp_from".toList ≠ [] then .copyTable (f "cp_from".toList)
  else if f "Erase".toList ≠ [] then .erase (dropOp (f "Erase".toList))
  else if f "Save".toList ≠ [] then .save (dropOp (f "Save".toList))
  else if f "Load".toList ≠ [] then .load (dropOp (f "Load".toList))
  else if f "Conv_MBR".toList ≠ [] then .convMBR (dropOp (f "Conv_MBR".toList))
  else if f "Conv_GPT".toList ≠ [] then .convGPT (dropOp (f "Conv_GPT".toList))
  else if f "Partition".toList ≠ [] ∧ isMBR f then .partitionMBR (f "Partition".toList)
  else if f "Partition".toList ≠ [] ∧ isGPT f then .partitionGPT (f "Partition".toList)
  else .none

def Operation.run : Operation → Page PUnit
  | .copyTable cpFrom => Disks.copyTable box f cpFrom
  | .erase dsk => Disks.erase box f dsk
  | .save dsk => Disks.save box f dsk
  | .load dsk => Disks.load box f dsk
  | .convMBR dsk => Disks.convMBR box dsk
  | .convGPT dsk => Disks.convGPT box dsk
  | .partitionMBR dsk => Disks.partitionMBR box f dsk
  | .partitionGPT dsk => Disks.partitionGPT box f dsk
  | .none => pure ⟨⟩

/-- diskpart_proc.cgi -/
def diskpartProc : Page PUnit := do
  let disks ← hasDisks box
  (operation f).run box f
  quiet box "blkid -c /dev/null".toList
  loadall box disks
  writeHotplug mdev

end Commands

/-! ## What holds of hotplug -/

/-- Hotplug is as it was before the script, or is started again. -/
def Restored (w : World) : Prop := w.hotplug = none ∨ w.hotplug = some mdev

def Untouched (w : World) : Prop := w.hotplug = none

def Stopped (w : World) : Prop := w.hotplug = some []

/-- A condition that does not look at the commands so far. -/
def Blind (I : World → Prop) : Prop := ∀ w calls, I w → I { w with calls := calls }

theorem blind_untouched : Blind Untouched := fun _ _ h => h

theorem blind_stopped : Blind Stopped := fun _ _ h => h

theorem blind_true : Blind fun _ => True := fun _ _ h => h

section Parts

variable {box : Box} {I : World → Prop} (hI : Blind I) {P : World → Prop} {α : Type}
  {Q : α → World → Prop}

include hI

theorem tool_stays {E : Ending → World → Prop} (cmd : Text) : Stays I (tool box cmd) E :=
  Runs.modifyGet fun w hw => hI w _ hw

theorem quiet_stays {E : Ending → World → Prop} (cmd : Text) : Stays I (quiet box cmd) E :=
  Runs.bind (tool_stays hI cmd) fun _ => Runs.pure fun _ hw => hw

theorem capture_stays {E : Ending → World → Prop} (cmd : Text) : Stays I (capture box cmd) E :=
  Runs.bind (tool_stays hI cmd) fun _ => Runs.pure fun _ hw => hw

omit hI in
theorem err_restores (txt : Text) : Runs P (err txt : Page α) Q fun _ => Restored :=
  Runs.bind (Q := fun _ => Restored) (Runs.modifyGet fun _ _ => Or.inr rfl)
    fun _ => Runs.exit fun _ hw => hw

theorem checked_stays (cmd : Text) : Stays I (checked box cmd) fun _ => Restored :=
  Runs.bind (tool_stays hI cmd) fun _ => Runs.onlyIf fun _ => err_restores _

theorem loadall_stays {E : Ending → World → Prop} (disks : Text) :
    Stays I (loadall box disks) E :=
  Runs.forM fun _ _ => Runs.bind (capture_stays hI _) fun _ => quiet_stays hI _

theorem rereadPart_stays {E : Ending → World → Prop} (dsk : Text) :
    Stays I (rereadPart box dsk) E :=
  Runs.bind (quiet_stays hI _) fun _ => quiet_stays hI _

theorem makeSwap_stays {E : Ending → World → Prop} (dsk : Text) :
    Stays I (makeSwap box dsk) E := by
  refine Runs.bind (capture_stays hI _) fun _ => Runs.bind (capture_stays hI _) fun _ => ?_
  refine Runs.ite (fun _ => quiet_stays hI _) fun _ => ?_
  refine Runs.bind (capture_stays hI _) fun _ => Runs.ite (fun _ => ?_) fun _ => ?_
  · exact Runs.bind (capture_stays hI _) fun _ => Runs.onlyIf fun _ => quiet_stays hI _
  · exact Runs.pure fun _ hw => hw

theorem finalize_stays {E : Ending → World → Prop} (dsk : Text) :
    Stays I (finalize box dsk) E := by
  refine Runs.forM fun pl _ => Runs.bind (capture_stays hI _) fun _ =>
    Runs.bind (capture_stays hI _) fun _ => Runs.ite (fun _ => Runs.pure fun _ hw => hw) fun _ => ?_
  refine Runs.bind (capture_stays hI _) fun _ => ?_
  refine Runs.ite (fun _ => quiet_stays hI _) fun _ => Runs.ite (fun _ => ?_) fun _ => ?_
  · exact Runs.bind (quiet_stays hI _) fun _ => quiet_stays hI _
  · exact Runs.ite (fun _ => quiet_stays hI _) fun _ => Runs.pure fun _ hw => hw

end Parts

section Operations

variable {box : Box} {f : Form}

/-- Where an operation may end the script, hotplug is not stopped. -/
abbrev Safe (m : Page PUnit) : Prop := Runs Untouched m (fun _ _ => True) fun _ => Restored

theorem pre_stops (dsk : Text) :
    Runs Untouched (pre box dsk) (fun _ => Stopped) fun _ => Restored := by
  refine Runs.bind (tool_stays blind_untouched _) fun _ => Runs.bind (Runs.onlyIf fun _ => ?_)
    fun _ => Runs.modifyGet fun _ _ => rfl
  exact Runs.bind (tool_stays blind_untouched _) fun _ => Runs.onlyIf fun _ => err_restores _

/-- The end of an operation, with hotplug stopped. -/
theorem safe_of_stays {m : Page PUnit} (h : Stays Stopped m fun _ => Restored) :
    Runs Stopped m (fun _ _ => True) fun _ => Restored :=
  h.weaken (fun _ hw => hw) fun _ _ _ => trivial

theorem copyTable_safe (cpFrom : Text) : Safe (copyTable box f cpFrom) := by
  refine Runs.bind (capture_stays blind_untouched _) fun cpTo =>
    Runs.bind (pre_stops cpTo) fun _ => safe_of_stays ?_
  refine Runs.bind (Q := fun _ => Stopped) (Runs.ite (fun _ => ?_) fun _ => Runs.ite
    (fun _ => ?_) fun _ => Runs.pure fun _ hw => hw) fun _ => ?_
  · exact Runs.bind (quiet_stays blind_stopped _) fun _ => checked_stays blind_stopped _
  · exact Runs.bind (checked_stays blind_stopped _) fun _ => quiet_stays blind_stopped _
  · exact Runs.bind (rereadPart_stays blind_stopped _) fun _ => makeSwap_stays blind_stopped _

theorem erase_safe (dsk : Text) : Safe (erase box f dsk) := by
  refine Runs.bind (pre_stops dsk) fun _ => safe_of_stays ?_
  refine Runs.bind (Runs.ite (fun _ => ?_) fun _ => Runs.onlyIf fun _ =>
    quiet_stays blind_stopped _) fun _ => rereadPart_stays blind_stopped _
  exact Runs.bind (quiet_stays blind_stopped _) fun _ => quiet_stays blind_stopped _

theorem save_safe (dsk : Text) : Safe (save box f dsk) :=
  Runs.bind (Runs.ite (fun _ => quiet_stays blind_untouched _) fun _ => Runs.onlyIf
    fun _ => quiet_stays blind_untouched _) fun _ => Runs.exit fun _ hw => Or.inl hw

theorem checkSaved_stays (fname : Text) :
    Stays Untouched (checkSaved box f fname) fun _ => Restored := by
  refine Runs.bind (tool_stays blind_untouched _) fun _ =>
    Runs.ite (fun _ => Runs.exit fun _ hw => Or.inl hw) fun _ => Runs.onlyIf fun _ => ?_
  exact Runs.bind (tool_stays blind_untouched _) fun _ =>
    Runs.onlyIf fun _ => Runs.exit fun _ hw => Or.inl hw

theorem load_safe (dsk : Text) : Safe (load box f dsk) := by
  refine Runs.bind (checkSaved_stays _) fun _ => Runs.bind (pre_stops dsk) fun _ =>
    safe_of_stays ?_
  refine Runs.bind (Runs.ite (fun _ => checked_stays blind_stopped _) fun _ => Runs.onlyIf
    fun _ => checked_stays blind_stopped _) fun _ => ?_
  exact Runs.bind (rereadPart_stays blind_stopped _) fun _ => makeSwap_stays blind_stopped _

theorem mbrRow_stays (dsk fmtfile fout : Text) (old : Row) (pl : String) :
    Stays Untouched (mbrRow box dsk fmtfile fout old pl) fun _ => Restored := by
  refine Runs.bind (capture_stays blind_untouched _) fun _ =>
    Runs.bind (Q := fun _ => Untouched) (Runs.ite (fun _ => ?_) fun _ => ?_) fun _ => ?_
  · exact Runs.bind (capture_stays blind_untouched _) fun _ => Runs.pure fun _ hw => hw
  · exact Runs.bind (capture_stays blind_untouched _) fun _ =>
      Runs.bind (capture_stays blind_untouched _) fun _ =>
        Runs.bind (capture_stays blind_untouched _) fun _ => Runs.pure fun _ hw => hw
  · exact Runs.bind (quiet_stays blind_untouched _) fun _ => Runs.pure fun _ hw => hw

theorem partitionMBR_safe (dsk : Text) : Safe (partitionMBR box f dsk) := by
  refine Runs.bind (capture_stays blind_untouched _) fun _ =>
    Runs.bind (capture_stays blind_untouched _) fun _ =>
      Runs.bind (tool_stays blind_untouched _) fun _ =>
        Runs.bind (Runs.foldlM fun _ _ _ => mbrRow_stays _ _ _ _ _) fun _ =>
          Runs.bind (pre_stops dsk) fun _ => safe_of_stays ?_
  refine Runs.bind (tool_stays blind_stopped _) fun _ =>
    Runs.bind (quiet_stays blind_stopped _) fun _ =>
      Runs.bind (Runs.onlyIf fun _ => err_restores _) fun _ => ?_
  exact Runs.bind (rereadPart_stays blind_stopped _) fun _ => finalize_stays blind_stopped _

theorem gptDelete_stays (dsk parts dcmd : Text) (pl : String) :
    Stays Untouched (gptDelete box dsk parts dcmd pl) fun _ => Restored := by
  refine Runs.bind (capture_stays blind_untouched _) fun _ =>
    Runs.ite (fun _ => Runs.pure fun _ hw => hw) fun _ => ?_
  exact Runs.bind (tool_stays blind_untouched _) fun _ => Runs.pure fun _ hw => hw

theorem gptNew_stays (dsk cmd : Text) (pl : String) :
    Stays Untouched (gptNew box dsk cmd pl) fun _ => Restored := by
  refine Runs.bind (capture_stays blind_untouched _) fun _ =>
    Runs.ite (fun _ => Runs.pure fun _ hw => hw) fun _ => ?_
  refine Runs.bind (capture_stays blind_untouched _) fun _ =>
    Runs.bind (capture_stays blind_untouched _) fun _ =>
      Runs.bind (capture_stays blind_untouched _) fun _ =>
        Runs.bind (capture_stays blind_untouched _) fun _ =>
          Runs.ite (fun _ => Runs.pure fun _ hw => hw) fun _ => ?_
  exact Runs.bind (capture_stays blind_untouched _) fun _ => Runs.pure fun _ hw => hw

theorem partitionGPT_safe (dsk : Text) : Safe (partitionGPT box f dsk) := by
  refine Runs.bind (capture_stays blind_untouched _) fun _ =>
    Runs.bind (capture_stays blind_untouched _) fun _ =>
      Runs.bind (Runs.foldlM fun _ _ _ => gptDelete_stays _ _ _ _) fun _ =>
        Runs.bind (Runs.foldlM fun _ _ _ => gptNew_stays _ _ _) fun _ =>
          Runs.bind (pre_stops dsk) fun _ => safe_of_stays ?_
  exact Runs.bind (checked_stays blind_stopped _) fun _ =>
    Runs.bind (rereadPart_stays blind_stopped _) fun _ => finalize_stays blind_stopped _

/-! ### The conversions -/

/-- The commands after `eject` of a disk, and of all when that fails; none where both fail. -/
def Box.stopped (box : Box) (calls : List Text) (dsk : Text) : Option (List Text) :=
  if (box.tools calls (ejectDisk dsk)).status = 0 then some (calls ++ [ejectDisk dsk])
  else if (box.tools (calls ++ [ejectDisk dsk]) ejectAll).status = 0 then
    some (calls ++ [ejectDisk dsk] ++ [ejectAll])
  else none

/-- The disk can be stopped, and the command that converts it fails. -/
def Operation.Fails (box : Box) (calls : List Text) : Operation → Prop
  | .convMBR dsk =>
      ∃ stopped, box.stopped calls dsk = some stopped ∧
        let pn := commandSubst (box.tools stopped (partNumbers dsk)).out
        (box.tools (stopped ++ [partNumbers dsk]) (toMBR pn dsk)).status ≠ 0
  | .convGPT dsk =>
      ∃ stopped, box.stopped calls dsk = some stopped ∧
        (box.tools (stopped ++ [zap dsk]) (toGPT dsk)).status ≠ 0
  | _ => False

theorem tool_run (cmd : Text) (w : World) :
    tool box cmd w = .ok (box.tools w.calls cmd) { w with calls := w.calls ++ [cmd] } := rfl

theorem capture_run (cmd : Text) (w : World) :
    capture box cmd w =
      .ok (commandSubst (box.tools w.calls cmd).out) { w with calls := w.calls ++ [cmd] } := rfl

theorem quiet_run (cmd : Text) (w : World) :
    quiet box cmd w = .ok ⟨⟩ { w with calls := w.calls ++ [cmd] } := rfl

theorem err_run {α : Type} (txt : Text) (w : World) :
    (err txt : Page α) w = .error (.err txt) { w with hotplug := some mdev } := rfl

theorem pre_run_of_some {calls stopped : List Text} {dsk : Text}
    (h : box.stopped calls dsk = some stopped) :
    pre box dsk ⟨calls, none⟩ = .ok ⟨⟩ ⟨stopped, some []⟩ := by
  unfold Box.stopped at h
  rw [pre, bind_of_ok (tool_run _ _)]
  split at h
  · rename_i hone
    rw [bind_of_ok (onlyIf_of_not (not_not.mpr hone) _ _), ← Option.some.inj h]
    rfl
  · rename_i hone
    split at h
    · rename_i hall
      rw [bind_of_ok ((onlyIf_of hone _ _).trans ((bind_of_ok (tool_run _ _)).trans
        (onlyIf_of_not (not_not.mpr hall) _ _))), ← Option.some.inj h]
      rfl
    · cases h

theorem pre_run_of_none {calls : List Text} {dsk : Text} (h : box.stopped calls dsk = none) :
    pre box dsk ⟨calls, none⟩ =
      .error (.err []) ⟨calls ++ [ejectDisk dsk] ++ [ejectAll], some mdev⟩ := by
  unfold Box.stopped at h
  rw [pre, bind_of_ok (tool_run _ _)]
  split at h
  · cases h
  · rename_i hone
    split at h
    · cases h
    · rename_i hall
      exact bind_of_error ((onlyIf_of hone _ _).trans ((bind_of_ok (tool_run _ _)).trans
        ((onlyIf_of hall _ _).trans (err_run _ _))))

theorem checkedMsg_fails {cmd : Text} {w : World} (front : Text)
    (h : (box.tools w.calls cmd).status ≠ 0) :
    ∃ txt, checkedMsg box cmd front w = .error (.msg txt) { w with calls := w.calls ++ [cmd] } :=
  ⟨_, (bind_of_ok (tool_run _ _)).trans (onlyIf_of h _ _)⟩

theorem checkedMsg_succeeds {cmd : Text} {w : World} (front : Text)
    (h : (box.tools w.calls cmd).status = 0) :
    checkedMsg box cmd front w = .ok ⟨⟩ { w with calls := w.calls ++ [cmd] } :=
  (bind_of_ok (tool_run _ _)).trans (onlyIf_of_not (not_not.mpr h) _ _)

/-- A conversion that fails ends the script with hotplug stopped. -/
theorem stopped_of_fails {calls : List Text} {op : Operation} (h : op.Fails box calls) :
    ∃ e w, op.run box f ⟨calls, none⟩ = .error e w ∧ Stopped w := by
  cases op with
  | convMBR dsk =>
      obtain ⟨stopped, hpre, hfails⟩ := h
      obtain ⟨txt, hmsg⟩ :=
        checkedMsg_fails (w := ⟨stopped ++ [partNumbers dsk], some []⟩) [] hfails
      exact ⟨_, _, (bind_of_ok (pre_run_of_some hpre)).trans ((bind_of_ok (capture_run _ _)).trans
        (bind_of_error hmsg)), rfl⟩
  | convGPT dsk =>
      obtain ⟨stopped, hpre, hfails⟩ := h
      obtain ⟨txt, hmsg⟩ := checkedMsg_fails (w := ⟨stopped ++ [zap dsk], some []⟩)
        ("Conv_GPT ".toList ++ dsk ++ ": ".toList) hfails
      exact ⟨_, _, (bind_of_ok (pre_run_of_some hpre)).trans ((bind_of_ok (quiet_run _ _)).trans
        (bind_of_error hmsg)), rfl⟩
  | _ => exact h.elim

theorem convMBR_safe {calls : List Text} {dsk : Text}
    (h : ¬ (Operation.convMBR dsk).Fails box calls) :
    Runs (· = ⟨calls, none⟩) (convMBR box dsk) (fun _ _ => True) fun _ => Restored := by
  rintro _ rfl
  cases hpre : box.stopped calls dsk with
  | none =>
      rw [convMBR, bind_of_error (pre_run_of_none hpre)]
      exact Or.inr rfl
  | some stopped =>
      have hok : (box.tools (stopped ++ [partNumbers dsk])
          (toMBR (commandSubst (box.tools stopped (partNumbers dsk)).out) dsk)).status = 0 :=
        not_not.mp fun hfails => h ⟨stopped, hpre, hfails⟩
      rw [convMBR, bind_of_ok (pre_run_of_some hpre), bind_of_ok (capture_run _ _),
        bind_of_ok (checkedMsg_succeeds (w := ⟨stopped ++ [partNumbers dsk], some []⟩) [] hok)]
      trivial

theorem convGPT_safe {calls : List Text} {dsk : Text}
    (h : ¬ (Operation.convGPT dsk).Fails box calls) :
    Runs (· = ⟨calls, none⟩) (convGPT box dsk) (fun _ _ => True) fun _ => Restored := by
  rintro _ rfl
  cases hpre : box.stopped calls dsk with
  | none =>
      rw [convGPT, bind_of_error (pre_run_of_none hpre)]
      exact Or.inr rfl
  | some stopped =>
      have hok : (box.tools (stopped ++ [zap dsk]) (toGPT dsk)).status = 0 :=
        not_not.mp fun hfails => h ⟨stopped, hpre, hfails⟩
      rw [convGPT, bind_of_ok (pre_run_of_some hpre), bind_of_ok (quiet_run _ _),
        bind_of_ok (checkedMsg_succeeds (w := ⟨stopped ++ [zap dsk], some []⟩) _ hok)]
      trivial

/-- Any other operation does not. -/
theorem run_safe {calls : List Text} {op : Operation} (h : ¬ op.Fails box calls) :
    Runs (· = ⟨calls, none⟩) (op.run box f) (fun _ _ => True) fun _ => Restored := by
  have hstart : ∀ w : World, w = ⟨calls, none⟩ → Untouched w := fun w hw => hw ▸ rfl
  have hsafe : ∀ {m : Page PUnit}, Safe m →
      Runs (· = ⟨calls, none⟩) m (fun _ _ => True) fun _ => Restored :=
    fun hm => hm.weaken hstart fun _ _ hw => hw
  cases op with
  | copyTable cpFrom => exact hsafe (copyTable_safe cpFrom)
  | erase dsk => exact hsafe (erase_safe dsk)
  | save dsk => exact hsafe (save_safe dsk)
  | load dsk => exact hsafe (load_safe dsk)
  | convMBR dsk => exact convMBR_safe h
  | convGPT dsk => exact convGPT_safe h
  | partitionMBR dsk => exact hsafe (partitionMBR_safe dsk)
  | partitionGPT dsk => exact hsafe (partitionGPT_safe dsk)
  | none => exact Runs.pure fun _ _ => trivial

/-! ### The script -/

/-- Where a script ends, from the start on. -/
def endWorld (m : Page PUnit) : World :=
  match m ⟨[], none⟩ with
  | .ok _ w => w
  | .error _ w => w

/-- Where the script ends, hotplug is as it was, or started again. -/
def EndsRestored (m : Page PUnit) : Prop := Restored (endWorld m)

theorem endsRestored_of_runs {m : Page PUnit}
    (h : Runs (· = ⟨[], none⟩) m (fun _ => Restored) fun _ => Restored) : EndsRestored m := by
  have hrun := h ⟨[], none⟩ rfl
  unfold EndsRestored endWorld
  cases hm : m ⟨[], none⟩ with
  | ok a w =>
      rw [hm] at hrun
      exact hrun
  | error e w =>
      rw [hm] at hrun
      exact hrun

/-- There are disks. -/
def Box.HasDisks (box : Box) : Prop := commandSubst (box.tools [] listDisks).out ≠ []

theorem hasDisks_run (h : box.HasDisks) :
    hasDisks box ⟨[], none⟩ =
      .ok (commandSubst (box.tools [] listDisks).out) ⟨[listDisks], none⟩ := by
  rw [hasDisks, bind_of_ok (capture_run _ _)]
  exact congrFun (if_neg h) _

/-- **Hotplug after the partitioner.**  It is started again, but where a conversion fails. -/
theorem diskpart_restores_iff :
    EndsRestored (diskpartProc box f) ↔
      ¬ (box.HasDisks ∧ (operation f).Fails box [listDisks]) := by
  constructor
  · rintro hrestored ⟨hdisks, hfails⟩
    obtain ⟨e, w, hrun, hstopped⟩ := stopped_of_fails (f := f) hfails
    rw [EndsRestored, endWorld, diskpartProc, bind_of_ok (hasDisks_run hdisks),
      bind_of_error hrun] at hrestored
    rcases hrestored with h | h
    · rw [hstopped] at h
      cases h
    · rw [hstopped] at h
      cases h
  · intro h
    refine endsRestored_of_runs ?_
    by_cases hdisks : box.HasDisks
    · have hsafe := run_safe (f := f) fun hfails => h ⟨hdisks, hfails⟩
      refine Runs.bind (Q := fun _ => (· = ⟨[listDisks], none⟩)) ?_ fun disks =>
        Runs.bind hsafe fun _ => Runs.bind (quiet_stays blind_true _) fun _ =>
          Runs.bind (loadall_stays blind_true _) fun _ => Runs.modifyGet fun _ _ => Or.inr rfl
      rintro _ rfl
      rw [hasDisks_run hdisks]
    · rintro _ rfl
      have hnone : hasDisks box ⟨[], none⟩ = .error .noDisks ⟨[listDisks], none⟩ := by
        rw [hasDisks, bind_of_ok (capture_run _ _)]
        exact congrFun (if_pos (not_not.mp hdisks)) _
      rw [diskpartProc, bind_of_error hnone]
      exact Or.inl rfl

end Operations

end AltF.Cgi.Disks
