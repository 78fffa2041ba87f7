/-
  Cgi/DiskMaint.lean --- diskmaint_proc.cgi: the scripts that check, fix, format, resize and
  wipe a filesystem in the background.

  A script is made by a here-document.  What is escaped in it the script expands when it
  runs, what is not the page has expanded before: `\$?` is the status of the program in
  front, `$?` that of the page's last command.  The pid file, the LED and the loop that
  shortens the log are left out.
-/
import AltF.Cgi.DiskPart
import AltF.Foundation.Decimal

set_option autoImplicit false

namespace AltF.Cgi.DiskMaint

open AltF.Foundation AltF.Shell AltF.SysFiles

/-! ## What a script does -/

/-- The programs that do the work. -/
inductive Work where
  | fsck
  | mkfs
  /-- resize2fs or btrfs -/
  | resize
  | dd
  deriving DecidableEq, Repr

/-- A status of success. -/
def Work.Ok (k : Work) (status : Nat) : Prop :=
  match k with
  | .fsck => status = 0 ∨ status = 1
  | _ => status = 0

instance (k : Work) (status : Nat) : Decidable (k.Ok status) := by
  unfold Work.Ok
  cases k <;> infer_instance

/-- What can be seen of a script. -/
inductive Effect where
  | worked (k : Work) (status : Nat)
  /-- another program -/
  | ran (cmd : Text)
  /-- `logger` with the message that a program has succeeded -/
  | success (k : Work) (msg : Text)
  /-- `logger "$emsg"` -/
  | failure (emsg : Text)
  /-- a line for $SERRORL -/
  | errorLine (line : Text)
  /-- `ACTION=add ... hot.sh`, which mounts the filesystem -/
  | hotAdd (part : Text)
  deriving DecidableEq, Repr

/-- A character of a device's name. -/
def deviceChar (c : Char) : Bool := c.isAlphanum || c == '-' || c == '_'

/-- The name of a device, as it is below /dev. -/
abbrev Device : Type := {t : Text // t.all deviceChar = true}

/-- `/dev/$1` -/
def Device.path (part : Device) : Text := "/dev/".toList ++ part.1

/-- The statuses and the output of the programs, by the command. -/
abbrev Programs : Type := Text → Disks.Outcome

/-- A running script: it may end by itself with a status. -/
abbrev Job (α : Type) : Type := Script Nat (List Effect) α

section Steps

variable (run : Programs)

def emit (e : Effect) : Job PUnit := modifyGet fun trace => (⟨⟩, trace ++ [e])

/-- A program that does the work: its output, and its status in `$?`. -/
def work (k : Work) (cmd : Text) : Job Disks.Outcome :=
  modifyGet fun trace => (run cmd, trace ++ [.worked k (run cmd).status])

/-- Another program. -/
def tool (cmd : Text) : Job Disks.Outcome :=
  modifyGet fun trace => (run cmd, trace ++ [.ran cmd])

/-- `wait` without an argument: it succeeds when the children have ended, in any way. -/
def waitAll : Job Nat := pure 0

/-- `logger "$emsg"; echo "<li><pre>$emsg</pre></li>" >> $SERRORL` -/
def report (emsg : Text) : Job PUnit := do
  emit (.failure emsg)
  emit (.errorLine ("<li><pre>".toList ++ emsg ++ "</pre></li>".toList))

/-- `echo $st` -/
def decimal (n : Nat) : Text := Nat.toDigits 10 n

/-! ## The scripts -/

variable (part : Device)

/-- `$opts` of check; `none`: the page ends with a message and makes no script. -/
def checkOpts (type : Text) (fix : Bool) : Option Text :=
  if type = "ext2".toList ∨ type = "ext3".toList ∨ type = "ext4".toList then
    some (if fix then "-fy".toList else "-fp".toList)
  else if type = "vfat".toList then some "-a".toList
  else if type = "ntfs".toList then some []
  else none

def fsckCmd (opts : Text) : Text :=
  "fsck ".toList ++ opts ++ " -C5 ".toList ++ part.path

/-- The script of check. -/
def checkScript (opts : Text) : Job PUnit := do
  let res ← work run .fsck (fsckCmd part opts)
  let st := res.status
  if st = 0 ∨ st = 1 then do
    emit (.hotAdd part.1)
    exit 0
  else
    report ("Checking ".toList ++ part.1 ++ " finished with status code ".toList ++ decimal st ++
      ": ".toList ++ commandSubst res.out)

/-- The RAID device in sysfs. -/
structure Raid where
  clear : Bool
  level : Text
  disks : Nat
  chunk : Nat

/-- `$raidopts` -/
def raidopts : Option Raid → Text
  | none => []
  | some raid =>
      if raid.level = "raid0".toList ∨ raid.level = "raid5".toList then
        let nd := if raid.level = "raid0".toList then raid.disks else 2
        let stride := raid.chunk / 4096
        "-b 4096 -E stride=".toList ++ decimal stride ++ ",stripe-width=".toList ++
          decimal (stride * nd)
      else []

/-- What the page puts into a script. -/
structure Made where
  type : Text
  raid : Option Raid
  label : Text
  tuneMounts : Text
  tuneDays : Text
  /-- what btrfs uses, and 5% more -/
  used : Text
  /-- where /proc/mounts has the filesystem -/
  mp : Text
  nblk : Text

variable (made : Made)

/-- `$opts` and `$id` of format; `none`: a RAID device that is not active, or a wrong
type. -/
def formatOpts : Option (Text × Text) :=
  if made.raid.any (·.clear) then none
  else if made.type = "ext2".toList ∨ made.type = "ext3".toList ∨ made.type = "ext4".toList then
    some ("-v -m 0 ".toList ++ raidopts made.raid, "83".toList)
  else if made.type = "btrfs".toList then some ("-f".toList, "83".toList)
  else if made.type = "vfat".toList then some ("-v".toList, "c".toList)
  else if made.type = "ntfs".toList then some ("-v -f".toList, "7".toList)
  else none

def mkfsCmd (opts : Text) : Text :=
  "nice mkfs.".toList ++ made.type ++ " ".toList ++ opts ++ " ".toList ++ part.path

/-- The partition type in the table of a disk that has no GPT. -/
def changeId (id : Text) : Job PUnit := do
  let p := part.1.take 3
  let pn := part.1.drop 3
  let gpt ← tool run ("fdisk -l /dev/".toList ++ p ++ " | grep -q \"Found valid GPT\"".toList)
  let ge ← tool run ("test ".toList ++ pn ++ " -ge 1 -a ".toList ++ pn ++ " -le 4".toList)
  onlyIf (gpt.status ≠ 0 ∧ ge.status = 0) do
    let r ← tool run ("sfdisk --change-id /dev/".toList ++ p ++ " ".toList ++ pn ++ " ".toList ++
      id ++ " -O /tmp/mbr-".toList ++ p)
    onlyIf (r.status ≠ 0) do
      let _ ← tool run ("sfdisk /dev/".toList ++ p ++ " -I /tmp/mbr-".toList ++ p)
    let _ ← tool run ("rm /tmp/mbr-".toList ++ p)

/-- The script of format behind `mkfs`. -/
def formatted (id : Text) : Job PUnit := do
  onlyIf (made.type = "ext3".toList) do
    let _ ← tool run ("tune2fs -o journal_data_ordered ".toList ++ part.path)
  emit (.success .mkfs ("Formated ".toList ++ part.path ++ " with ".toList ++ made.type ++
    " OK".toList))
  onlyIf (made.label ≠ []) do
    let _ ← tool run ("plabel ".toList ++ part.1 ++ " ".toList ++ made.label)
  onlyIf (part.1.take 2 = "sd".toList) (changeId run part id)
  onlyIf (made.type.take 3 = "ext".toList) do
    let _ ← tool run ("tune2fs -c ".toList ++ made.tuneMounts ++ " -i ".toList ++ made.tuneDays ++
      " ".toList ++ part.path)
  emit (.hotAdd part.1)

/-- The script of format. -/
def formatScript (opts id : Text) : Job PUnit := do
  let res ← work run .mkfs (mkfsCmd part made opts)
  let st := res.status
  onlyIf (st ≠ 0) do
    report ("Formatting ".toList ++ part.1 ++ " with ".toList ++ made.type ++
      " failed with code ".toList ++ decimal st ++ ": ".toList ++ commandSubst res.out)
    exit 1
  formatted run part made id

/-- `$2` of resize. -/
inductive Direction where
  | shrink
  | enlarg
  deriving DecidableEq, Repr

def Direction.name : Direction → Text
  | .shrink => "shrink".toList
  | .enlarg => "enlarg".toList

def resizeCmd (dir : Direction) : Text :=
  if made.type = "btrfs".toList then
    "nice btrfs filesystem resize ".toList ++
      (if dir = .shrink then made.used else "max".toList) ++ " ".toList ++ made.mp
  else
    "nice resize2fs -p ".toList ++ part.path ++ " ".toList ++
      (if dir = .shrink then "-M".toList else [])

/-- The `$?` that the here-document of resize has: the page's command in front of it is the
assignment of `$logf`. -/
def statusWhenMade : Nat := 0

/-- The script of resize. -/
def resizeScript (dir : Direction) : Job PUnit := do
  let res ← work run .fsck (fsckCmd part "-fp".toList)
  let st := res.status
  onlyIf (¬ (st = 0 ∨ st = 1)) do
    report ("Checking ".toList ++ part.1 ++ " failed with error code ".toList ++ decimal st ++
      ": ".toList ++ commandSubst res.out)
    exit 1
  emit (.success .fsck ("Checking ".toList ++ part.path ++ " OK".toList))
  let log ← work run .resize (resizeCmd part made dir)
  -- `$?` is not escaped here.
  onlyIf (statusWhenMade ≠ 0) do
    report (dir.name ++ "ing ".toList ++ part.1 ++ " failed: ".toList ++ commandSubst log.out)
    exit 1
  emit (.success .resize (dir.name ++ "ing ".toList ++ part.path ++ " succeeded".toList))
  emit (.hotAdd part.1)

def ddCmd : Text :=
  "nice dd if=/dev/zero of=".toList ++ part.path ++ " bs=4M count=".toList ++ made.nblk

/-- The script of wipe: dd runs in the background. -/
def wipeScript : Job PUnit := do
  let log ← work run .dd (ddCmd part made)
  let st ← waitAll
  onlyIf (st = 0) do
    emit (.success .dd ("Wiped ".toList ++ part.path ++ " OK".toList))
    exit 0
  report ("Wiping ".toList ++ part.1 ++ " failed with error code ".toList ++ decimal st ++
    ": ".toList ++ commandSubst log.out)

/-- The operations that run in the background. -/
inductive Operation where
  | check
  | fix
  | format
  | shrink
  | enlarge
  | wipe
  deriving DecidableEq, Repr

/-- The script of an operation, when the page starts one. -/
def script : Operation → Option (Job PUnit)
  | .check => (checkOpts made.type false).map (checkScript run part)
  | .fix => (checkOpts made.type true).map (checkScript run part)
  | .format => (formatOpts made).map fun o => formatScript run part made o.1 o.2
  | .shrink => some (resizeScript run part made .shrink)
  | .enlarge => some (resizeScript run part made .enlarg)
  | .wipe => some (wipeScript run part made)

end Steps

end AltF.Cgi.DiskMaint
